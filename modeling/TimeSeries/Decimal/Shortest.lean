import TimeSeries.Double

/-!
# Shortest decimals

A double is printed with the fewest significant digits that still read back as
the same double; of the decimals with that many digits the one nearest to it is
taken, and of two equally near the even one.

A finite double is `m · 2 ^ q`. The reals that round to it form an interval
around it, whose ends belong to it exactly when `m` is even. `shortest` looks for
the coarsest decimal grid with a point in that interval, in exact arithmetic on
natural numbers.
-/

namespace TimeSeries

/-- **Decimal**: `digits · 10 ^ exponent`. -/
structure Decimal : Type where
  /-- the significant digits, as one number -/
  digits : Nat
  /-- the power of ten the digits are multiplied by -/
  exponent : Int
  deriving DecidableEq, Repr

namespace Decimal

/-- **Interval of a double**: the reals that round to it, all three numbers
counted in the same unit `num / den`. -/
structure Interval : Type where
  /-- the lower end -/
  low : Nat
  /-- the double itself -/
  mid : Nat
  /-- the upper end -/
  high : Nat
  /-- whether the ends belong to the interval -/
  closed : Bool
  /-- numerator of the unit -/
  num : Nat
  /-- denominator of the unit -/
  den : Nat

/-- The weight of the bit in front of a fraction, which is not stored. -/
def leadingBit : Nat := 0x10000000000000

/-- The interval of a finite, positive double. Its lower neighbour is only half as
far away when the double is a power of two. -/
def Interval.ofDouble (d : Double) : Interval :=
  let biased := d.magnitude / leadingBit
  let fraction := d.magnitude % leadingBit
  let m := if biased = 0 then fraction else fraction + leadingBit
  let shift := if biased = 0 then 1 else biased
  -- the double is `4 * m` units of `2 ^ (shift - 1077)`
  { low := if fraction = 0 ∧ 1 < biased then 4 * m - 1 else 4 * m - 2
    mid := 4 * m
    high := 4 * m + 2
    closed := m % 2 = 0
    num := 1 <<< (shift - 1077)
    den := 1 <<< (1077 - shift) }

/-- The interval counted on a grid of powers of ten: `10 ^ k` becomes the unit. -/
def Interval.onGrid (i : Interval) (k : Int) : Interval :=
  { i with num := i.num * Nat.pow 10 (-k).toNat, den := i.den * Nat.pow 10 k.toNat }

/-- Whether a point of the grid lies in the interval. -/
def Interval.holds (i : Interval) (point : Nat) : Bool :=
  if i.closed then i.low * i.num ≤ point * i.den && point * i.den ≤ i.high * i.num
  else i.low * i.num < point * i.den && point * i.den < i.high * i.num

/-- The better of the two grid points around the double, if one lies in the
interval: the nearer, and of two equally near the even one. -/
def Interval.pick (i : Interval) : Option Nat :=
  let below := i.mid * i.num / i.den
  let above := below + 1
  match i.holds below, i.holds above with
  | true, true =>
    let left := i.mid * i.num - below * i.den
    let right := above * i.den - i.mid * i.num
    if left < right then some below
    else if right < left then some above
    else some (if below % 2 = 0 then below else above)
  | true, false => some below
  | false, true => some above
  | false, false => none

/-- Moves trailing zeros from the digits into the exponent. At most `fuel` of
them, which is ample for the digits of a double. -/
def trim : (fuel : Nat) → Decimal → Decimal
  | 0, d => d
  | fuel + 1, d =>
    if d.digits ≠ 0 ∧ d.digits % 10 = 0 then trim fuel ⟨d.digits / 10, d.exponent + 1⟩ else d

/-- The exponent of the leading digit of a positive number `mid · num / den` that
is at least `10 ^ (-400)`. -/
def Interval.leading (i : Interval) : Int :=
  ((Nat.toDigits 10 (i.mid * i.num * Nat.pow 10 400 / i.den)).length : Int) - 401

/-- **Shortest decimal** of a finite, positive double: the first hit on the grids
with one significant digit, two, and so on. Seventeen always suffice. -/
def shortest (d : Double) : Decimal :=
  let i := Interval.ofDouble d
  let lead := i.leading
  let hit := (List.range 17).findSome? fun (n : Nat) =>
    let k := lead - n
    (i.onGrid k).pick.map fun point => Decimal.mk point k
  (hit.map (trim 400)).getD ⟨0, 0⟩

end Decimal

end TimeSeries
