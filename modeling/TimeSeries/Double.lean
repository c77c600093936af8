/-!
# Doubles: sample values by their bits

The value of a sample is a binary64 number, carried by its 64 bits so that every
bit pattern survives storage and transport, the payload of a NaN included. Two
orders are read off the bits: `total`, in which every pattern has its own place,
and the comparison of numbers `lt` / `le`, in which the two zeros are equal and a
NaN is comparable to nothing.

Arithmetic is the machine's, with the treatment of NaN spelled out: a NaN
operand is handed on with its payload and made quiet, and an operation that has
no result at all gives the NaN `invalid`.
-/

namespace TimeSeries

/-- **Double**: a binary64 number, given by its bits. -/
structure Double : Type where
  /-- sign, exponent and fraction, most significant bit first -/
  bits : UInt64
  deriving DecidableEq, Repr

namespace Double

/-- The NaN that stands for a missing value. -/
def nan : Double := ⟨0x7ff8000000000000⟩

/-- The NaN of an operation without a result, such as the sum of two opposite
infinities. -/
def invalid : Double := ⟨0xfff8000000000000⟩

/-- Negative zero: the sum of no numbers, since adding it changes no number. -/
def negZero : Double := ⟨0x8000000000000000⟩

/-- The bits of the positive infinity, above which a magnitude means NaN. -/
def infinityBits : Nat := 0x7ff0000000000000

/-! ### Sign, magnitude and order -/

/-- The weight of the sign bit. -/
def signBit : Nat := 0x8000000000000000

/-- Whether the sign bit is set. -/
def isNegative (d : Double) : Bool := signBit ≤ d.bits.toNat

/-- The bits without the sign. They grow with the absolute value. -/
def magnitude (d : Double) : Nat := d.bits.toNat % signBit

/-- Whether the bits stand for no number. -/
def isNaN (d : Double) : Bool := infinityBits < d.magnitude

/-- Neither an infinity nor a NaN. -/
def isFinite (d : Double) : Bool := d.magnitude < infinityBits

/-- The place of a number on the line of numbers; both zeros have place `0`. -/
def place (d : Double) : Int := if d.isNegative then -d.magnitude else d.magnitude

/-- The place of a bit pattern in the total order: negative patterns, from the
NaN of largest magnitude up to negative zero, then positive ones. -/
def rank (d : Double) : Int := if d.isNegative then -d.magnitude - 1 else d.magnitude

/-- **Number order**, strict: false if either side is a NaN. -/
def lt (a b : Double) : Bool := !a.isNaN && !b.isNaN && a.place < b.place

/-- **Number order**: false if either side is a NaN. -/
def le (a b : Double) : Bool := !a.isNaN && !b.isNaN && a.place ≤ b.place

/-! ### Arithmetic -/

/-- The machine number with these bits. -/
def toFloat (d : Double) : Float := Float.ofBits d.bits

/-- The bits of a machine number. -/
def ofFloat (x : Float) : Double := ⟨x.toBits⟩

/-- A NaN with the bit set that marks it as quiet. -/
def quiet (d : Double) : Double := ⟨d.bits ||| 0x0008000000000000⟩

/-- Carries an operation of the machine over to bits: a NaN on the left is handed
on, else one on the right, and a NaN that arises is `invalid`. -/
def lift (op : Float → Float → Float) (a b : Double) : Double :=
  if a.isNaN then a.quiet
  else if b.isNaN then b.quiet
  else
    let result := op a.toFloat b.toFloat
    if result.isNaN then invalid else ofFloat result

/-- The sum of two numbers. -/
def add : Double → Double → Double := lift fun x y => x + y

/-- The product of two numbers. -/
def mul : Double → Double → Double := lift fun x y => x * y

/-- The quotient of two numbers. -/
def div : Double → Double → Double := lift fun x y => x / y

/-- The number with the opposite sign. -/
def neg (d : Double) : Double := ⟨d.bits ^^^ 0x8000000000000000⟩

/-- The double nearest to a word read as a natural number; of two equally near
the one with even bits. -/
def ofWord (w : UInt64) : Double := ofFloat w.toFloat

/-- The double nearest to a power of ten. -/
def powerOfTen (n : Nat) : Double := ofFloat (Float.ofScientific 1 false n)

/-- The sum of numbers, added in order. -/
def sum (ds : List Double) : Double := ds.foldl add negZero

end Double

end TimeSeries
