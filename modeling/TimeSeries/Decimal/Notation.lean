import TimeSeries.Decimal.Shortest

/-!
# Decimal notation

How a decimal is laid out as text. A leading digit between the places `10 ^ -5`
and `10 ^ 15` is written positionally, with at least one digit on each side of
the point; any other number has its point after the first digit, if more follow,
and a signed exponent.
-/

namespace TimeSeries.Decimal

/-- A run of zeros. -/
def zeros (n : Nat) : List Char := List.replicate n '0'

/-- The exponent part of a number. -/
def exponentText (e : Int) : List Char :=
  'e' :: (if e < 0 then '-' else '+') :: Nat.toDigits 10 e.natAbs

/-- **Layout** of a decimal with nonzero digits. `point` is the number of digits
in front of the decimal point. -/
def layout (d : Decimal) : List Char :=
  let digits := Nat.toDigits 10 d.digits
  let point : Int := digits.length + d.exponent
  if 0 ≤ d.exponent ∧ point ≤ 16 then digits ++ zeros d.exponent.toNat ++ ['.', '0']
  else if 0 < point ∧ point ≤ 16 then
    digits.take point.toNat ++ '.' :: digits.drop point.toNat
  else if -5 < point ∧ point ≤ 0 then '0' :: '.' :: (zeros (-point).toNat ++ digits)
  else
    match digits with
    | [one] => one :: exponentText (point - 1)
    | first :: more => first :: '.' :: (more ++ exponentText (point - 1))
    | [] => []

/-- **Text of a finite double**: its shortest decimal, with its sign. Zeros keep
theirs. -/
def text (d : Double) : String :=
  let body := if d.magnitude = 0 then ['0', '.', '0'] else layout (shortest d)
  String.ofList (if d.isNegative then '-' :: body else body)

end TimeSeries.Decimal
