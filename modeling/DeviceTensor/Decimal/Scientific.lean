import DeviceTensor.Binary.Conversion
set_option autoImplicit false

/-!
# Scientific notation

A number written with a fixed count of significant digits: one digit, a point, the other digits,
and the exponent of ten.  The digits are those of the exact binary value rounded to the nearest
decimal, a tie to the even digit.
-/

namespace DeviceTensor.Decimal

/-- The fraction `m / n` to the nearest integer, a tie to the even one. -/
def divToNearest (m n : Nat) : Nat :=
  let quotient := m / n
  let twice := 2 * (m % n)
  if n < twice ∨ (n = twice ∧ quotient % 2 = 1) then quotient + 1 else quotient

/-- The quotient `m / n * 10 ^ k` as a fraction. -/
def scale (m n : Nat) (k : Int) : Nat × Nat :=
  if 0 ≤ k then (m * Nat.pow 10 k.toNat, n) else (m, n * Nat.pow 10 (-k).toNat)

/-- Whether `10 ^ k` is at most `m / n`. -/
def reaches (m n : Nat) (k : Int) : Bool :=
  let (a, b) := scale m n (-k)
  b ≤ a

/-- The exponent of the leading decimal digit of a positive `m / n`.

The difference of the bit lengths estimates the binary logarithm to within one; times
`log10 2 = 0.30103` it estimates the exponent to within one, and a comparison decides. -/
def leadingExponent (m n : Nat) : Int :=
  let bits : Int := Binary.bitLength m - Binary.bitLength n
  let guess := (bits - 1) * 30103 / 100000
  if reaches m n (guess + 1) then
    if reaches m n (guess + 2) then guess + 2 else guess + 1
  else if reaches m n guess then guess else guess - 1

/-- The digits of a positive `m / n`, rounded to `digits` places, with the exponent of the first. -/
def leadingDigits (m n digits : Nat) : Nat × Int :=
  let exponent := leadingExponent m n
  let (a, b) := scale m n (digits - 1 - exponent)
  let rounded := divToNearest a b
  if rounded = Nat.pow 10 digits then (Nat.pow 10 (digits - 1), exponent + 1)
  else (rounded, exponent)

/-- The decimal digits of `n`, padded with zeros on the left. -/
def padded (width n : Nat) : String :=
  let digits := toString n
  String.ofList (List.replicate (width - digits.length) '0') ++ digits

/-- The magnitude `m / n` with `places` digits after the point. -/
def scientific (m n places : Nat) : String :=
  if m = 0 then
    s!"0.{padded places 0}e0"
  else
    let (digits, exponent) := leadingDigits m n (places + 1)
    let unit := Nat.pow 10 places
    s!"{digits / unit}.{padded places (digits % unit)}e{exponent}"

end DeviceTensor.Decimal
