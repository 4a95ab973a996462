import DeviceTensor.Binary.Format
set_option autoImplicit false

/-!
# Rounding to a format

Every operation computes an exact number first, or enough of its leading bits and one sticky bit,
and then rounds once: to the nearest pattern, a tie to the even one, and to infinity beyond the
largest finite number.
-/

namespace DeviceTensor.Binary

/-- The number of bits of `n`; zero has none. -/
def bitLength (n : Nat) : Nat := if n = 0 then 0 else n.log2 + 1

/-- The quotient `n / 2 ^ k` to the nearest integer, a tie to the even one. -/
def shiftToNearest (n k : Nat) : Nat :=
  let unit := 1 <<< k
  let quotient := n / unit
  let twice := 2 * (n % unit)
  if unit < twice ∨ (unit = twice ∧ quotient % 2 = 1) then quotient + 1 else quotient

/-- The magnitude pattern nearest to `m * 2 ^ e`.

The last place of the result has exponent `q`, at least that of the subnormal numbers.  Counting
from the least exponent, each step of `q` passes over `2 ^ fractionBits` patterns, so the rounded
significand is added to that many; a carry out of the significand moves to the next exponent by
itself. -/
def roundMagnitude (F : Format) (m : Nat) (e : Int) : Nat :=
  let q := max F.leastExponent (e + bitLength m - (F.fractionBits + 1))
  let significand :=
    if q ≤ e then m <<< (e - q).toNat else shiftToNearest m (q - e).toNat
  if significand = 0 then 0
  else min F.infinity ((q - F.leastExponent).toNat * F.fractions + significand)

/-- The pattern nearest to `± m * 2 ^ e`. -/
def round (F : Format) (negative : Bool) (m : Nat) (e : Int) : Bits F :=
  pack F negative (roundMagnitude F m e)

/-- The pattern nearest to `± m / n * 2 ^ e`, for a positive `n`.

The quotient is taken with more bits than a significand has; a remainder is kept as a sticky last
bit, which decides between a tie and its neighbourhood. -/
def roundQuotient (F : Format) (negative : Bool) (m n : Nat) (e : Int) : Bits F :=
  let extra := F.fractionBits + 3 + bitLength n
  let scaled := m <<< extra
  let sticky := if scaled % n = 0 then 0 else 1
  round F negative (2 * (scaled / n) + sticky) (e - extra - 1)

/-- The largest number whose square is at most `n`, for `n < 4 ^ digits`. -/
def squareRoot (digits : Nat) (n : Nat) : Nat :=
  match digits with
  | 0 => 0
  | digits + 1 =>
    let r := 2 * squareRoot digits (n / 4)
    if (r + 1) * (r + 1) ≤ n then r + 1 else r

/-- The pattern nearest to the square root of `m * 2 ^ e`. -/
def roundSquareRoot (F : Format) (m : Nat) (e : Int) : Bits F :=
  let even := if e % 2 = 0 then m else 2 * m
  let extra := F.fractionBits + 2
  let scaled := even <<< (2 * extra)
  let root := squareRoot (bitLength scaled / 2 + 1) scaled
  let sticky := if root * root = scaled then 0 else 1
  round F false (2 * root + sticky) (e / 2 - extra - 1)

theorem shiftToNearest_zero (n : Nat) : shiftToNearest n 0 = n := by
  simp [shiftToNearest, Nat.mod_one]

theorem roundMagnitude_zero (F : Format) (e : Int) : roundMagnitude F 0 e = 0 := by
  simp [roundMagnitude, shiftToNearest]

end DeviceTensor.Binary
