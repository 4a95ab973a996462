import DeviceTensor.Binary.Arithmetic
set_option autoImplicit false

/-!
# Conversion of binary formats

Between formats, to and from integers, and from decimal fractions.
-/

namespace DeviceTensor.Binary

/-- The pattern of `G` nearest to `x`; a NaN keeps its sign and the leading bits of its fraction
and becomes quiet. -/
def convert {F : Format} (G : Format) (x : Bits F) : Bits G :=
  match classify x with
  | .nan =>
    let fraction := magnitude x % F.fractions
    let kept := fraction * G.fractions / F.fractions
    pack G (isNegative x) (G.infinity + kept % G.quietBit + G.quietBit)
  | .infinite s => infinite G s
  | .finite s m e => round G s m e

/-- The pattern nearest to the integer `n`. -/
def ofInt (F : Format) (n : Int) : Bits F := round F (decide (n < 0)) n.natAbs 0

/-- The integer part of `x`, toward zero; none for infinities and NaNs. -/
def truncate? {F : Format} (x : Bits F) : Option Int :=
  match classify x with
  | .nan => none
  | .infinite _ => none
  | .finite s m e =>
    let n : Nat := if 0 ≤ e then m <<< e.toNat else m >>> (-e).toNat
    some (if s then -(n : Int) else n)

/-- The pattern nearest to the decimal fraction `m / 10 ^ k`. -/
def ofDecimal (F : Format) (m : Int) (k : Nat) : Bits F :=
  roundQuotient F (decide (m < 0)) m.natAbs (Nat.pow 10 k) 0

/-- The magnitude of a finite pattern as a fraction of two natural numbers. -/
def fraction? {F : Format} (x : Bits F) : Option (Nat × Nat) :=
  match classify x with
  | .nan => none
  | .infinite _ => none
  | .finite _ m e => some (if 0 ≤ e then (m <<< e.toNat, 1) else (m, 1 <<< (-e).toNat))

/-- Whether `x` is a number, neither an infinity nor a NaN. -/
def isFinite {F : Format} (x : Bits F) : Bool := magnitude x < F.infinity

/-- Whether `x` is a number without a fractional part. -/
def isWhole {F : Format} (x : Bits F) : Bool :=
  match classify x with
  | .nan => false
  | .infinite _ => false
  | .finite _ m e => 0 ≤ e || m % (1 <<< (-e).toNat) = 0

end DeviceTensor.Binary
