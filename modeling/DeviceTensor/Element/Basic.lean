import DeviceTensor.Binary.Conversion
import DeviceTensor.Element.ElemType
import DeviceTensor.Machine.Word
set_option autoImplicit false

/-!
# Elements

An element is the bit pattern of its type: two's complement for the integer types, a binary
interchange format for the others.  Storage holds elements as little-endian bytes.
-/

namespace DeviceTensor

/-- Bit patterns of an element type. -/
abbrev Elem (d : ElemType) : Type := BitVec (8 * d.width)

namespace Elem

/-! ## Bytes -/

/-- The `w` low bytes of `n`, the lowest first. -/
def bytesOf : (w : Nat) → Nat → List UInt8
  | 0, _ => []
  | w + 1, n => UInt8.ofNat (n % 256) :: bytesOf w (n / 256)

/-- The number with the given bytes, the lowest first. -/
def ofBytes : List UInt8 → Nat
  | [] => 0
  | b :: bs => b.toNat + 256 * ofBytes bs

/-- The bytes of an element. -/
def toBytes {d : ElemType} (x : Elem d) : List UInt8 := bytesOf d.width x.toNat

/-- Byte `k` of an element. -/
def byte {d : ElemType} (x : Elem d) (k : Nat) : UInt8 :=
  UInt8.ofNat ((x.toNat >>> (8 * k)) % 256)

theorem length_bytesOf (w n : Nat) : (bytesOf w n).length = w := by
  induction w generalizing n with
  | zero => rfl
  | succ w ih => simp [bytesOf, ih]

theorem ofBytes_bytesOf (w n : Nat) : ofBytes (bytesOf w n) = n % (1 <<< (8 * w)) := by
  induction w generalizing n with
  | zero => simp [bytesOf, ofBytes, Nat.mod_one]
  | succ w ih =>
    have h : (UInt8.ofNat (n % 256)).toNat = n % 256 := by
      simp
    have step : 1 <<< (8 * (w + 1)) = 256 * 1 <<< (8 * w) := by
      rw [Nat.one_shiftLeft, Nat.one_shiftLeft, Nat.mul_succ, Nat.pow_add, Nat.mul_comm]
    rw [bytesOf, ofBytes, ih, h, step, Nat.mod_mul]

/-- The elements whose bytes fill `bytes` from the start, `count` of them; bytes behind the end
read as zero. -/
def decode (d : ElemType) (count : Nat) (bytes : Array UInt8) : Array (Elem d) :=
  (Array.range count).map fun i =>
    BitVec.ofNat _ (ofBytes ((List.range d.width).map fun k => bytes.getD (i * d.width + k) 0))

/-- The bytes `bytes` with the bytes of `xs` laid over their start. -/
def overlay {d : ElemType} (xs : Array (Elem d)) (bytes : Array UInt8) : Array UInt8 :=
  bytes.mapIdx fun p old =>
    match xs[p / d.width]? with
    | some x => x.byte (p % d.width)
    | none => old

/-- The bytes of elements, one behind the other. -/
def encode {d : ElemType} (xs : Array (Elem d)) : Array UInt8 :=
  overlay xs (Array.replicate (xs.size * d.width) 0)

theorem size_decode (d : ElemType) (count : Nat) (bytes : Array UInt8) :
    (decode d count bytes).size = count := by
  simp [decode]

theorem size_overlay {d : ElemType} (xs : Array (Elem d)) (bytes : Array UInt8) :
    (overlay xs bytes).size = bytes.size := by
  simp [overlay]

/-! ## Casts

Casts belong to the libraries of number types, not to the tensors; these are their documented
conversions, written out. -/

/-- The pattern of the 32-bit format nearest to an element. -/
def toSingle : (d : ElemType) → Elem d → Elem .float32
  | .float32, x => x
  | .float16, x => Binary.convert (F := .half) .single x
  | .float64, x => Binary.convert (F := .double) .single x
  | .int32, x => Binary.ofInt .single x.toInt
  | .char, x => Binary.ofInt .single x.toInt

/-- The pattern of the 64-bit format nearest to an element; every element has an exact one. -/
def toDouble : (d : ElemType) → Elem d → Elem .float64
  | .float32, x => Binary.convert (F := .single) .double x
  | .float16, x => Binary.convert (F := .half) .double x
  | .float64, x => x
  | .int32, x => Binary.ofInt .double x.toInt
  | .char, x => Binary.ofInt .double x.toInt

/-- The integer part of an element, toward zero; none for infinities and NaNs. -/
def truncate? : (d : ElemType) → Elem d → Option Int
  | .float32, x => Binary.truncate? (F := .single) x
  | .float16, x => Binary.truncate? (F := .half) x
  | .float64, x => Binary.truncate? (F := .double) x
  | .int32, x => some x.toInt
  | .char, x => some x.toInt

/-- The element of type `t` that stands for the element `x` of type `s`.

A cast to an integer type drops the fraction and fails when the rest is out of range.  A cast to a
floating point type never fails; the 16-bit format is reached by way of the 32-bit one, so that
wider numbers are rounded twice. -/
def cast (s t : ElemType) (x : Elem s) : Option (Elem t) :=
  match t with
  | .float32 => some (toSingle s x)
  | .float64 => some (toDouble s x)
  | .float16 => some (Binary.convert (F := .single) .half (toSingle s x))
  | .int32 => (truncate? s x).bind (Word.ofInt? 32)
  | .char => (truncate? s x).bind (Word.ofInt? 8)

end Elem

end DeviceTensor
