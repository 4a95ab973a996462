import DeviceTensor.Decimal.Shortest
import DeviceTensor.Element.Double
set_option autoImplicit false

/-!
# Elements in writing

Integers are written as themselves.  A floating point element is written exactly, as the digits of
its pattern, or to a fixed count of significant decimal digits; every NaN and each infinity has a
word.  Elements are read from decimal numbers, words and patterns.
-/

namespace DeviceTensor

/-- The written form of an element. -/
inductive Written where
  | integer (n : Int)
  | text (s : String)
  deriving DecidableEq, Repr, Inhabited

namespace Written

/-- The hexadecimal digits of `n`, `width` of them. -/
def hexDigits (width n : Nat) : String :=
  let digits := Nat.toDigits 16 n
  String.ofList (List.replicate (width - digits.length) '0' ++ digits)

/-- The word for a NaN or an infinity, else the given text. -/
def wordOr {F : Binary.Format} (x : Binary.Bits F) (text : Unit → String) : String :=
  match Binary.classify x with
  | .nan => "nan"
  | .infinite s => if s then "-inf" else "inf"
  | .finite .. => text ()

/-- The pattern of a floating point element. -/
def pattern {F : Binary.Format} (x : Binary.Bits F) : Written :=
  .text (wordOr x fun _ => hexDigits (F.width / 4) x.toNat)

/-- A floating point element to `digits` significant digits. -/
def rounded {F : Binary.Format} (digits : Nat) (x : Binary.Bits F) : Written :=
  .text (wordOr x fun _ => Decimal.scientificText (digits - 1) x)

/-- The written form of an element.  Without `exact`, 32-bit numbers have 4 significant digits and
64-bit numbers 10; the 16-bit format is always exact. -/
def ofElem (exact : Bool) : (d : ElemType) → Elem d → Written
  | .float32, x => if exact then pattern (F := .single) x else rounded (F := .single) 4 x
  | .float64, x => if exact then pattern (F := .double) x else rounded (F := .double) 10 x
  | .float16, x => pattern (F := .half) x
  | .int32, x => .integer x.toInt
  | .char, x => .integer x.toInt

end Written

namespace Elem

/-! ## Reading -/

/-- The element nearest to the decimal number `m / 10 ^ k`.  A floating point number is rounded to
the 64-bit format first; an integer has no decimal places. -/
def ofDecimal? (m : Int) (k : Nat) : (d : ElemType) → Option (Elem d)
  | .float32 => some (toSingle .float64 (Double.ofDecimal m k))
  | .float64 => some (Double.ofDecimal m k)
  | .float16 => some (Binary.convert (F := .double) .half (Double.ofDecimal m k))
  | .int32 => if k = 0 then Word.ofInt? 32 m else none
  | .char => if k = 0 then Word.ofInt? 8 m else none

/-- The value of a hexadecimal digit. -/
def hexDigit? (c : Char) : Option Nat :=
  if '0' ≤ c ∧ c ≤ '9' then some (c.toNat - '0'.toNat)
  else if 'a' ≤ c ∧ c ≤ 'f' then some (c.toNat - 'a'.toNat + 10)
  else if 'A' ≤ c ∧ c ≤ 'F' then some (c.toNat - 'A'.toNat + 10)
  else none

/-- The number with the given hexadecimal digits, at least one. -/
def ofHex? (cs : List Char) : Option Nat :=
  if cs.isEmpty then none
  else cs.foldlM (fun n c => (hexDigit? c).map (16 * n + ·)) 0

/-- The pattern of a format that a word or hexadecimal digits stand for. -/
def patternOf? (F : Binary.Format) (s : String) : Option (Binary.Bits F) :=
  match s with
  | "nan" => some (Binary.nan F)
  | "inf" => some (Binary.infinite F false)
  | "-inf" => some (Binary.infinite F true)
  | "-0" => some (Binary.pack F true 0)
  | _ =>
    match s.toList with
    | '0' :: 'x' :: digits => do
      let n ← ofHex? digits
      if n < 1 <<< F.width then some (BitVec.ofNat F.width n) else none
    | _ => none

/-- The floating point element that a word or hexadecimal digits stand for. -/
def ofText? (s : String) : (d : ElemType) → Option (Elem d)
  | .float32 => patternOf? .single s
  | .float64 => patternOf? .double s
  | .float16 => patternOf? .half s
  | .int32 => none
  | .char => none

end Elem

end DeviceTensor
