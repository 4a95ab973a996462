import DeviceTensor.Decimal.Scientific
set_option autoImplicit false

/-!
# Shortest decimals

The shortest decimal that reads back as a given binary number, and of those the nearest.  A number
`m * 2 ^ e` is read back from every decimal in the interval between the midpoints to its two
neighbours, the midpoints included when `m` is even.  A grid of `digits` significant digits is
fine enough when one of its two points around the number lies in that interval.
-/

namespace DeviceTensor.Decimal

/-- The decimals that read back as a number, as fractions over `unit`: those from `low` to
`high`, and the ends as well if `closed`. -/
structure Interval where
  low : Nat
  value : Nat
  high : Nat
  unit : Nat
  closed : Bool
  deriving DecidableEq, Repr, Inhabited

namespace Interval

/-- The interval of the positive finite number with the given significand and exponent.

The neighbour below a power of two is half as far as the one above, unless both are subnormal. -/
def ofBinary (F : Binary.Format) (m : Nat) (e : Int) : Interval :=
  let up := 4 <<< e.toNat
  let unit := 4 <<< (-e).toNat
  let power := m = F.fractions ∧ F.leastExponent < e
  let below := if power then up / 4 else up / 2
  ⟨m * up - below, m * up, m * up + up / 2, unit, m % 2 = 0⟩

/-- Whether the fraction `a / b` lies in the interval. -/
def contains (i : Interval) (a b : Nat) : Bool :=
  let x := a * i.unit
  if i.closed then i.low * b ≤ x && x ≤ i.high * b else i.low * b < x && x < i.high * b

/-- The point `n * 10 ^ k` as a fraction. -/
def point (n : Nat) (k : Int) : Nat × Nat := scale n 1 k

/-- Of the two points of the grid `10 ^ k` around the number, the nearest in the interval. -/
def nearestOn (i : Interval) (k : Int) : Option Nat :=
  let (a, b) := scale i.value i.unit (-k)
  let floor := a / b
  let inside (n : Nat) : Bool := let (p, q) := point n k; i.contains p q
  let remainder := a % b
  let belowFirst := 2 * remainder < b || (2 * remainder = b && floor % 2 = 0)
  let candidates := if belowFirst then [floor, floor + 1] else [floor + 1, floor]
  candidates.find? inside

/-- The shortest decimal `n * 10 ^ k` of the interval, with at most `fuel` more digits. -/
def search (i : Interval) (leading : Int) (fuel digits : Nat) : Nat × Int :=
  let k := leading + 1 - digits
  match i.nearestOn k, fuel with
  | some n, _ => (n, k)
  | none, 0 => ((scale i.value i.unit (-k)).1, k)
  | none, fuel + 1 => i.search leading fuel (digits + 1)

end Interval

/-- The shortest decimal `n * 10 ^ k` for a positive finite number. -/
def shortest (F : Binary.Format) (m : Nat) (e : Int) : Nat × Int :=
  let i := Interval.ofBinary F m e
  i.search (leadingExponent i.value i.unit) 17 1

/-- The decimal `n * 10 ^ k` in positional notation, without trailing zeros after the point. -/
def positional (n : Nat) (k : Int) : String :=
  if 0 ≤ k then toString (n * Nat.pow 10 k.toNat)
  else
    let places := (-k).toNat
    let whole := n / Nat.pow 10 places
    let digits := (padded places (n % Nat.pow 10 places)).toList.reverse.dropWhile (· == '0')
    if digits.isEmpty then toString whole
    else s!"{whole}.{String.ofList digits.reverse}"

/-- The text of a number: the fewest digits that read back, always in positional notation. -/
def text {F : Binary.Format} (x : Binary.Bits F) : String :=
  match Binary.classify x with
  | .nan => "NaN"
  | .infinite s => if s then "-inf" else "inf"
  | .finite s m e =>
    let digits :=
      if m = 0 then "0"
      else
        let (n, k) := shortest F m e
        positional n k
    if s then "-" ++ digits else digits

/-- The text of a number with `places + 1` significant digits, in scientific notation. -/
def scientificText {F : Binary.Format} (places : Nat) (x : Binary.Bits F) : String :=
  match Binary.classify x, Binary.fraction? x with
  | .finite s _ _, some (m, n) =>
    let digits := scientific m n places
    if s then "-" ++ digits else digits
  | .infinite s, _ => if s then "-inf" else "inf"
  | _, _ => "nan"

end DeviceTensor.Decimal
