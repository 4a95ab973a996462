import DeviceTensor.Machine.Trap
set_option autoImplicit false

/-!
# Failures of kernels

A kernel works on whole buffers.  It refuses buffers and parameters that do not suit it with a
`Refusal`, and it halts when the arithmetic of an element traps.
-/

namespace DeviceTensor

/-- Why parameters describe no distribution. -/
inductive DistributionError where
  /-- A probability is not between zero and one. -/
  | probabilityOutside
  /-- The lower bound is not below the upper bound. -/
  | emptyRange
  /-- A bound, or the distance of the bounds, is not finite. -/
  | unboundedRange
  /-- The deviation is not finite. -/
  | unboundedDeviation
  /-- Any other reason. -/
  | other (reason : String)
  deriving DecidableEq, Repr, Inhabited

namespace DistributionError

/-- The wording of a distribution error. -/
def message : DistributionError → String
  | .probabilityOutside => "p is outside [0, 1] in Bernoulli distribution"
  | .emptyRange => "low > high (or equal if exclusive) in uniform distribution"
  | .unboundedRange => "Non-finite range in uniform distribution"
  | .unboundedDeviation => "variation parameter is non-finite in (log)normal distribution"
  | .other reason => reason

end DistributionError

/-- Why a kernel refused its buffers or parameters. -/
inductive Refusal where
  /-- Two buffers that must have equal length have not. -/
  | lengthMismatch (left right : Nat)
  /-- A buffer is too short for a matrix. -/
  | matrixTooSmall (size rows cols : Nat)
  /-- The element at `index` has no counterpart in the destination type. -/
  | castOutOfRange (index : Nat)
  | invalidDistribution (reason : DistributionError)
  /-- The kernel has no form for this element type. -/
  | unsupportedType (name : String)
  deriving DecidableEq, Repr, Inhabited

namespace Refusal

/-- The wording of a kernel error. -/
def message : Refusal → String
  | .lengthMismatch left right =>
      s!"Length mismatch: expected equal length buffers, got {left} and {right}"
  | .matrixTooSmall size rows cols =>
      s!"Buffer of {size} elements cannot hold a {rows}x{cols} matrix"
  | .castOutOfRange index =>
      s!"Cast failed: element {index} is out of range for the destination type"
  | .invalidDistribution reason => s!"Invalid distribution parameters: {reason.message}"
  | .unsupportedType name => s!"Unsupported element type: {name}"

end Refusal

/-- Why a kernel did not run to its end. -/
inductive Halt where
  | trap (t : Trap)
  | refused (e : Refusal)
  deriving DecidableEq, Repr, Inhabited

namespace Halt

/-- A trap halts the kernel. -/
def ofTrap {α : Type} : Except Trap α → Except Halt α
  | .ok x => .ok x
  | .error t => .error (.trap t)

instance : MonadLift (Except Trap) (Except Halt) := ⟨ofTrap⟩

end Halt

end DeviceTensor
