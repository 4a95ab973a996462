import DeviceTensor.Proofs.Action
import DeviceTensor.Routine.Invocation
set_option autoImplicit false

/-!
# When faults occur

A fault belongs to one stage of a call.  Operands are rejected and routines are missed before
anything is done: `Fault.Rejects`.  Late faults occur when memory is bound, when scalars and
parameters are converted, or when a finished sum is: `Fault.Late`.  What is left are traps, refusals
that depend on elements, and copies that a device does not make.

A device may refuse memory at any time, whatever else a call sees; `Refused` says that the call ended
like this.
-/

namespace DeviceTensor

/-! ## Rejected calls -/

/-- The operands are rejected, or there is no routine for them. -/
def Fault.Rejects : Fault → Prop
  | .launch (.missingRoutine _) => True
  | .launch (.routineFailed _ _) => False
  | .trap _ => False
  | .sumNotRepresentable _ _ => False
  | .allocationFailed _ _ _ _ => False
  | .notAddressable _ _ => False
  | .viewTooLong _ _ => False
  | .copyFailed _ _ _ => False
  | _ => True

/-- The operands are rejected, or a size that they give is none.  Without a routine at work, a trap
is a matter of sizes. -/
def Fault.Denies : Fault → Prop
  | .trap _ => True
  | f => f.Rejects

theorem Fault.Rejects.denies {f : Fault} (h : f.Rejects) : f.Denies := by
  cases f <;> first | exact h | trivial

/-! ## Late failures -/

/-- The operations that draw samples. -/
def Operation.sampling : List Operation := [.bernoulli, .gaussian, .uniform]

/-- The refusal is about the scalars of an operation, or about the parameters of its distribution.
A cast and a random fill have no other scalars, and refuse elements alone. -/
def Refusal.OfParameters (op : Operation) : Refusal → Prop
  | .castOutOfRange _ => op ∉ Operation.cast :: Operation.sampling
  | .invalidDistribution _ => True
  | .lengthMismatch _ _ => False
  | .matrixTooSmall _ _ _ => False
  | .unsupportedType _ => False

/-- Memory is refused, or cannot be viewed, or a number is not representable, or a distribution is
not valid. -/
def Fault.Late : Fault → Prop
  | .allocationFailed _ _ _ _ => True
  | .notAddressable _ _ => True
  | .viewTooLong _ _ => True
  | .sumNotRepresentable _ _ => True
  | .launch (.routineFailed key e) => e.OfParameters key.op
  | _ => False

namespace RoutineFailure

/-- The failure of a routine for an operation is late. -/
def Late (op : Operation) : RoutineFailure → Prop
  | .fault f => f.Late
  | .refused e => e.OfParameters op

/-- The failure of a routine names a rejection. -/
def Rejects : RoutineFailure → Prop
  | .fault f => f.Rejects
  | .refused _ => False

end RoutineFailure

/-! ## Refused memory -/

/-- A device refused memory. -/
def Fault.refusesMemory : Fault → Bool
  | .allocationFailed _ _ _ _ => true
  | _ => false

/-- A device refused the memory of an operand. -/
def RoutineFailure.refusesMemory : RoutineFailure → Bool
  | .fault f => f.refusesMemory
  | .refused _ => false

instance : MemoryFailure Fault := ⟨Fault.refusesMemory⟩

instance : MemoryFailure RoutineFailure := ⟨RoutineFailure.refusesMemory⟩

theorem RoutineFailure.exists_fault_of_refuses {e : RoutineFailure}
    (h : MemoryFailure.refuses e = true) : ∃ f, e = .fault f := by
  cases e with
  | fault f => exact ⟨f, rfl⟩
  | refused r => cases h

/-- To refuse memory is not to reject a call. -/
theorem Fault.accepts_of_refuses {f : Fault} (h : MemoryFailure.refuses f = true) :
    ¬f.Rejects := by
  cases f <;> first | exact False.elim | cases h

theorem Fault.not_denies_of_refuses {f : Fault} (h : MemoryFailure.refuses f = true) :
    ¬f.Denies := by
  cases f <;> first | exact False.elim | cases h

theorem RoutineFailure.accepts_of_refuses {e : RoutineFailure}
    (h : MemoryFailure.refuses e = true) : ¬e.Rejects := by
  cases e with
  | fault f => exact Fault.accepts_of_refuses h
  | refused r => exact False.elim

end DeviceTensor
