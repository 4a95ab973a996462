import DeviceTensor.Element.Double
import DeviceTensor.Kernel.Sweep
import DeviceTensor.Grid.Extents
import DeviceTensor.Store.View
set_option autoImplicit false

/-!
# Invocations

An invocation hands a routine its blocks, the count of elements, the scalars and the extents.
Inputs are read as they are when the routine asks for them, before anything is written, so an
input may be the same block as the output.
-/

namespace DeviceTensor

/-- What a routine is given. -/
structure Invocation where
  device : DeviceId
  inputs : List BlockId := []
  output : BlockId
  /-- Elements of the main operand. -/
  count : Nat
  alpha : Double := Double.zero
  beta : Double := Double.zero
  extents : Extents := {}
  /-- Type of the output, where the operation has one of its own. -/
  outType : ElemType := .float32
  deriving DecidableEq, Repr, Inhabited

/-- Why a routine did not run to its end. -/
inductive RoutineFailure where
  | fault (f : Fault)
  | refused (e : Refusal)
  deriving DecidableEq, Repr, Inhabited

namespace RoutineFailure

/-- A halted kernel fails its routine. -/
def ofHalt : Halt → RoutineFailure
  | .trap t => .fault (.trap t)
  | .refused e => .refused e

end RoutineFailure

/-- The work of a routine. -/
abbrev Work (α : Type) : Type := Action RoutineFailure α

namespace Invocation

variable (inv : Invocation)

/-- An action on blocks as part of a routine. -/
def perform {α : Type} (x : Action Fault α) : Work α := x.mapError .fault

/-- A computation on sizes as part of a routine. -/
def size (x : Except Trap Nat) : Work Nat :=
  Action.ofExcept <| match x with
    | .ok n => .ok n
    | .error t => .error (.fault (.trap t))

/-- The first `count` elements of input `index`. -/
def input (d : ElemType) (index count : Nat) : Work (Array (Elem d)) :=
  match inv.inputs[index]? with
  | none => Action.fail (.fault (.trap (.outOfBounds inv.inputs.length index)))
  | some b => perform (Block.view b d count)

/-- A scalar cast to an element type. -/
def scalar (d : ElemType) (x : Double) : Work (Elem d) :=
  match Elem.cast .float64 d x with
  | some y => pure y
  | none => Action.fail (.refused (.castOutOfRange 0))

/-- The first `count` elements of the output before the routine writes it. -/
def output? (d : ElemType) (count : Nat) : Work (Array (Elem d)) :=
  perform (Block.view inv.output d count)

/-- Writes what a kernel leaves in the output, and ends as the kernel ended. -/
def settle {d : ElemType} (o : Outcome (Elem d)) : Work Unit := do
  Action.change (Block.modifyBytes inv.output (Elem.overlay o.1))
  Action.ofExcept (o.2.mapError RoutineFailure.ofHalt)

/-- Runs a kernel on the first `count` elements of the output. -/
def run (d : ElemType) (count : Nat) (kernel : Array (Elem d) → Outcome (Elem d)) : Work Unit := do
  let dst ← inv.output? d count
  inv.settle (kernel dst)

end Invocation

end DeviceTensor
