import DeviceTensor.Routine.Recipe
set_option autoImplicit false

/-!
# Launching routines

A routine is found by the element type, the operation and the backend of the device it is to run
on, and run on an invocation.
-/

namespace DeviceTensor

namespace Probe

/-- The scalars, the output type and the extents of an invocation, in one line. -/
def echoText (inv : Invocation) : String :=
  let alpha := Decimal.text (F := .double) inv.alpha
  let beta := Decimal.text (F := .double) inv.beta
  s!"{alpha} {beta} {inv.outType.name} {inv.extents.text}"

/-- Numbers the bytes of the output. -/
def runRamp (inv : Invocation) : Work Unit := do
  let size ← Action.inspect fun s => (s.block inv.output).size
  let bytes := (Array.range size).map fun i => (BitVec.ofNat 8 i : Elem .char)
  Invocation.perform (Block.write (d := .char) inv.output bytes)

/-- Runs a probe. -/
def run (inv : Invocation) : Probe → Work Unit
  | .idle => pure ()
  | .ramp => runRamp inv
  | .unsupported => Action.fail (.refused (.unsupportedType customType))
  | .mismatch => Action.fail (.refused (.lengthMismatch inv.count inv.inputs.length))
  | .echo => Action.fail (.refused (.invalidDistribution (.other (echoText inv))))

end Probe

namespace Routine

/-- Runs a routine.  The catalog refuses an operation that its element type does not have. -/
def run (inv : Invocation) : Routine → Work Unit
  | .catalog d op =>
    match Recipe.ofOperation? d op with
    | some recipe => recipe.run inv
    | none => Action.fail (.refused (.unsupportedType d.name))
  | .singleProduct => Recipe.run (d := .float32) inv .wideProduct
  | .doubleProduct => Recipe.run (d := .float64) inv .wideProduct
  | .probe p => p.run inv

end Routine

/-- The key of an operation on a device. -/
def RoutineKey.onDevice (dtype : ElemType) (op : Operation) (d : DeviceId) (s : Store) :
    RoutineKey :=
  ⟨dtype, s.backend d, op⟩

/-- Finds and runs the routine for an operation; a refusal becomes a fault that names the key. -/
def launch (op : Operation) (dtype : ElemType) (inv : Invocation) : Action Fault Unit := fun s =>
  let key := RoutineKey.onDevice dtype op inv.device s
  match s.registry.lookup key with
  | .error e => (.error (.launch e), s)
  | .ok routine =>
    let name : RoutineFailure → Fault
      | .fault f => f
      | .refused e => .launch (.routineFailed key e)
    (routine.run inv).mapError name s

end DeviceTensor
