import DeviceTensor.Decimal.Shortest
import DeviceTensor.Device.Basic
import DeviceTensor.Routine.Operation
import DeviceTensor.Element.Double
import DeviceTensor.Tensor.Shape
set_option autoImplicit false

/-!
# Faults

A call that breaks the contract of a tensor operation, or meets a device or a routine that fails,
ends with a `Fault`.  Every cause has its constructor; `Fault.message` is the wording of them all.
-/

namespace DeviceTensor

/-- Why a call on tensors or blocks ended without a result. -/
inductive Fault where
  | trap (t : Trap)
  | launch (e : LaunchError)
  -- element types and shapes
  /-- No element type has this code. -/
  | unknownCode (code : Nat)
  /-- A range of dimensions ends behind the last one. -/
  | rangeBeyondRank (stop rank : Nat)
  /-- A tensor is given more or fewer elements than its shape has room for. -/
  | wrongCount (shape : Shape) (expected given : Nat)
  | dimensionOutOfRange (index rank : Nat)
  -- operands
  /-- The tensor has no block. -/
  | noStorage
  | elementTypeMismatch (given expected : ElemType)
  | elementTypesDiffer (left right : ElemType)
  | backendsDiffer (left right : Backend)
  | shapesDiffer (left right : Shape)
  | transposeFlagsDiffer (left right : Bool)
  | outputCount (given expected : Nat)
  | outputTransposeFlag (output input : Bool)
  | outputTransposed
  | notAMatrix (shape : Shape)
  | doesNotBroadcast (count : Nat) (shape : Shape)
  | innerDimensionsDiffer (left right : Shape)
  | productRank (left right : Shape)
  -- axes
  | axisOutOfRange (axis rank : Nat)
  | axisRank (rank : Nat)
  | softmaxAxis (axis rank : Nat)
  -- shapes of existing tensors
  | reshapeTransposed (old new : Shape)
  | reshapeCount (old new : Shape)
  | transposeRank (rank : Nat)
  -- results
  | sumNotRepresentable (sum : Double) (dtype : ElemType)
  -- blocks and devices
  | allocationFailed (size : Nat) (backend : Backend) (device : String) (cause : DeviceFailure)
  | notAddressable (backend : Backend) (device : String)
  | viewTooLong (count size : Nat)
  | hostDataTooLong (count offset size : Nat)
  | copyOverrunsDestination (count offset size : Nat)
  | copyOverrunsSource (count offset size : Nat)
  | copyFailed (count : Nat) (direction : Direction) (cause : DeviceFailure)
  deriving DecidableEq, Repr, Inhabited

namespace Fault

/-- The wording of a fault. -/
def message : Fault → String
  | .trap t => t.message
  | .launch e => e.message
  | .unknownCode code =>
      s!"data type index {code} out of range (expected < {ElemType.all.length})"
  | .rangeBeyondRank stop rank => s!"product range end {stop} exceeds rank {rank}"
  | .wrongCount shape expected given =>
      s!"shape {shape.text} holds {expected} elements, got {given}"
  | .dimensionOutOfRange index rank =>
      s!"dimension index {index} out of range for rank {rank}"
  | .noStorage => "tensor has no storage block"
  | .elementTypeMismatch given expected =>
      s!"element type {given.name} does not match tensor data type {expected.name}"
  | .elementTypesDiffer left right => s!"data types differ: {left.name} vs {right.name}"
  | .backendsDiffer left right => s!"device langs differ: {left.name} vs {right.name}"
  | .shapesDiffer left right => s!"shapes differ: {left.text} vs {right.text}"
  | .transposeFlagsDiffer left right => s!"transpose flags differ: {left} vs {right}"
  | .outputCount given expected => s!"output holds {given} elements, expected {expected}"
  | .outputTransposeFlag output input =>
      s!"output transpose flag {output} does not match input flag {input}"
  | .outputTransposed => "output of mult must not be transposed"
  | .notAMatrix shape => s!"matrix operation requires rank 1 or 2, got shape {shape.text}"
  | .doesNotBroadcast count shape =>
      s!"vector of {count} elements does not broadcast over matrix of shape {shape.text}"
  | .innerDimensionsDiffer left right =>
      s!"inner dimensions differ: {left.text} x {right.text}"
  | .productRank left right =>
      s!"mult requires operands of rank 1 or 2, got {left.text} and {right.text}"
  | .axisOutOfRange axis rank => s!"axis {axis} out of range for a {rank}-D tensor"
  | .axisRank rank => s!"axis reductions support rank 1 or 2, got rank {rank}"
  | .softmaxAxis axis rank => s!"softmax axis {axis} out of range for rank {rank}"
  | .reshapeTransposed old new =>
      s!"cannot reshape transposed tensor of shape {old.text} to {new.text}"
  | .reshapeCount old new =>
      s!"reshape from {old.text} to {new.text} changes the element count"
  | .transposeRank rank => s!"t() requires a 2-D tensor, got rank {rank}"
  | .sumNotRepresentable sum dtype =>
      let total := Decimal.text (F := .double) sum
      s!"sum {total} is not representable as {dtype.name}"
  | .allocationFailed size backend device cause =>
      s!"failed to allocate {size} bytes on {backend.name} device <{device}>: {cause.message}"
  | .notAddressable backend device =>
      s!"blob on {backend.name} device <{device}> is not host addressable"
  | .viewTooLong count size => s!"view of {count} elements exceeds blob of {size} bytes"
  | .hostDataTooLong count offset size =>
      s!"{count} elements at offset {offset} exceed tensor of {size} elements"
  | .copyOverrunsDestination count offset size =>
      s!"copy of {count} bytes at offset {offset} overflows destination of {size} bytes"
  | .copyOverrunsSource count offset size =>
      s!"copy of {count} bytes at offset {offset} overflows source of {size} bytes"
  | .copyFailed count direction cause =>
      s!"copy of {count} bytes {direction.tag} failed: {cause.message}"

end Fault

end DeviceTensor
