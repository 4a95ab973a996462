import DeviceTensor.Tensor.Basic
set_option autoImplicit false

/-!
# Checks of operands

Every operation checks its operands before it launches a routine.  The checks look at the store
and change nothing.
-/

namespace DeviceTensor.Tensor

/-- Requires two tensors to agree in element type and backend. -/
def checkSameKind (a b : Tensor) (s : Store) : Except Fault Unit := do
  if a.dtype ≠ b.dtype then throw (.elementTypesDiffer a.dtype b.dtype)
  if s.backend a.device ≠ s.backend b.device then
    throw (.backendsDiffer (s.backend a.device) (s.backend b.device))

/-- Requires two tensors to agree in shape and storage order. -/
def checkSameForm (a b : Tensor) : Except Fault Unit := do
  if a.shape ≠ b.shape then throw (.shapesDiffer a.shape b.shape)
  if a.transposed ≠ b.transposed then throw (.transposeFlagsDiffer a.transposed b.transposed)

/-- Requires `out` to hold `count` elements of the kind of `t`. -/
def checkOutput (t out : Tensor) (count : Nat) (s : Store) : Except Fault Unit := do
  checkSameKind t out s
  if out.count s ≠ count then throw (.outputCount (out.count s) count)

/-- Requires `out` to hold as many elements as `t`, in the same storage order. -/
def checkOutputLike (t out : Tensor) (s : Store) : Except Fault Unit := do
  checkOutput t out (t.count s) s
  if t.transposed ≠ out.transposed then throw (.outputTransposeFlag out.transposed t.transposed)

/-- Requires the elements of a transfer to have the tensor's type. -/
def checkElementType (t : Tensor) (d : ElemType) : Except Fault Unit :=
  if d = t.dtype then .ok () else .error (.elementTypeMismatch d t.dtype)

/-- Rows and columns of a tensor read as a matrix; a vector is a single row. -/
def asMatrix (t : Tensor) : Except Fault (Nat × Nat) :=
  match t.shape with
  | [n] => .ok (1, n)
  | [rows, cols] => .ok (rows, cols)
  | shape => .error (.notAMatrix shape)

end DeviceTensor.Tensor
