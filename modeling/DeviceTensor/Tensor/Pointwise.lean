import DeviceTensor.Tensor.Check
set_option autoImplicit false

/-!
# Operations element by element

Each operation has a form that writes an existing tensor and a form that makes its result.  The
output has the form of the input, and may share its block.
-/

namespace DeviceTensor.Tensor

/-! ## Into an existing tensor -/

/-- The invocation of an operation on one tensor and a scalar. -/
def planMap (t : Tensor) (x : Double) (out : Tensor) (s : Store) : Except Fault Invocation := do
  checkOutputLike t out s
  let dst ← out.requireBlock
  let src ← t.requireBlock
  return { device := out.device, inputs := [src], output := dst, count := t.count s, alpha := x }

/-- Applies an operation to every element, with a scalar if the operation takes one. -/
def mapTo (op : Operation) (t : Tensor) (x : Double) (out : Tensor) : Action Fault Unit := do
  let inv ← Action.examine (planMap t x out)
  launch op t.dtype inv

/-- The invocation of an operation on two tensors. -/
def planZip (lhs rhs out : Tensor) (s : Store) : Except Fault Invocation := do
  checkSameKind lhs rhs s
  checkSameForm lhs rhs
  checkOutputLike lhs out s
  let dst ← out.requireBlock
  let left ← lhs.requireBlock
  let right ← rhs.requireBlock
  return { device := out.device, inputs := [left, right], output := dst, count := lhs.count s }

/-- Applies an operation to every pair of elements. -/
def zipTo (op : Operation) (lhs rhs out : Tensor) : Action Fault Unit := do
  let inv ← Action.examine (planZip lhs rhs out)
  launch op lhs.dtype inv

/-- The invocation that adds a multiple of one tensor to another. -/
def planAddScaled (alpha : Double) (t out : Tensor) (s : Store) : Except Fault Invocation := do
  checkSameKind t out s
  checkSameForm t out
  let dst ← out.requireBlock
  let src ← t.requireBlock
  return { device := out.device, inputs := [src], output := dst, count := t.count s,
           alpha := alpha }

/-- Adds `alpha` times the elements of `t` to those of `out`. -/
def addScaled (alpha : Double) (t out : Tensor) : Action Fault Unit := do
  let inv ← Action.examine (planAddScaled alpha t out)
  launch .axpy t.dtype inv

/-! ## Into a new tensor -/

/-- The tensor of an operation on every element, with a scalar if the operation takes one. -/
def map (op : Operation) (t : Tensor) (x : Double) : Action Fault Tensor :=
  building t.blankLike (mapTo op t x ·)

/-- The tensor of an operation on every pair of elements. -/
def zip (op : Operation) (lhs rhs : Tensor) : Action Fault Tensor :=
  building lhs.blankLike (zipTo op lhs rhs ·)

/-! ## Compound assignment -/

/-- The right side of an operator: a tensor or a number. -/
inductive RightSide where
  | tensor (t : Tensor)
  | scalar (x : Double)
  deriving DecidableEq, Repr, Inhabited

/-- The four arithmetic operations that have operators. -/
inductive Operator where
  | add
  | sub
  | mul
  | div
  deriving DecidableEq, Repr, Inhabited

namespace Operator

/-- The operation on two tensors. -/
def onTensors : Operator → Operation
  | .add => .add
  | .sub => .sub
  | .mul => .mul
  | .div => .div

/-- The operation on a tensor and a scalar. -/
def onScalar : Operator → Operation
  | .add => .addScalar
  | .sub => .subScalar
  | .mul => .mulScalar
  | .div => .divScalar

end Operator

/-- Combines a tensor with a right side in place. -/
def assign (f : Operator) (t : Tensor) : RightSide → Action Fault Unit
  | .tensor other => zipTo f.onTensors t other t
  | .scalar x => mapTo f.onScalar t x t

/-- The tensor that combines a tensor with a right side. -/
def operate (f : Operator) (t : Tensor) : RightSide → Action Fault Tensor
  | .tensor other => zip f.onTensors t other
  | .scalar x => map f.onScalar t x

end DeviceTensor.Tensor
