import DeviceTensor.Tensor.Broadcast
import DeviceTensor.Tensor.Pointwise
set_option autoImplicit false

/-!
# Reductions along an axis

A vector or a matrix is summed or averaged along one of its axes.  Softmax reads a tensor of any
rank as a matrix whose rows span the dimensions before an axis.
-/

namespace DeviceTensor.Tensor

/-! ## Sums and means -/

/-- What a sum along an axis collapses. -/
structure Collapse where
  /-- The number of sums. -/
  length : Nat
  /-- The number of elements in each sum. -/
  collapsed : Nat
  which : Summation
  /-- The matrix that is summed. -/
  grid : Grid
  deriving DecidableEq, Repr, Inhabited

/-- What a sum along `axis` collapses.  A vector is a single column. -/
def collapse (t : Tensor) (axis : Nat) : Except Fault Collapse :=
  match t.shape with
  | [n] =>
    if axis = 0 then .ok ⟨1, n, .rows, ⟨n, 1, false⟩⟩ else .error (.axisOutOfRange axis 1)
  | [rows, cols] =>
    match axis with
    | 0 => .ok ⟨cols, rows, .rows, ⟨rows, cols, t.transposed⟩⟩
    | 1 => .ok ⟨rows, cols, .columns, ⟨rows, cols, t.transposed⟩⟩
    | _ => .error (.axisOutOfRange axis 2)
  | shape => .error (.axisRank shape.length)

/-- Sums along an axis into `out`. -/
def sumAxisTo (t : Tensor) (axis : Nat) (out : Tensor) : Action Fault Unit := do
  let c ← Action.ofExcept (t.collapse axis)
  let inv ← Action.examine (planSums t out c.length c.grid)
  launch c.which.op t.dtype inv

/-- The vector of the sums along an axis. -/
def sumAxis (t : Tensor) (axis : Nat) : Action Fault Tensor := do
  let c ← Action.ofExcept (t.collapse axis)
  building (onDevice [c.length] t.device t.dtype) (t.sumAxisTo axis ·)

/-- The vector of the means along an axis; integers are divided as integers. -/
def average (t : Tensor) (axis : Nat) : Action Fault Tensor := do
  let c ← Action.ofExcept (t.collapse axis)
  building (t.sumAxis axis) fun out => assign .div out (.scalar (Double.ofInt c.collapsed))

/-! ## Softmax -/

/-- The invocation of softmax over the dimensions from `axis` on. -/
def planSoftmax (t : Tensor) (axis : Nat) (out : Tensor) (s : Store) : Except Fault Invocation := do
  if t.rank ≤ axis then throw (.softmaxAxis axis t.rank)
  checkOutputLike t out s
  let rows ← Fault.ofTrap (Size.product (t.shape.take axis))
  let cols ← Fault.ofTrap (Size.product (t.shape.drop axis))
  let dst ← out.requireBlock
  let src ← t.requireBlock
  return { device := out.device, inputs := [src], output := dst, count := t.count s,
           extents := .ofGrid ⟨rows, cols, t.transposed⟩ }

/-- Normalises the dimensions from `axis` on into `out`. -/
def softmaxTo (t : Tensor) (axis : Nat) (out : Tensor) : Action Fault Unit := do
  let inv ← Action.examine (planSoftmax t axis out)
  launch .softMax t.dtype inv

/-- The tensor normalised over the dimensions from `axis` on. -/
def softmax (t : Tensor) (axis : Nat) : Action Fault Tensor :=
  building t.blankLike (t.softmaxTo axis ·)

end DeviceTensor.Tensor
