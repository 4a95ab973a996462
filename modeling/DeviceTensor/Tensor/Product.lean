import DeviceTensor.Tensor.Check
set_option autoImplicit false

/-!
# Products

The product of two vectors, of a matrix and a vector on either side, and of two matrices.
Transposed operands are read through their storage order.
-/

namespace DeviceTensor.Tensor

/-- The storage order of an operand of a product; a vector has none. -/
def transposedMatrix (t : Tensor) : Bool := t.rank = 2 && t.transposed

/-- The shape of a product before its inner dimensions are compared: shape, rows, columns and the
two inner dimensions. -/
def productDims (a b : Tensor) : Except Fault (Shape × Nat × Nat × Nat × Nat) :=
  match a.shape, b.shape with
  | [ka], [kb] => .ok ([1], 1, 1, ka, kb)
  | [m, ka], [kb] => .ok ([m], m, 1, ka, kb)
  | [ka], [kb, n] => .ok ([n], 1, n, ka, kb)
  | [m, ka], [kb, n] => .ok ([m, n], m, n, ka, kb)
  | left, right => .error (.productRank left right)

/-- The shape and the extents of a product. -/
def productExtents (a b : Tensor) : Except Fault (Shape × Extents) := do
  let (shape, rows, cols, ka, kb) ← productDims a b
  if ka ≠ kb then throw (.innerDimensionsDiffer a.shape b.shape)
  return (shape, ⟨rows, cols, ka, a.transposedMatrix, b.transposedMatrix⟩)

/-- The invocation of a product. -/
def planProduct (alpha : Double) (a b : Tensor) (beta : Double) (c : Tensor) (s : Store) :
    Except Fault Invocation := do
  checkSameKind a b s
  let (_, extents) ← productExtents a b
  let count ← Fault.ofTrap (Size.mul extents.rows extents.cols)
  checkOutput a c count s
  if c.transposed then throw .outputTransposed
  let dst ← c.requireBlock
  let left ← a.requireBlock
  let right ← b.requireBlock
  return { device := c.device, inputs := [left, right], output := dst, count := c.count s,
           alpha := alpha, beta := beta, extents := extents }

/-- Stores `alpha * (a · b) + beta * c` in `c`. -/
def productScaled (alpha : Double) (a b : Tensor) (beta : Double) (c : Tensor) :
    Action Fault Unit := do
  let inv ← Action.examine (planProduct alpha a b beta c)
  launch .gemm a.dtype inv

/-- Stores the product of two tensors. -/
def productTo (a b out : Tensor) : Action Fault Unit :=
  productScaled Double.one a b Double.zero out

/-- The product of two tensors. -/
def product (a b : Tensor) : Action Fault Tensor := do
  Action.examine (checkSameKind a b)
  let (shape, _) ← Action.ofExcept (productExtents a b)
  building (onDevice shape a.device a.dtype) (productTo a b ·)

end DeviceTensor.Tensor
