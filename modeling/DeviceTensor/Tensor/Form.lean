import DeviceTensor.Tensor.Check
set_option autoImplicit false

/-!
# Changing the form of a tensor

Reshaping keeps the block; resizing and taking the form of another tensor replace it unless it
fits.  A transposed view exchanges the two dimensions of a matrix without moving an element.

An operation that changes a tensor returns the changed tensor, and the handle of a replaced block
is given back.  If it fails, the tensor is as it was.
-/

namespace DeviceTensor.Tensor

/-- The tensor with another block in place of its own. -/
def replaceBlock (t : Tensor) (b : BlockId) : Action Fault Tensor := do
  Action.change t.release
  return { t with block := some b }

/-- Whether the block has exactly the given size. -/
def hasByteSize (t : Tensor) (size : Nat) (s : Store) : Bool :=
  match t.block with
  | some b => (s.block b).size = size
  | none => false

/-- Gives the tensor a new shape; its block is replaced if its size changes, and the storage order
is row by row again. -/
def resize (t : Tensor) (shape : Shape) : Action Fault Tensor := do
  let size ← Action.ofExcept (shape.byteSize t.dtype)
  let fits ← Action.inspect (t.hasByteSize size)
  if fits then
    return { t with shape := shape, transposed := false }
  else
    let b ← Action.changing (Store.acquire · t.device size)
    let t ← t.replaceBlock b
    return { t with shape := shape, transposed := false }

/-- Requires a tensor that has a block to take a new shape without moving an element. -/
def checkReshape (t : Tensor) (shape : Shape) : Except Fault Unit :=
  if t.transposed then
    if shape = t.shape then .ok () else .error (.reshapeTransposed t.shape shape)
  else do
    let new ← shape.count
    let old ← t.shape.count
    if new ≠ old then throw (.reshapeCount t.shape shape)

/-- Gives the tensor a new shape on its block; a tensor without one is resized. -/
def reshape (t : Tensor) (shape : Shape) : Action Fault Tensor :=
  match t.block with
  | none => t.resize shape
  | some _ => do
    Action.ofExcept (t.checkReshape shape)
    return { t with shape := shape }

/-- A tensor of a new shape on the block of `t`. -/
def reshaped (t : Tensor) (shape : Shape) : Action Fault Tensor := do
  let out ← t.share
  Action.onFailure out.release (out.reshape shape)

/-- The matrix on the same block with rows and columns exchanged. -/
def transpose (t : Tensor) : Action Fault Tensor :=
  match t.shape with
  | [rows, cols] => do
    let out ← t.share
    return { out with shape := [cols, rows], transposed := !t.transposed }
  | _ => Action.fail (.transposeRank t.rank)

/-- Whether `t` can keep its block when it takes the form of `other`. -/
def keepsBlock (t other : Tensor) (s : Store) : Bool :=
  match t.block, other.block with
  | some own, some theirs =>
    (s.block own).size = (s.block theirs).size && t.device = other.device
  | _, _ => false

/-- Gives the tensor the form, element type and device of `other`; its block is kept if size and
device agree, and replaced by a new one otherwise.  No element is copied. -/
def takeForm (t other : Tensor) : Action Fault Tensor := do
  let keep ← Action.inspect (t.keepsBlock other)
  if keep then
    return { other with block := t.block }
  else
    match other.block with
    | none =>
      Action.change t.release
      return other
    | some theirs =>
      let size ← Action.inspect fun s => (s.block theirs).size
      let b ← Action.changing (Store.acquire · other.device size)
      Action.change t.release
      return { other with block := some b }

end DeviceTensor.Tensor
