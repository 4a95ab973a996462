import DeviceTensor.Routine.Launch
import DeviceTensor.Store.Copy
import DeviceTensor.Tensor.Extent
set_option autoImplicit false

/-!
# Tensors

A tensor is a description of elements together with a handle to the block that holds them.  Making
a tensor asks for no memory; several tensors may share one block, and see each other's writes.

A tensor that is passed to an operation lends its handle.  An operation that makes a tensor hands
its handle out, and gives it back itself if it fails after making it.
-/

namespace DeviceTensor

/-- Shape, element type, storage order, device and block of a tensor. -/
structure Tensor where
  shape : Shape
  dtype : ElemType
  /-- Whether a matrix is stored column by column. -/
  transposed : Bool
  device : DeviceId
  block : Option BlockId
  deriving DecidableEq, Repr, Inhabited

namespace Tensor

/-! ## Size -/

/-- The number of dimensions. -/
def rank (t : Tensor) : Nat := t.shape.length

/-- Bytes of the block. -/
def byteSize (t : Tensor) (s : Store) : Nat :=
  match t.block with
  | some b => (s.block b).size
  | none => 0

/-- The number of elements the block has room for. -/
def count (t : Tensor) (s : Store) : Nat := t.byteSize s / t.dtype.width

/-- Whether memory is bound to the block. -/
def isBound (t : Tensor) (s : Store) : Bool :=
  match t.block with
  | some b => (s.block b).memory.isBound
  | none => false

/-- The block of a tensor that must have one. -/
def requireBlock (t : Tensor) : Except Fault BlockId :=
  match t.block with
  | some b => .ok b
  | none => .error .noStorage

/-- The size of dimension `i`. -/
def dimension (t : Tensor) (i : Nat) : Except Fault Nat :=
  match t.shape[i]? with
  | some n => .ok n
  | none => .error (.dimensionOutOfRange i t.rank)

/-! ## Handles -/

/-- The store with one more holder of the tensor's block. -/
def retain (t : Tensor) (s : Store) : Store :=
  match t.block with
  | some b => s.retain b
  | none => s

/-- The store with one holder less of the tensor's block. -/
def release (t : Tensor) (s : Store) : Store :=
  match t.block with
  | some b => s.release b
  | none => s

/-- A second tensor on the same block. -/
def share (t : Tensor) : Action Fault Tensor := do
  Action.change t.retain
  return t

/-- Makes a tensor and works on it; if the work fails, the tensor is let go of. -/
def building (make : Action Fault Tensor) (work : Tensor → Action Fault Unit) :
    Action Fault Tensor := do
  let t ← make
  Action.onFailure t.release (work t)
  return t

/-! ## Making tensors -/

/-- The tensor without dimensions and without a block. -/
def empty : Tensor := ⟨[], .float32, false, Store.hostMemory, none⟩

/-- A tensor on a device. -/
def onDevice (shape : Shape) (d : DeviceId) (dtype : ElemType) : Action Fault Tensor := do
  let size ← Action.ofExcept (shape.byteSize dtype)
  let b ← Action.changing (Store.acquire · d size)
  return ⟨shape, dtype, false, d, some b⟩

/-- A tensor with the form of `t` and a block of its own. -/
def blankLike (t : Tensor) : Action Fault Tensor := do
  let out ← onDevice t.shape t.device t.dtype
  return { out with transposed := t.transposed }

/-! ## Description -/

/-- The description of a tensor. -/
def text (t : Tensor) (s : Store) : String :=
  let device := s.device t.device
  s!"Tensor \x7b shape: {t.shape.text}, data_type: {t.dtype.tag}, transpose: {t.transposed}, " ++
    s!"lang: {device.backend.tag}, device: <{device.name}>, mem_size: {t.byteSize s} \x7d"

end Tensor

namespace Block

/-- The description of a block. -/
def text (b : BlockId) (s : Store) : String :=
  let block := s.block b
  let owner := s.device block.device
  s!"Blob \x7b device: <{owner.name}>, lang: {owner.backend.tag}, size: {block.size}, " ++
    s!"allocated: {block.memory.isBound} \x7d"

end Block

end DeviceTensor
