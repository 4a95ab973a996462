import DeviceTensor.Tensor.Check
set_option autoImplicit false

/-!
# Moving elements

Elements move between the host and a tensor, between tensors, and between devices.  Blocks that
the host cannot reach are read and written by way of a temporary block on the host device.
-/

namespace DeviceTensor.Tensor

variable {d : ElemType}

/-! ## To and from the host -/

/-- Requires elements to fit into the tensor at an offset. -/
def checkUpload (t : Tensor) (d : ElemType) (count offset : Nat) (s : Store) :
    Except Fault Unit := do
  t.checkElementType d
  let stop ← Fault.ofTrap (Size.add offset count)
  if t.count s < stop then throw (.hostDataTooLong count offset (t.count s))

/-- Writes elements into a block at an offset through a view up to the last of them. -/
def writeAt (b : BlockId) (xs : Array (Elem d)) (offset : Nat) : Action Fault Unit := do
  let old ← Block.view b d (offset + xs.size)
  Action.change (Block.modifyBytes b (Elem.overlay (old.extract 0 offset ++ xs)))

/-- Writes elements into a block at an offset by way of the host device. -/
def stageAt (b : BlockId) (xs : Array (Elem d)) (offset : Nat) : Action Fault Unit :=
  Block.temporary Store.hostMemory (xs.size * d.width) fun staging => do
    Block.write staging xs
    let start ← Action.ofExcept (Fault.ofTrap (Size.mul offset d.width))
    Block.copy ⟨b, start⟩ ⟨staging, 0⟩ (xs.size * d.width)

/-- Copies elements from the host into the tensor, from element `offset` on. -/
def upload (t : Tensor) (xs : Array (Elem d)) (offset : Nat) : Action Fault Unit := do
  Action.examine (t.checkUpload d xs.size offset)
  match t.block with
  | none => return ()
  | some b =>
    let direct ← Action.inspect fun s => (s.device t.device).addressable
    if direct then writeAt b xs offset else stageAt b xs offset

/-- Reads elements of a block by way of the host device. -/
def readStaged (b : BlockId) (d : ElemType) (count size : Nat) : Action Fault (Array (Elem d)) :=
  Block.temporary Store.hostMemory size fun staging => do
    Block.copy ⟨staging, 0⟩ ⟨b, 0⟩ size
    Block.view staging d count

/-- All elements of the tensor in storage order. -/
def read (t : Tensor) (d : ElemType) : Action Fault (Array (Elem d)) := do
  Action.ofExcept (t.checkElementType d)
  match t.block with
  | none => return #[]
  | some b =>
    let count ← Action.inspect t.count
    let size ← Action.inspect t.byteSize
    let direct ← Action.inspect fun s => (s.device t.device).addressable
    if direct then Block.view b d count else readStaged b d count size

/-- A tensor on the host with the given elements. -/
def ofElements (shape : Shape) (xs : Array (Elem d)) : Action Fault Tensor := do
  let count ← Action.ofExcept shape.count
  if count ≠ xs.size then Action.fail (.wrongCount shape count xs.size)
  building (onDevice shape Store.hostMemory d) (·.upload xs 0)

/-! ## Between tensors -/

/-- Copies the bytes of `other`, as many as both blocks have; the form of the tensor stays. -/
def copyFrom (t other : Tensor) : Action Fault Unit :=
  match t.block, other.block with
  | some dst, some src => do
    let size ← Action.inspect fun s => min (s.block dst).size (s.block src).size
    Block.copy ⟨dst, 0⟩ ⟨src, 0⟩ size
  | _, _ => return ()

/-- The ranges of a copy of elements, in bytes. -/
def planCopyRange (t other : Tensor) (count dstOffset srcOffset : Nat) :
    Except Fault (Block.Range × Block.Range × Nat) := do
  if t.dtype ≠ other.dtype then throw (.elementTypesDiffer t.dtype other.dtype)
  let width := other.dtype.width
  let dst ← t.requireBlock
  let dstStart ← Fault.ofTrap (Size.mul dstOffset width)
  let src ← other.requireBlock
  let srcStart ← Fault.ofTrap (Size.mul srcOffset width)
  let size ← Fault.ofTrap (Size.mul count width)
  return (⟨dst, dstStart⟩, ⟨src, srcStart⟩, size)

/-- Copies `count` elements of `other` from one offset to another of the tensor. -/
def copyRange (t other : Tensor) (count dstOffset srcOffset : Nat) : Action Fault Unit := do
  let (dst, src, size) ← Action.ofExcept (planCopyRange t other count dstOffset srcOffset)
  Block.copy dst src size

/-- A tensor with the same form and bytes and a block of its own. -/
def duplicate (t : Tensor) : Action Fault Tensor := do
  let out ← t.blankLike
  match t.block with
  | none =>
    Action.change out.release
    return { out with shape := [], block := none }
  | some _ =>
    let bound ← Action.inspect t.isBound
    Action.onFailure out.release (if bound then out.copyFrom t else return ())
    return out

/-! ## Between devices -/

/-- Moves the block of a tensor to another device. -/
def moveBlock (t : Tensor) (b : BlockId) (d : DeviceId) : Action Fault Tensor := do
  let size ← Action.inspect fun s => (s.block b).size
  let bound ← Action.inspect t.isBound
  let moved ← Action.changing (Store.acquire · d size)
  Action.onFailure (·.release moved)
    (if bound then Block.copy ⟨moved, 0⟩ ⟨b, 0⟩ size else return ())
  Action.change t.release
  return { t with device := d, block := some moved }

/-- Moves the tensor to a device.  Bytes are copied if memory is bound; other holders keep the old
block. -/
def moveTo (t : Tensor) (d : DeviceId) : Action Fault Tensor :=
  if t.device = d then return t
  else
    match t.block with
    | none => return { t with device := d }
    | some b => t.moveBlock b d

end DeviceTensor.Tensor
