import DeviceTensor.Store.Action
set_option autoImplicit false

/-!
# Views of blocks

A block is read and written as elements from its start.  A view needs a device whose memory the
host can reach, and a block that is long enough; taking it binds the memory of the block.
-/

namespace DeviceTensor.Block

variable {d : ElemType}

/-- Binds the memory of a block, zeroed, unless it is bound already.  The device is asked anew each
time that it has refused. -/
def bindMemory (b : BlockId) : Action Fault Unit := fun s =>
  let block := s.block b
  let owner := s.device block.device
  match block.memory with
  | .bound _ => (.ok (), s)
  | .released => (.ok (), s)
  | .unbound =>
    match owner.allocate block.size with
    | .error e =>
      (.error (.allocationFailed block.size owner.backend owner.name e),
        s.modifyDevice block.device (·.after (.allocate block.size)))
    | .ok owner =>
      let s := s.modifyDevice block.device fun _ => owner
      (.ok (), s.modifyBlock b fun b =>
        { b with memory := .bound (Array.replicate block.size 0) })

/-- Requires a view of `count` elements to be possible. -/
def checkView (b : BlockId) (d : ElemType) (count : Nat) (s : Store) : Except Fault Unit :=
  let block := s.block b
  let owner := s.device block.device
  if !owner.addressable then .error (.notAddressable owner.backend owner.name)
  else
    match Size.mul count d.width with
    | .error t => .error (.trap t)
    | .ok bytes => if bytes ≤ block.size then .ok () else .error (.viewTooLong count block.size)

/-- The first `count` elements of a block. -/
def view (b : BlockId) (d : ElemType) (count : Nat) : Action Fault (Array (Elem d)) := do
  Action.examine (checkView b d count)
  bindMemory b
  Action.inspect fun s => Elem.decode d count (s.block b).contents

/-- Changes the bytes of a bound block. -/
def modifyBytes (b : BlockId) (f : Array UInt8 → Array UInt8) (s : Store) : Store :=
  s.modifyBlock b fun block =>
    match block.memory with
    | .bound bytes => { block with memory := .bound (f bytes) }
    | .unbound => block
    | .released => block

/-- Writes elements over the start of a block. -/
def write (b : BlockId) (xs : Array (Elem d)) : Action Fault Unit := do
  Action.examine (checkView b d xs.size)
  bindMemory b
  Action.change (modifyBytes b (Elem.overlay xs))

/-- The block has a new holder for as long as `body` runs. -/
def temporary {α : Type} (d : DeviceId) (size : Nat) (body : BlockId → Action Fault α) :
    Action Fault α := do
  let b ← Action.changing (Store.acquire · d size)
  Action.thenTidy (·.release b) (body b)

end DeviceTensor.Block
