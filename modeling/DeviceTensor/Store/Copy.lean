import DeviceTensor.Store.View
set_option autoImplicit false

/-!
# Copies between blocks

Bytes are copied from a range of one block to a range of another, or of the same one.  The device
of the destination makes the copy, unless the destination lies in host memory: then the device of
the source does.
-/

namespace DeviceTensor.Block

/-- The bytes `dst` with `size` bytes at `dstOffset` replaced by those of `src` at `srcOffset`. -/
def spliced (dst src : Array UInt8) (dstOffset srcOffset size : Nat) : Array UInt8 :=
  dst.mapIdx fun p old =>
    if dstOffset ≤ p ∧ p < dstOffset + size then src.getD (srcOffset + (p - dstOffset)) old else old

/-- What a copy of `size` bytes in host memory leaves in `dst`. -/
def copyWithinHost (direction : Direction) (dst src : Array UInt8) (size : Nat) :
    Except DeviceFailure (Array UInt8) :=
  match Device.hostPerforms direction with
  | .ok () => .ok (spliced dst src 0 0 size)
  | .error e => .error e

/-- A range of bytes of a block. -/
structure Range where
  block : BlockId
  offset : Nat
  deriving DecidableEq, Repr, Inhabited

/-- Requires both ranges to lie inside their blocks. -/
def checkCopy (dst src : Range) (size : Nat) (s : Store) : Except Fault Unit :=
  let dstSize := (s.block dst.block).size
  let srcSize := (s.block src.block).size
  match Size.add dst.offset size with
  | .error t => .error (.trap t)
  | .ok stop =>
    if dstSize < stop then .error (.copyOverrunsDestination size dst.offset dstSize)
    else
      match Size.add src.offset size with
      | .error t => .error (.trap t)
      | .ok stop =>
        if srcSize < stop then .error (.copyOverrunsSource size src.offset srcSize) else .ok ()

/-- The direction of a copy between two blocks. -/
def directionOf (dst src : BlockId) (s : Store) : Direction :=
  .between (s.owner src).backend (s.owner dst).backend

/-- The device that makes a copy. -/
def copyExecutor (dst src : BlockId) (s : Store) : DeviceId :=
  if (s.owner dst).backend = .cpp then (s.block src).device else (s.block dst).device

/-- Moves bytes; those of the source are the ones from before the copy, so that ranges of one block
may overlap. -/
def splice (dst src : Range) (size : Nat) (s : Store) : Store :=
  let bytes := (s.block src.block).contents
  modifyBytes dst.block (spliced · bytes dst.offset src.offset size) s

/-- Lets a device move the bytes, then waits for it. -/
def moveBytes (executor : DeviceId) (direction : Direction) (dst src : Range) (size : Nat) :
    Action Fault Unit := do
  Action.request executor (.copy size direction) (.copyFailed size direction)
  Action.change fun s => splice dst src size (s.modifyDevice executor Device.tallied)
  Action.request executor .wait (.copyFailed size direction)

/-- Copies `size` bytes from one range to another.  Copying no bytes binds no memory. -/
def copy (dst src : Range) (size : Nat) : Action Fault Unit := do
  Action.examine (checkCopy dst src size)
  if size = 0 then return ()
  let direction ← Action.inspect (directionOf dst.block src.block)
  let executor ← Action.inspect (copyExecutor dst.block src.block)
  bindMemory dst.block
  bindMemory src.block
  moveBytes executor direction dst src size

end DeviceTensor.Block
