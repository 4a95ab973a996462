import DeviceTensor.Device.Basic
import DeviceTensor.Kernel.Product
import DeviceTensor.Routine.Catalog
set_option autoImplicit false

/-!
# The store

All state that tensors share: the devices, the blocks of memory on them, and the registry of
routines.  With it goes the library that multiplies matrices for host routines, which never changes.

A block is described when it is made and bound to memory when memory is first needed; it is released
with its last handle.  Blocks are numbered in the order they were made and keep their number, so that
a released block is never mistaken for a new one.
-/

namespace DeviceTensor

/-- The number of a device. -/
abbrev DeviceId : Type := Nat

/-- The number of a block. -/
abbrev BlockId : Type := Nat

/-- The memory behind a block. -/
inductive Memory where
  /-- No memory has been asked for yet. -/
  | unbound
  | bound (bytes : Array UInt8)
  /-- The memory was given back. -/
  | released
  deriving DecidableEq, Repr, Inhabited

namespace Memory

/-- Whether there is memory. -/
def isBound : Memory → Bool
  | .unbound => false
  | .bound _ => true
  | .released => false

end Memory

/-- A block of a fixed size on a device. -/
structure Block where
  device : DeviceId
  size : Nat
  /-- Tensors and other holders that share the block. -/
  handles : Nat
  memory : Memory
  deriving DecidableEq, Repr, Inhabited

namespace Block

/-- The bytes of a block; without memory they read as zeros. -/
def contents (b : Block) : Array UInt8 :=
  match b.memory with
  | .unbound => Array.replicate b.size 0
  | .bound bytes => bytes
  | .released => Array.replicate b.size 0

end Block

/-- A library that multiplies matrices of elements.  Routines leave the wide floating point types to
it. -/
abbrev Library : Type := (d : ElemType) → Kernel.WideProduct (arithmetic d)

/-- The library whose products add up in order. -/
def Library.plain : Library := fun d => .plain (arithmetic d)

/-- Devices, blocks, routines and the library. -/
structure Store where
  devices : Array Device
  blocks : Array Block
  registry : Registry Routine
  library : Library := .plain
  deriving Inhabited

namespace Store

/-- The device of host memory that every store has. -/
def hostMemory : DeviceId := 0

/-- The device with the given number. -/
def device (s : Store) (d : DeviceId) : Device := s.devices.getD d default

/-- The block with the given number. -/
def block (s : Store) (b : BlockId) : Block := s.blocks.getD b default

/-- The backend of a device. -/
def backend (s : Store) (d : DeviceId) : Backend := (s.device d).backend

/-- The device that owns a block. -/
def owner (s : Store) (b : BlockId) : Device := s.device (s.block b).device

/-- The device with the given name. -/
def deviceNamed? (s : Store) (name : String) : Option DeviceId :=
  s.devices.findIdx? (·.name == name)

/-- Changes one device. -/
def modifyDevice (s : Store) (d : DeviceId) (f : Device → Device) : Store :=
  { s with devices := s.devices.modify d f }

/-- Changes one block. -/
def modifyBlock (s : Store) (b : BlockId) (f : Block → Block) : Store :=
  { s with blocks := s.blocks.modify b f }

/-! ## Handles -/

/-- Describes a new block with one handle. -/
def acquire (s : Store) (d : DeviceId) (size : Nat) : BlockId × Store :=
  (s.blocks.size, { s with blocks := s.blocks.push ⟨d, size, 1, .unbound⟩ })

/-- One more holder shares the block. -/
def retain (s : Store) (b : BlockId) : Store :=
  s.modifyBlock b fun b => { b with handles := b.handles + 1 }

/-- Gives the memory of a block back to its device. -/
def giveBack (s : Store) (b : BlockId) : Store :=
  match (s.block b).memory with
  | .bound _ =>
    (s.modifyDevice (s.block b).device (·.reclaim (s.block b).size))
      |>.modifyBlock b fun b => { b with memory := .released }
  | .unbound => s
  | .released => s

/-- One holder lets go of the block; with the last one its memory is given back. -/
def release (s : Store) (b : BlockId) : Store :=
  let dropped := s.modifyBlock b fun b => { b with handles := b.handles - 1 }
  if (s.block b).handles = 1 then dropped.giveBack b else dropped

end Store

end DeviceTensor
