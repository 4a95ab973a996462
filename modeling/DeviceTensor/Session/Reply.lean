import DeviceTensor.Fault
import DeviceTensor.Tensor.Basic
set_option autoImplicit false

/-!
# Replies

Every command has a reply: the state of the tensor or block it made or changed, the answer to a
question, or the reason it failed.  Looking at a tensor or a block never binds memory.
-/

namespace DeviceTensor

/-- The state of a tensor. -/
structure TensorReport where
  shape : Shape
  dtype : ElemType
  transposed : Bool
  device : String
  byteSize : Nat
  count : Nat
  bound : Bool
  /-- Holders of the block; none without a block. -/
  handles : Nat
  /-- The elements in storage order, if there is memory that the host can reach. -/
  elements : Option (Array (Elem dtype))

/-- The state of a block. -/
structure BlockReport where
  device : String
  size : Nat
  bound : Bool
  handles : Nat
  text : String
  /-- The bytes, if there is memory that the host can reach. -/
  bytes : Option (Array UInt8)
  deriving DecidableEq, Repr, Inhabited

/-- The state of a device. -/
structure DeviceReport where
  backend : Backend
  addressable : Bool
  /-- Bytes it holds; the default host does not tell. -/
  held : Option Nat
  copies : Option Nat
  deriving DecidableEq, Repr, Inhabited

/-- What a look at the elements of a tensor found. -/
structure Statistics where
  inRange : Bool
  whole : Bool
  varied : Bool
  meanAgrees : Bool
  deriving DecidableEq, Repr, Inhabited

/-- Why a command failed. -/
inductive Failure where
  | fault (f : Fault)
  | device (e : DeviceFailure)
  | launch (e : LaunchError)
  | kernel (e : Refusal)
  deriving DecidableEq, Repr, Inhabited

namespace Failure

/-- The wording of a failure. -/
def message : Failure → String
  | .fault f => f.message
  | .device e => e.message
  | .launch e => e.message
  | .kernel e => e.message

/-- A routine run by itself fails with its own refusal. -/
def ofRoutine : RoutineFailure → Failure
  | .fault f => .fault f
  | .refused e => .kernel e

end Failure

/-- The reply to a command. -/
inductive Reply where
  | tensor (r : TensorReport)
  | block (r : BlockReport)
  | noBlock
  | elements (d : ElemType) (xs : Array (Elem d))
  | element (d : ElemType) (x : Elem d)
  | size (n : Nat)
  | text (s : String)
  | sharing (shares sameDevice : Bool)
  | accepted
  | dropped (existed : Bool)
  | equal (same : Bool)
  | sameBlock (same : Bool)
  | statistics (r : Statistics)
  | device (r : DeviceReport)
  | found
  | registered (size : Nat)
  | failed (e : Failure)
  /-- The command names something that does not exist. -/
  | badRequest
  deriving Inhabited

namespace Tensor

/-- Whether the elements of a tensor can be looked at without binding memory. -/
def isVisible (t : Tensor) (s : Store) : Bool := t.isBound s && (s.device t.device).addressable

/-- The elements of a tensor, if they can be looked at. -/
def visibleElements (t : Tensor) (s : Store) : Option (Array (Elem t.dtype)) :=
  match t.block with
  | some b =>
    if t.isVisible s then some (Elem.decode t.dtype (t.count s) (s.block b).contents) else none
  | none => none

/-- The state of a tensor. -/
def report (t : Tensor) (s : Store) : TensorReport where
  shape := t.shape
  dtype := t.dtype
  transposed := t.transposed
  device := (s.device t.device).name
  byteSize := t.byteSize s
  count := t.count s
  bound := t.isBound s
  handles := match t.block with
    | some b => (s.block b).handles
    | none => 0
  elements := t.visibleElements s

end Tensor

namespace Block

/-- The state of a block. -/
def report (b : BlockId) (s : Store) : BlockReport where
  device := (s.owner b).name
  size := (s.block b).size
  bound := (s.block b).memory.isBound
  handles := (s.block b).handles
  text := Block.text b s
  bytes :=
    if (s.block b).memory.isBound && (s.owner b).addressable then some (s.block b).contents
    else none

end Block

namespace Store

/-- The state of a device. -/
def deviceReport (s : Store) (d : DeviceId) : DeviceReport where
  backend := (s.device d).backend
  addressable := (s.device d).addressable
  held := if d = hostMemory then none else some (s.device d).held
  copies := (s.device d).copies

end Store

end DeviceTensor
