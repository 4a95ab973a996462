import DeviceTensor.Device.Backend
import DeviceTensor.Sampling.Distribution
set_option autoImplicit false

/-!
# Devices

A device owns blocks of memory, copies bytes between blocks and holds a random stream.  What it
answers to requests and how it draws samples is part of its description; what it was asked for, how
many bytes it holds, how many copies it made and where its stream stands is its state.  An answer may
depend on everything that the device was asked for before, so that memory which was granted once may
be refused the next time.
-/

namespace DeviceTensor

/-- Why a device did not do what it was asked for. -/
inductive DeviceFailure where
  /-- The size is none that a block in memory can have. -/
  | invalidLayout
  | outOfMemory (size : Nat)
  | unsupportedCopy (direction : Direction) (backend : Backend)
  /-- A reason of the backend's own. -/
  | other (reason : String)
  deriving DecidableEq, Repr, Inhabited

namespace DeviceFailure

/-- The wording of a device error. -/
def message : DeviceFailure → String
  | .invalidLayout => "Invalid block layout invalid parameters to Layout::from_size_align"
  | .outOfMemory size => s!"Out of memory: failed to allocate {size} bytes"
  | .unsupportedCopy direction backend =>
      s!"Copy {direction.tag} is not supported by a {backend.name} device"
  | .other reason => s!"Backend error: {reason}"

end DeviceFailure

/-- What a device is asked for. -/
inductive Request where
  /-- Memory for a block of so many bytes. -/
  | allocate (size : Nat)
  /-- To take back the memory of a block of so many bytes. -/
  | release (size : Nat)
  /-- To copy so many bytes. -/
  | copy (size : Nat) (direction : Direction)
  /-- To wait for pending work. -/
  | wait
  deriving DecidableEq, Repr, Inhabited

/-- A device: its description and its state. -/
structure Device where
  name : String
  backend : Backend
  /-- Whether programs on the host may read and write its blocks directly. -/
  addressable : Bool
  /-- The answer to a request after earlier ones, of which the latest comes first.  A granted copy
  moves the bytes; a release is no question, and its answer is not heard. -/
  answers : List Request → Request → Except DeviceFailure Unit
  /-- Draws one sample of a distribution from a stream, and leaves the rest of the stream. -/
  draws : Distribution → Stream → Double × Stream := Distribution.sample
  /-- The requests so far, the latest first. -/
  asked : List Request := []
  /-- Bytes of the bound blocks it owns. -/
  held : Nat := 0
  /-- Copies it made, on devices that count them. -/
  copies : Option Nat := none
  stream : Stream

namespace Device

/-! ## Requests -/

/-- The answer to a request that is made now. -/
def answer (d : Device) (r : Request) : Except DeviceFailure Unit := d.answers d.asked r

/-- The device after a request, whatever the answer. -/
def after (d : Device) (r : Request) : Device := { d with asked := r :: d.asked }

/-- The device after it has granted a block of `size` bytes. -/
def allocate (d : Device) (size : Nat) : Except DeviceFailure Device :=
  match d.answer (.allocate size) with
  | .ok () => .ok { d.after (.allocate size) with held := d.held + size }
  | .error e => .error e

/-- The device after it has taken back a block of `size` bytes. -/
def reclaim (d : Device) (size : Nat) : Device :=
  { d.after (.release size) with held := d.held - size }

/-- The device after one more copy. -/
def tallied (d : Device) : Device := { d with copies := d.copies.map (· + 1) }

/-! ## Host memory -/

/-- Alignment of every block in host memory. -/
def hostAlignment : Nat := 16

/-- Requires a size that a block in host memory can have: rounded up to the alignment it must
stay below half the address space. -/
def checkHostSize (size : Nat) : Except DeviceFailure Unit :=
  if size + hostAlignment ≤ 1 <<< 63 then .ok () else .error .invalidLayout

/-- Blocks from this size on are never available.  What a machine can give out is not for the tensors
to say; this bound stands for a platform whose memory is far smaller than its address space. -/
def hostCapacity : Nat := 1 <<< 59

/-- The answer of host memory to a request. -/
def hostGrants (size : Nat) : Except DeviceFailure Unit := do
  checkHostSize size
  if hostCapacity ≤ size then throw (.outOfMemory size)

/-- The answer of host memory that gives out blocks of at most `limit` bytes. -/
def limitedGrants (limit : Option Nat) (size : Nat) : Except DeviceFailure Unit := do
  checkHostSize size
  if limit.any (· < size) then throw (.outOfMemory size)
  hostGrants size

/-- A host device copies within host memory only. -/
def hostPerforms (direction : Direction) : Except DeviceFailure Unit :=
  if direction = .hostToHost then .ok () else .error (.unsupportedCopy direction .cpp)

/-- The answers of a device whose blocks lie in host memory. -/
def hostAnswers (limit : Option Nat) (_ : List Request) : Request → Except DeviceFailure Unit
  | .allocate size => limitedGrants limit size
  | .release _ => .ok ()
  | .copy _ direction => hostPerforms direction
  | .wait => .ok ()

/-- A device whose blocks lie in host memory. -/
def host (name : String) (limit : Option Nat) (stream : Stream) : Device where
  name := name
  backend := .cpp
  addressable := true
  answers := hostAnswers limit
  stream := stream

/-! ## Simulated backends -/

/-- What sets one simulated backend apart from another. -/
structure Simulation where
  backend : Backend
  addressable : Bool
  limit : Option Nat := none
  refusesCopies : Bool := false
  refusesToWait : Bool := false
  deriving DecidableEq, Repr, Inhabited

namespace Simulation

/-- The answer of a simulated backend to a request for memory. -/
def grants (sim : Simulation) (size : Nat) : Except DeviceFailure Unit :=
  match sim.limit.filter (· < size) with
  | some limit => .error (.other s!"sim limit is {limit} bytes")
  | none => hostGrants size

/-- The answers of a simulated backend; it copies in any direction or in none. -/
def answers (sim : Simulation) (_ : List Request) : Request → Except DeviceFailure Unit
  | .allocate size => sim.grants size
  | .release _ => .ok ()
  | .copy _ _ => if sim.refusesCopies then .error (.other "sim copy refused") else .ok ()
  | .wait => if sim.refusesToWait then .error (.other "sim sync refused") else .ok ()

end Simulation

/-- A device of any backend with its memory in the host, which counts the copies it makes. -/
def simulated (name : String) (sim : Simulation) (stream : Stream) : Device where
  name := name
  backend := sim.backend
  addressable := sim.addressable
  answers := sim.answers
  copies := some 0
  stream := stream

instance : Inhabited Device := ⟨host "" none { seed := 0 }⟩

end Device

end DeviceTensor
