set_option autoImplicit false

/-!
# Backends

Every device belongs to a backend, named by the language of its kernels.  Blocks of the `cpp`
backend lie in host memory; where two blocks lie decides the direction of a copy between them.
-/

namespace DeviceTensor

/-- The language of a backend. -/
inductive Backend where
  | cpp
  | cuda
  | opencl
  deriving DecidableEq, Repr, Inhabited

namespace Backend

/-- All backends. -/
def all : List Backend := [.cpp, .cuda, .opencl]

/-- The name of a backend in messages. -/
def name : Backend → String
  | .cpp => "cpp"
  | .cuda => "cuda"
  | .opencl => "opencl"

/-- The name of a backend in descriptions of a tensor or a block. -/
def tag : Backend → String
  | .cpp => "Cpp"
  | .cuda => "Cuda"
  | .opencl => "Opencl"

/-- The backend with the given name. -/
def ofName? (name : String) : Option Backend := all.find? (·.name == name)

end Backend

/-- The direction of a copy between two blocks. -/
inductive Direction where
  | hostToHost
  | hostToDevice
  | deviceToHost
  | deviceToDevice
  deriving DecidableEq, Repr, Inhabited

namespace Direction

/-- The direction of a copy from a block of one backend to a block of another. -/
def between (src dst : Backend) : Direction :=
  match src, dst with
  | .cpp, .cpp => .hostToHost
  | .cpp, _ => .hostToDevice
  | _, .cpp => .deviceToHost
  | _, _ => .deviceToDevice

/-- The name of a direction. -/
def tag : Direction → String
  | .hostToHost => "HostToHost"
  | .hostToDevice => "HostToDevice"
  | .deviceToHost => "DeviceToHost"
  | .deviceToDevice => "DeviceToDevice"

/-- All directions. -/
def all : List Direction := [.hostToHost, .hostToDevice, .deviceToHost, .deviceToDevice]

/-- The direction with the given name. -/
def ofTag? (tag : String) : Option Direction := all.find? (·.tag == tag)

end Direction

end DeviceTensor
