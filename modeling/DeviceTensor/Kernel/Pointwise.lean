import DeviceTensor.Element.Arithmetic
import DeviceTensor.Kernel.Sweep
set_option autoImplicit false

/-!
# Kernels that work element by element

Each writes position `i` of its destination from position `i` of its sources, in order of `i`.
-/

namespace DeviceTensor.Kernel

variable {α β : Type}

/-- Stores `f x` for every element `x` of the source. -/
def map (f : α → Except Trap β) (src : Array α) (dst : Array β) : Outcome β :=
  checked (requireEqual src.size dst.size) dst <|
    sweep (fun i _ => do
      let x ← Buffer.read src i
      let y ← f x
      return (i, y)) (List.range src.size)

/-- Stores `f x y` for every pair of elements of the two sources. -/
def zip (f : α → α → Except Trap β) (lhs rhs : Array α) (dst : Array β) : Outcome β :=
  checked (requireEqual lhs.size rhs.size *> requireEqual lhs.size dst.size) dst <|
    sweep (fun i _ => do
      let x ← Buffer.read lhs i
      let y ← Buffer.read rhs i
      let z ← f x y
      return (i, z)) (List.range lhs.size)

/-- Stores `value` everywhere. -/
def fill (value : α) (dst : Array α) : Outcome α := (Array.replicate dst.size value, .ok ())

/-- Stores the cast of every element of the source; refuses at the first element without one. -/
def cast (convert : α → Option β) (src : Array α) (dst : Array β) : Outcome β :=
  checked (requireEqual src.size dst.size) dst <|
    sweep (fun i _ => do
      let x ← Buffer.read src i
      match convert x with
      | some y => return (i, y)
      | none => throw (.refused (.castOutOfRange i))) (List.range src.size)

/-- Adds `alpha * x` to every element of the destination. -/
def addScaled (A : Arithmetic α) (alpha : α) (src : Array α) (dst : Array α) : Outcome α :=
  checked (requireEqual src.size dst.size) dst <|
    sweep (fun i dst => do
      let x ← Buffer.read src i
      let y ← Buffer.read dst i
      let scaled ← A.mul alpha x
      let z ← A.add scaled y
      return (i, z)) (List.range src.size)

end DeviceTensor.Kernel
