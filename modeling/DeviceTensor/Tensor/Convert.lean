import DeviceTensor.Tensor.Form
import DeviceTensor.Tensor.Transfer
set_option autoImplicit false

/-!
# Element types and whole tensors

Converting a tensor to another element type, setting all its elements, and reducing it to one
number.
-/

namespace DeviceTensor.Tensor

/-! ## Conversion -/

/-- Casts the elements of the tensor into a block, if there are any in memory. -/
def castTo (t : Tensor) (src : BlockId) (d : ElemType) (target : BlockId) : Action Fault Unit := do
  let bound ← Action.inspect t.isBound
  let count ← Action.inspect t.count
  if bound then
    launch .cast t.dtype
      { device := t.device, inputs := [src], output := target, count := count, outType := d }

/-- Whether the elements can be cast where they are: the block keeps its size and no other holder
shares it. -/
def castsInPlace (b : BlockId) (size : Nat) (s : Store) : Bool :=
  size = (s.block b).size && (s.block b).handles = 1

/-- Converts the elements to another type: in place where possible, else into a new block.  Without
memory there are no elements to convert, and only the description changes. -/
def convert (t : Tensor) (d : ElemType) : Action Fault Tensor :=
  if d = t.dtype then return t
  else
    match t.block with
    | none => return { t with dtype := d }
    | some b => do
      let size ← Action.examine fun s => Fault.ofTrap (Size.mul (t.count s) d.width)
      let inPlace ← Action.inspect (castsInPlace b size)
      if inPlace then
        t.castTo b d b
        return { t with dtype := d }
      else
        let target ← Action.changing (Store.acquire · t.device size)
        Action.onFailure (·.release target) (t.castTo b d target)
        let t ← t.replaceBlock target
        return { t with dtype := d }

/-! ## All elements at once -/

/-- Sets every element to a number. -/
def fill (t : Tensor) (x : Double) : Action Fault Unit :=
  match t.block with
  | none => return ()
  | some b => do
    let count ← Action.inspect t.count
    launch .fill t.dtype { device := t.device, output := b, count := count, alpha := x }

/-- Reduces a block to one 64-bit number. -/
def reduceBlock (t : Tensor) (b : BlockId) (op : Operation) (out : Tensor) :
    Action Fault Double := do
  let dst ← Action.ofExcept out.requireBlock
  let count ← Action.inspect t.count
  launch op t.dtype { device := t.device, inputs := [b], output := dst, count := count }
  let result ← out.read .float64
  Action.ofExcept (Fault.ofTrap (Buffer.read result 0))

/-- Reduces all elements to one 64-bit number; without a block to zero. -/
def reduce (t : Tensor) (op : Operation) : Action Fault Double :=
  match t.block with
  | none => return Double.zero
  | some b => do
    let out ← onDevice [1] t.device .float64
    Action.thenTidy out.release (t.reduceBlock b op out)

/-- The Euclidean norm of all elements. -/
def norm (t : Tensor) : Action Fault (Elem .float32) := do
  let total ← t.reduce .nrm2
  return Elem.toSingle .float64 total

/-- The sum of all elements as an element of type `d`. -/
def sum (t : Tensor) (d : ElemType) : Action Fault (Elem d) := do
  let total ← t.reduce .sum
  match Elem.cast .float64 d total with
  | some x => return x
  | none => Action.fail (.sumNotRepresentable total d)

end DeviceTensor.Tensor
