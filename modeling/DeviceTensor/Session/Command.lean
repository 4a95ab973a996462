import DeviceTensor.Tensor.Axis
import DeviceTensor.Tensor.Convert
import DeviceTensor.Tensor.Product
import DeviceTensor.Tensor.Sampling
set_option autoImplicit false

/-!
# Commands

A program is a list of commands on named tensors, blocks and devices.  Here is everything a
program can do; `Session.step` says what each command does.
-/

namespace DeviceTensor

/-- The right side of an operator: a tensor by name, or a number. -/
inductive Rhs where
  | named (name : String)
  | number (x : Double)
  deriving DecidableEq, Repr, Inhabited

/-- Where a result goes: into a slot, or into the tensor that the slot holds already. -/
structure Target where
  name : String
  existing : Bool
  deriving DecidableEq, Repr, Inhabited

/-- The invocation of a routine on named blocks. -/
structure NamedInvocation where
  device : String
  op : Operation
  dtype : ElemType
  inputs : List String
  output : String
  count : Nat
  extents : Extents := {}
  alpha : Double := Double.zero
  beta : Double := Double.zero
  outType : ElemType := .float32
  /-- Whether the routine is run itself, so that its refusals keep their kind. -/
  direct : Bool := false
  deriving DecidableEq, Repr, Inhabited

/-- One step of a program. -/
inductive Command where
  -- making tensors
  | create (out : String) (shape : Shape) (device : String) (dtype : ElemType)
  | createEmpty (out : String)
  | ofElements (out : String) (shape : Shape) (d : ElemType) (xs : Array (Elem d))
  | share (t out : String)
  | duplicate (t out : String)
  | transpose (t out : String)
  | reshaped (t out : String) (shape : Shape)
  | drop (t : String)
  -- changing tensors
  | reshape (t : String) (shape : Shape)
  | resize (t : String) (shape : Shape)
  | takeForm (t other : String)
  | convert (t : String) (dtype : ElemType)
  | moveTo (t device : String)
  | fill (t : String) (x : Double)
  | upload (t : String) (d : ElemType) (xs : Array (Elem d)) (offset : Nat)
  | copyFrom (t other : String)
  | copyRange (t other : String) (count dstOffset srcOffset : Nat)
  -- looking at tensors
  | state (t : String)
  | read (t : String) (dtype : Option ElemType)
  | dimension (t : String) (index : Nat)
  | norm (t : String)
  | sum (t : String) (dtype : ElemType)
  | describe (t : String)
  | sharing (a b : String)
  | check (a b : String)
  | sameElements (a b : String)
  | statistics (t : String) (low high mean tolerance : Double)
  -- computing
  | map (op : Operation) (t : String) (x : Double) (out : Target)
  | zip (op : Operation) (a b : String) (out : Target)
  | sums (which : Tensor.Summation) (t : String) (out : Target)
  | sumAxis (t : String) (axis : Nat) (out : Target)
  | average (t : String) (axis : Nat) (out : String)
  | softmax (t : String) (axis : Nat) (out : Target)
  | product (a b : String) (out : Target)
  | operate (f : Tensor.Operator) (a : String) (rhs : Rhs) (out : String)
  | assign (f : Tensor.Operator) (t : String) (rhs : Rhs) (twice : Bool)
  | broadcast (op : Operation) (alpha beta : Double) (v m : String)
  | addScaled (alpha : Double) (t out : String)
  | productScaled (alpha : Double) (a b : String) (beta : Double) (c : String)
  | random (t : String) (D : Distribution)
  -- devices and routines
  | deviceInfo (device : String)
  | synchronize (device : String)
  | reseed (device : String) (seed : Nat)
  | registerCatalog (backend : Backend)
  | lookup (key : RoutineKey)
  | registerProbe (key : RoutineKey) (p : Probe)
  -- blocks
  | newBlock (out device : String) (size : Nat)
  | blockOf (t out : String)
  | shareBlock (block out : String)
  | dropBlock (block : String)
  | blockState (block : String)
  | bindBlock (block : String)
  | writeBlock (block : String) (d : ElemType) (xs : Array (Elem d))
  | readBlock (block : String) (d : ElemType) (count : Nat)
  | sameBlock (a b : String)
  | copyBlock (dst : String) (dstOffset : Nat) (src : String) (srcOffset size : Nat)
  | launch (call : NamedInvocation)
  deriving Inhabited

end DeviceTensor
