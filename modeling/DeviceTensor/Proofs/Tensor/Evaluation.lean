import DeviceTensor.Proofs.Tensor.WellFormed
set_option autoImplicit false

/-!
# Evaluations

The operations whose result is a tensor, as data: a computation into a tensor that is there, whose
result is that tensor, and the operations that make a tensor for their result.
-/

namespace DeviceTensor

open Tensor

/-- An operation whose result is a tensor, with its operands. -/
inductive Evaluation where
  | into (c : Computation) (out : Tensor)
  | map (op : Operation) (t : Tensor) (x : Double)
  | zip (op : Operation) (lhs rhs : Tensor)
  | sums (which : Summation) (t : Tensor)
  | sumAxis (t : Tensor) (axis : Nat)
  | average (t : Tensor) (axis : Nat)
  | softmax (t : Tensor) (axis : Nat)
  | product (a b : Tensor)
  | operate (f : Operator) (t : Tensor) (rhs : RightSide)
  deriving Repr

namespace Evaluation

/-- The tensors that the operation is given. -/
def operands : Evaluation → List Tensor
  | .into c out => out :: c.inputs
  | .map _ t _ => [t]
  | .zip _ lhs rhs => [lhs, rhs]
  | .sums _ t => [t]
  | .sumAxis t _ => [t]
  | .average t _ => [t]
  | .softmax t _ => [t]
  | .product a b => [a, b]
  | .operate f t rhs => (Computation.ofAssign f t rhs).inputs

/-- The operation belongs to its family. -/
def Proper : Evaluation → Prop
  | .into c _ => c.Proper
  | .map op _ _ => op ∈ Operation.pointwise
  | .zip op _ _ => op ∈ Operation.pairwise
  | _ => True

/-- Runs the operation. -/
def run : Evaluation → Action Fault Tensor
  | .into c out => do
    c.into out
    return out
  | .map op t x => Tensor.map op t x
  | .zip op lhs rhs => Tensor.zip op lhs rhs
  | .sums which t => Tensor.sums which t
  | .sumAxis t axis => Tensor.sumAxis t axis
  | .average t axis => Tensor.average t axis
  | .softmax t axis => Tensor.softmax t axis
  | .product a b => Tensor.product a b
  | .operate f t rhs => Tensor.operate f t rhs

end Evaluation

end DeviceTensor
