import DeviceTensor.Proofs.Routine.Mirror
import DeviceTensor.Session.Command
set_option autoImplicit false

/-!
# Computations

The operations that write an existing tensor, as data: `Computation.into` runs the operation, and
`Computation.plan` is the launch that it issues if its operands pass their checks.
-/

namespace DeviceTensor

/-- A routine to find and what to run it on. -/
structure Issue where
  op : Operation
  dtype : ElemType
  inv : Invocation
  deriving DecidableEq, Repr

namespace Issue

/-- Finds and runs the routine. -/
def launch (i : Issue) : Action Fault Unit := DeviceTensor.launch i.op i.dtype i.inv

/-- What is issued was planned. -/
theorem planned_iff {x : Except Fault Invocation} {op : Operation} {dtype : ElemType} {i : Issue} :
    (do return ⟨op, dtype, ← x⟩ : Except Fault Issue) = .ok i ↔
      ∃ inv, x = .ok inv ∧ ⟨op, dtype, inv⟩ = i :=
  Except.bind_eq_ok_iff.trans (exists_congr fun _ => and_congr_right fun _ => Except.pure_eq_ok_iff)

end Issue

open Tensor

/-- An operation that writes its result into a tensor, with its operands. -/
inductive Computation where
  | map (op : Operation) (t : Tensor) (x : Double)
  | zip (op : Operation) (lhs rhs : Tensor)
  | sums (which : Summation) (t : Tensor)
  | sumAxis (t : Tensor) (axis : Nat)
  | softmax (t : Tensor) (axis : Nat)
  | product (alpha : Double) (a b : Tensor) (beta : Double)
  | broadcast (op : Operation) (alpha beta : Double) (v : Tensor)
  | addScaled (alpha : Double) (t : Tensor)
  deriving Repr

namespace Computation

/-- The tensors that are read. -/
def inputs : Computation → List Tensor
  | .map _ t _ => [t]
  | .zip _ lhs rhs => [lhs, rhs]
  | .sums _ t => [t]
  | .sumAxis t _ => [t]
  | .softmax t _ => [t]
  | .product _ a b _ => [a, b]
  | .broadcast _ _ _ v => [v]
  | .addScaled _ t => [t]

/-- Runs the operation into a tensor. -/
def into : Computation → Tensor → Action Fault Unit
  | .map op t x, out => mapTo op t x out
  | .zip op lhs rhs, out => zipTo op lhs rhs out
  | .sums which t, out => sumsTo which t out
  | .sumAxis t axis, out => sumAxisTo t axis out
  | .softmax t axis, out => softmaxTo t axis out
  | .product alpha a b beta, out => productScaled alpha a b beta out
  | .broadcast op alpha beta v, out => Tensor.broadcast op alpha beta v out
  | .addScaled alpha t, out => Tensor.addScaled alpha t out

/-- The launch of an operation on `out`, after its operands have been checked. -/
def plan (out : Tensor) (s : Store) : Computation → Except Fault Issue
  | .map op t x => do return ⟨op, t.dtype, ← planMap t x out s⟩
  | .zip op lhs rhs => do return ⟨op, lhs.dtype, ← planZip lhs rhs out s⟩
  | .sums which t => do return ⟨which.op, t.dtype, ← planSumsOf which t out s⟩
  | .sumAxis t axis => do
    let c ← t.collapse axis
    return ⟨c.which.op, t.dtype, ← planSums t out c.length c.grid s⟩
  | .softmax t axis => do return ⟨.softMax, t.dtype, ← planSoftmax t axis out s⟩
  | .product alpha a b beta => do return ⟨.gemm, a.dtype, ← planProduct alpha a b beta out s⟩
  | .broadcast op alpha beta v => do
    return ⟨op, out.dtype, ← planBroadcast op alpha beta v out s⟩
  | .addScaled alpha t => do return ⟨.axpy, t.dtype, ← planAddScaled alpha t out s⟩

/-- The computation that an operator with assignment makes, with the tensor itself as an input. -/
def ofAssign (f : Operator) (t : Tensor) : RightSide → Computation
  | .tensor other => .zip f.onTensors t other
  | .scalar x => .map f.onScalar t x

theorem assign_eq (f : Operator) (t : Tensor) (rhs : RightSide) :
    assign f t rhs = (ofAssign f t rhs).into t := by
  cases rhs <;> rfl

/-- To check and to launch is to plan and to launch what was planned. -/
theorem examine_launch (f : Store → Except Fault Invocation) (op : Operation) (dtype : ElemType)
    (s : Store) :
    (Action.examine f >>= fun inv => DeviceTensor.launch op dtype inv) s =
      (Action.examine (fun s => do return ⟨op, dtype, ← f s⟩) >>= Issue.launch) s := by
  simp only [Action.bind_apply, Action.examine]
  cases f s <;> rfl

/-- The operation launches what it has planned. -/
theorem into_eq (c : Computation) (out : Tensor) (s : Store) :
    c.into out s = (Action.examine (c.plan out) >>= Issue.launch) s := by
  cases c with
  | map op t x => exact examine_launch (planMap t x out) op t.dtype s
  | zip op lhs rhs => exact examine_launch (planZip lhs rhs out) op lhs.dtype s
  | sums which t => exact examine_launch (planSumsOf which t out) which.op t.dtype s
  | sumAxis t axis =>
    simp only [into, sumAxisTo, plan, Action.bind_apply, Action.examine, Action.ofExcept]
    cases t.collapse axis with
    | error e => rfl
    | ok c => exact examine_launch (planSums t out c.length c.grid) c.which.op t.dtype s
  | softmax t axis => exact examine_launch (planSoftmax t axis out) .softMax t.dtype s
  | product alpha a b beta =>
    exact examine_launch (planProduct alpha a b beta out) .gemm a.dtype s
  | broadcast op alpha beta v =>
    exact examine_launch (planBroadcast op alpha beta v out) op out.dtype s
  | addScaled alpha t => exact examine_launch (planAddScaled alpha t out) .axpy t.dtype s

end Computation

end DeviceTensor
