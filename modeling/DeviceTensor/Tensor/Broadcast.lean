import DeviceTensor.Tensor.Check
set_option autoImplicit false

/-!
# Vectors over the rows and columns of a matrix

A vector is combined with every row or every column of a matrix in place, and the rows or the
columns of a matrix are summed into a vector.
-/

namespace DeviceTensor.Tensor

/-- Whether an operation combines a vector with columns; the others combine it with rows. -/
def overColumns : Operation → Bool
  | .addColumn => true
  | .subColumn => true
  | .multColumn => true
  | .divColumn => true
  | _ => false

/-- The invocation that combines a vector with the rows or columns of a matrix. -/
def planBroadcast (op : Operation) (alpha beta : Double) (v m : Tensor) (s : Store) :
    Except Fault Invocation := do
  checkSameKind v m s
  let (rows, cols) ← m.asMatrix
  if v.count s ≠ (if overColumns op then rows else cols) then
    throw (.doesNotBroadcast (v.count s) m.shape)
  let dst ← m.requireBlock
  let src ← v.requireBlock
  return { device := m.device, inputs := [src], output := dst, count := m.count s,
           alpha := alpha, beta := beta, extents := .ofGrid ⟨rows, cols, m.transposed⟩ }

/-- Combines a vector with every row or every column of a matrix. -/
def broadcast (op : Operation) (alpha beta : Double) (v m : Tensor) : Action Fault Unit := do
  let inv ← Action.examine (planBroadcast op alpha beta v m)
  launch op m.dtype inv

/-! ## Sums of rows and columns -/

/-- Which elements of a matrix are summed together. -/
inductive Summation where
  /-- All rows into one. -/
  | rows
  /-- All columns into one. -/
  | columns
  deriving DecidableEq, Repr, Inhabited

namespace Summation

/-- The operation that sums. -/
def op : Summation → Operation
  | .rows => .sumRows
  | .columns => .sumColumns

/-- The number of sums of a matrix. -/
def length (which : Summation) (rows cols : Nat) : Nat :=
  match which with
  | .rows => cols
  | .columns => rows

end Summation

/-- The invocation that sums the rows or columns of a grid into `out`. -/
def planSums (t out : Tensor) (length : Nat) (g : Grid) (s : Store) : Except Fault Invocation := do
  checkOutput t out length s
  let dst ← out.requireBlock
  let src ← t.requireBlock
  return { device := out.device, inputs := [src], output := dst, count := t.count s,
           extents := .ofGrid g }

/-- The invocation that sums the rows or columns of a tensor into `out`. -/
def planSumsOf (which : Summation) (t out : Tensor) (s : Store) : Except Fault Invocation := do
  let (rows, cols) ← t.asMatrix
  planSums t out (which.length rows cols) ⟨rows, cols, t.transposed⟩ s

/-- Sums the rows or the columns of a matrix into `out`. -/
def sumsTo (which : Summation) (t out : Tensor) : Action Fault Unit := do
  let inv ← Action.examine (planSumsOf which t out)
  launch which.op t.dtype inv

/-- The vector of the sums of rows or columns of a matrix. -/
def sums (which : Summation) (t : Tensor) : Action Fault Tensor := do
  let (rows, cols) ← Action.ofExcept t.asMatrix
  building (onDevice [which.length rows cols] t.device t.dtype) (sumsTo which t ·)

end DeviceTensor.Tensor
