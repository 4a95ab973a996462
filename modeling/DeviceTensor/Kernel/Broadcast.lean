import DeviceTensor.Element.Arithmetic
import DeviceTensor.Kernel.Sweep
import DeviceTensor.Grid.Basic
set_option autoImplicit false

/-!
# Kernels over the rows and columns of a matrix

A vector is combined with every row, or every column, of a matrix in place; or the rows, or the
columns, of a matrix are summed into a vector.  The matrix may be stored transposed, and its
elements are visited row by row in either case.
-/

namespace DeviceTensor.Kernel

variable {α : Type}

/-- Requires a buffer of `size` elements to hold the grid. -/
def requireHolds (size : Nat) (g : Grid) : Except Halt Unit := do
  let needed ← g.checkedSize
  if size < needed then throw (.refused (.matrixTooSmall size g.rows g.cols))

/-- Stores `f m v` at one element of a matrix, `m` being its old value and `v` that of position
`k` of the vector. -/
def combineAt (f : α → α → Except Trap α) (v : Array α) (g : Grid) (k : Nat × Nat → Nat)
    (cell : Nat × Nat) (m : Array α) : Except Halt (Nat × α) := do
  let place ← g.checkedOffset cell.1 cell.2
  let old ← Buffer.read m place
  let x ← Buffer.read v (k cell)
  let new ← f old x
  return (place, new)

/-- Combines the vector with every row: element `(i, j)` becomes `f m[i, j] v[j]`. -/
def broadcastRow (f : α → α → Except Trap α) (v : Array α) (g : Grid) (m : Array α) : Outcome α :=
  checked (requireEqual v.size g.cols *> requireHolds m.size g) m <|
    sweep (combineAt f v g (·.2)) g.cells

/-- Combines the vector with every column: element `(i, j)` becomes `f m[i, j] v[i]`. -/
def broadcastColumn (f : α → α → Except Trap α) (v : Array α) (g : Grid) (m : Array α) :
    Outcome α :=
  checked (requireEqual v.size g.rows *> requireHolds m.size g) m <|
    sweep (combineAt f v g (·.1)) g.cells

/-- Adds the element at `(i, j)` to a sum. -/
def addElement (A : Arithmetic α) (m : Array α) (g : Grid) (acc : α) (i j : Nat) :
    Except Trap α := do
  let place ← g.checkedOffset i j
  let x ← Buffer.read m place
  A.add acc x

/-- Sums the rows: position `j` of the destination becomes the sum of column `j`, from zero and
from the first row on. -/
def sumRows (A : Arithmetic α) (m : Array α) (g : Grid) (dst : Array α) : Outcome α :=
  checked (requireEqual dst.size g.cols *> requireHolds m.size g) dst <|
    sweep (fun j _ => do
      let sum ← (List.range g.rows).foldlM (fun acc i => addElement A m g acc i j) A.zero
      return (j, sum)) (List.range g.cols)

/-- Sums the columns: position `i` of the destination becomes the sum of row `i`, from zero and
from the first column on. -/
def sumColumns (A : Arithmetic α) (m : Array α) (g : Grid) (dst : Array α) : Outcome α :=
  checked (requireEqual dst.size g.rows *> requireHolds m.size g) dst <|
    sweep (fun i _ => do
      let sum ← (List.range g.cols).foldlM (fun acc j => addElement A m g acc i j) A.zero
      return (i, sum)) (List.range g.rows)

end DeviceTensor.Kernel
