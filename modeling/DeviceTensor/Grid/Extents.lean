import DeviceTensor.Grid.Basic
set_option autoImplicit false

/-!
# Extents

The matrix sizes of one kernel call.  For an operation on one matrix they are its rows and columns
and its storage order; for a product of two matrices they are the rows and columns of the result,
the dimension both operands share, and the storage order of each operand.
-/

namespace DeviceTensor

/-- Matrix sizes and storage orders of a kernel call. -/
structure Extents where
  rows : Nat := 0
  cols : Nat := 0
  inner : Nat := 0
  transA : Bool := false
  transB : Bool := false
  deriving DecidableEq, Repr, Inhabited

namespace Extents

/-- The extents of an operation on one matrix. -/
def ofGrid (g : Grid) : Extents := { rows := g.rows, cols := g.cols, transA := g.transposed }

/-- The one matrix of an operation. -/
def grid (x : Extents) : Grid := ⟨x.rows, x.cols, x.transA⟩

/-- The first operand of a product. -/
def leftGrid (x : Extents) : Grid := ⟨x.rows, x.inner, x.transA⟩

/-- The second operand of a product. -/
def rightGrid (x : Extents) : Grid := ⟨x.inner, x.cols, x.transB⟩

/-- Steps in the buffer of the first operand from one row, and one column, to the next. -/
def leftStrides (x : Extents) : Nat × Nat := if x.transA then (1, x.rows) else (x.inner, 1)

/-- Steps in the buffer of the second operand from one row, and one column, to the next. -/
def rightStrides (x : Extents) : Nat × Nat := if x.transB then (1, x.inner) else (x.cols, 1)

/-- The place reached by `i` steps of one stride and `j` of the other, computed on sizes. -/
def strided (strides : Nat × Nat) (i j : Nat) : Except Trap Nat := do
  let down ← Size.mul i strides.1
  let along ← Size.mul j strides.2
  Size.add down along

theorem leftGrid_offset (x : Extents) (i p : Nat) :
    x.leftGrid.offset i p = i * x.leftStrides.1 + p * x.leftStrides.2 := by
  cases h : x.transA <;> simp [leftGrid, leftStrides, Grid.offset, h, Nat.add_comm]

theorem rightGrid_offset (x : Extents) (p j : Nat) :
    x.rightGrid.offset p j = p * x.rightStrides.1 + j * x.rightStrides.2 := by
  cases h : x.transB <;> simp [rightGrid, rightStrides, Grid.offset, h, Nat.add_comm]

/-- The description of extents. -/
def text (x : Extents) : String :=
  s!"Geometry \x7b rows: {x.rows}, cols: {x.cols}, inner: {x.inner}, " ++
    s!"trans_a: {x.transA}, trans_b: {x.transB} \x7d"

end Extents

end DeviceTensor
