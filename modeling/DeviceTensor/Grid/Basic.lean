import DeviceTensor.Machine.Size
set_option autoImplicit false

/-!
# Matrix grids

A matrix of `rows × cols` elements lies in a buffer row by row or, when it is stored transposed,
column by column.  `Grid.offset` is the place of element `(i, j)`; `checkedOffset` and
`checkedSize` are the same numbers computed in 64 bits.
-/

namespace DeviceTensor

/-- The logical size of a matrix and the order in which its buffer stores it. -/
structure Grid where
  rows : Nat
  cols : Nat
  transposed : Bool
  deriving DecidableEq, Repr, Inhabited

namespace Grid

/-- The number of elements. -/
def size (g : Grid) : Nat := g.rows * g.cols

/-- The place of element `(i, j)` in the buffer. -/
def offset (g : Grid) (i j : Nat) : Nat :=
  if g.transposed then j * g.rows + i else i * g.cols + j

/-- The number of elements, as a size. -/
def checkedSize (g : Grid) : Except Trap Nat := Size.mul g.rows g.cols

/-- The place of element `(i, j)`, computed on sizes. -/
def checkedOffset (g : Grid) (i j : Nat) : Except Trap Nat := do
  if g.transposed then
    let column ← Size.mul j g.rows
    Size.add column i
  else
    let row ← Size.mul i g.cols
    Size.add row j

/-- The elements, row by row. -/
def cells (g : Grid) : List (Nat × Nat) :=
  (List.range g.rows).flatMap fun i => (List.range g.cols).map fun j => (i, j)

theorem mem_cells_iff {g : Grid} {i j : Nat} : (i, j) ∈ g.cells ↔ i < g.rows ∧ j < g.cols := by
  simp only [cells, List.mem_flatMap, List.mem_map, List.mem_range, Prod.mk.injEq]
  constructor
  · rintro ⟨i', hi, j', hj, rfl, rfl⟩
    exact ⟨hi, hj⟩
  · rintro ⟨hi, hj⟩
    exact ⟨i, hi, j, hj, rfl, rfl⟩

/-- A place inside the grid is behind none of its elements. -/
theorem offset_lt_size {g : Grid} {i j : Nat} (hi : i < g.rows) (hj : j < g.cols) :
    g.offset i j < g.size := by
  unfold offset size
  split
  · calc j * g.rows + i < j * g.rows + g.rows := by omega
      _ = (j + 1) * g.rows := (Nat.succ_mul j g.rows).symm
      _ ≤ g.cols * g.rows := Nat.mul_le_mul_right _ hj
      _ = g.rows * g.cols := Nat.mul_comm _ _
  · calc i * g.cols + j < i * g.cols + g.cols := by omega
      _ = (i + 1) * g.cols := (Nat.succ_mul i g.cols).symm
      _ ≤ g.rows * g.cols := Nat.mul_le_mul_right _ hi

/-- The same buffer read with rows and columns exchanged. -/
def transpose (g : Grid) : Grid := ⟨g.cols, g.rows, !g.transposed⟩

theorem offset_transpose (g : Grid) (i j : Nat) : g.transpose.offset j i = g.offset i j := by
  cases h : g.transposed <;> simp [transpose, offset, h]

/-- The description of a grid. -/
def text (g : Grid) : String :=
  s!"MatrixLayout \x7b rows: {g.rows}, cols: {g.cols}, transposed: {g.transposed} \x7d"

end Grid

end DeviceTensor
