import Mathlib.Data.List.Nodup
import Mathlib.Data.List.Perm.Subperm
import Mathlib.Data.List.ProdSigma
import DeviceTensor.Proofs.Kernel.Admissible
set_option autoImplicit false

/-!
# Places in a buffer

The elements of a matrix have places of their own in its buffer, whichever way it is stored, and
they fill it: row by row they visit every place once.  If the elements can be counted, so can the
places.
-/

namespace DeviceTensor

namespace Grid

variable {g : Grid} {i j k l : Nat}

/-! ## One place for every element -/

/-- A place in an order with `n` elements in each line. -/
theorem line_inj {n : Nat} (hj : j < n) (hl : l < n) (h : i * n + j = k * n + l) :
    i = k ∧ j = l := by
  have hpos : 0 < n := Nat.lt_of_le_of_lt (Nat.zero_le j) hj
  have hdiv (a b : Nat) (hb : b < n) : (a * n + b) / n = a := by
    rw [Nat.mul_comm, Nat.mul_add_div hpos, Nat.div_eq_of_lt hb, Nat.add_zero]
  have hline : i = k := by
    rw [← hdiv i j hj, ← hdiv k l hl, h]
  subst hline
  exact ⟨rfl, Nat.add_left_cancel h⟩

/-- Different elements have different places. -/
theorem offset_inj (hi : i < g.rows) (hj : j < g.cols) (hk : k < g.rows) (hl : l < g.cols)
    (h : g.offset i j = g.offset k l) : i = k ∧ j = l := by
  unfold offset at h
  split at h
  · obtain ⟨hcol, hrow⟩ := line_inj hi hk h
    exact ⟨hrow, hcol⟩
  · exact line_inj hj hl h

theorem nodup_cells (g : Grid) : g.cells.Nodup :=
  List.Nodup.product List.nodup_range List.nodup_range

theorem length_cells (g : Grid) : g.cells.length = g.size := by
  have hlength := List.length_product (List.range g.rows) (List.range g.cols)
  rw [List.length_range, List.length_range] at hlength
  exact hlength

/-- The places of the elements, row by row. -/
def offsets (g : Grid) : List Nat := g.cells.map fun cell => g.offset cell.1 cell.2

/-- Every place is visited once. -/
theorem offsets_perm (g : Grid) : g.offsets.Perm (List.range g.size) := by
  have hnodup : g.offsets.Nodup := by
    refine List.Nodup.map_on ?_ g.nodup_cells
    rintro ⟨i, j⟩ hij ⟨k, l⟩ hkl h
    obtain ⟨hi, hj⟩ := mem_cells_iff.mp hij
    obtain ⟨hk, hl⟩ := mem_cells_iff.mp hkl
    obtain ⟨rfl, rfl⟩ := offset_inj hi hj hk hl h
    rfl
  have hsub : g.offsets ⊆ List.range g.size := by
    intro n hn
    obtain ⟨⟨i, j⟩, hij, rfl⟩ := List.mem_map.mp hn
    obtain ⟨hi, hj⟩ := mem_cells_iff.mp hij
    exact List.mem_range.mpr (offset_lt_size hi hj)
  refine (List.subperm_of_subset hnodup hsub).perm_of_length_le (Nat.le_of_eq ?_)
  rw [List.length_range, offsets, List.length_map, length_cells]

/-- Every place is that of an element. -/
theorem exists_offset_eq {n : Nat} (hn : n < g.size) :
    ∃ i j, i < g.rows ∧ j < g.cols ∧ g.offset i j = n := by
  have hmem : n ∈ g.offsets := g.offsets_perm.mem_iff.mpr (List.mem_range.mpr hn)
  obtain ⟨⟨i, j⟩, hij, hoffset⟩ := List.mem_map.mp hmem
  obtain ⟨hi, hj⟩ := mem_cells_iff.mp hij
  exact ⟨i, j, hi, hj, hoffset⟩

/-! ## Places as sizes -/

/-- The place of an element can be computed if the elements can be counted. -/
theorem checkedOffset_of_lt (hsize : g.size < Size.limit) (hi : i < g.rows) (hj : j < g.cols) :
    g.checkedOffset i j = .ok (g.offset i j) := by
  have hlt := Nat.lt_trans (offset_lt_size hi hj) hsize
  unfold checkedOffset
  unfold offset at hlt ⊢
  split at hlt
  · rename_i ht
    rw [if_pos ht, if_pos ht, Size.mul_of_lt (Nat.lt_of_le_of_lt (Nat.le_add_right _ _) hlt)]
    exact Size.add_of_lt hlt
  · rename_i ht
    rw [if_neg ht, if_neg ht, Size.mul_of_lt (Nat.lt_of_le_of_lt (Nat.le_add_right _ _) hlt)]
    exact Size.add_of_lt hlt

end Grid

namespace Extents

variable {x : Extents} {i j p : Nat}

theorem strided_of_lt {strides : Nat × Nat} (h : i * strides.1 + j * strides.2 < Size.limit) :
    strided strides i j = .ok (i * strides.1 + j * strides.2) := by
  unfold strided
  rw [Size.mul_of_lt (Nat.lt_of_le_of_lt (Nat.le_add_right _ _) h),
    Size.mul_of_lt (Nat.lt_of_le_of_lt (Nat.le_add_left _ _) h)]
  exact Size.add_of_lt h

/-- Strides lead to the places of the first operand of a product. -/
theorem strided_left (hsize : x.leftGrid.size < Size.limit) (hi : i < x.rows) (hp : p < x.inner) :
    strided x.leftStrides i p = .ok (x.leftGrid.offset i p) := by
  have hlt := Grid.offset_lt_size (g := x.leftGrid) hi hp
  rw [leftGrid_offset] at hlt ⊢
  exact strided_of_lt (Nat.lt_trans hlt hsize)

/-- Strides lead to the places of the second operand of a product. -/
theorem strided_right (hsize : x.rightGrid.size < Size.limit) (hp : p < x.inner)
    (hj : j < x.cols) : strided x.rightStrides p j = .ok (x.rightGrid.offset p j) := by
  have hlt := Grid.offset_lt_size (g := x.rightGrid) hp hj
  rw [rightGrid_offset] at hlt ⊢
  exact strided_of_lt (Nat.lt_trans hlt hsize)

end Extents

end DeviceTensor
