import DeviceTensor.Proofs.Grid.Order
import DeviceTensor.Proofs.Kernel.Refusal
import DeviceTensor.Proofs.Kernel.Stores
set_option autoImplicit false

/-!
# Broadcasts and sums over rows and columns

A broadcast combines every element of a matrix with one element of a vector, each of them once, and
refuses a vector or a buffer of the wrong length before it stores anything.  Broadcasts over rows
and over columns are one kernel seen from two sides: a matrix and its transpose are stored alike,
and what the one makes of the rows of a matrix the other makes of the columns of its transpose.
Sums over rows and over columns mirror each other in the same way.
-/

namespace DeviceTensor

open DeviceTensor.Except

/-! ## Matrices and their transposes -/

/-- The refusal of a matrix, said of its transpose. -/
def Refusal.transposed : Refusal → Refusal
  | .matrixTooSmall size rows cols => .matrixTooSmall size cols rows
  | e => e

/-- What halts a kernel on a matrix, said of its transpose. -/
def Halt.transposed : Halt → Halt
  | .trap t => .trap t
  | .refused e => .refused e.transposed

namespace Outcome

variable {α : Type}

/-- What a kernel leaves of a matrix, said of its transpose. -/
def transposed (o : Outcome α) : Outcome α := (o.1, o.2.mapError Halt.transposed)

/-- Traps are the same on the transpose. -/
theorem transposed_of_traps {o : Outcome α} (h : FailsIn (fun e => ∃ t, e = .trap t) o.2) :
    o.transposed = o := by
  obtain ⟨dst, ends⟩ := o
  cases ends with
  | ok u => rfl
  | error e =>
    obtain ⟨t, rfl⟩ := h e rfl
    rfl

/-- The elements trap. -/
def Traps (o : Outcome α) : Prop := ∃ t, o.2 = .error (.trap t)

/-- Both kernels trap, or neither does: then they leave the same, one of them of the transpose. -/
structure Dual (o o' : Outcome α) : Prop where
  traps : o'.Traps ↔ o.Traps
  same : ¬o.Traps → o' = o.transposed

end Outcome

namespace Grid

theorem size_transpose (g : Grid) : g.transpose.size = g.size := Nat.mul_comm g.cols g.rows

theorem checkedOffset_transpose (g : Grid) (i j : Nat) :
    g.transpose.checkedOffset j i = g.checkedOffset i j := by
  cases h : g.transposed <;> simp [transpose, checkedOffset, h]

end Grid

namespace Kernel

variable {α : Type} {f : α → α → Except Trap α} {v m : Array α} {g : Grid} {k : Nat × Nat → Nat}

/-! ## Elements combined with a vector -/

/-- What `f` makes of an element of a matrix and element `k` of a vector. -/
def combined (f : α → α → Except Trap α) (v : Array α) (g : Grid) (k : Nat × Nat → Nat)
    (m : Array α) (cell : Nat × Nat) : Except Trap α := do
  let old ← Buffer.read m (g.offset cell.1 cell.2)
  let x ← Buffer.read v (k cell)
  f old x

/-- The place of an element. -/
def placeOf (g : Grid) (cell : Nat × Nat) : Nat := g.offset cell.1 cell.2

/-- A kernel has combined every element of a matrix, each of them once, and nothing else. -/
structure Combined (f : α → α → Except Trap α) (v : Array α) (k : Nat × Nat → Nat) (g : Grid)
    (m : Array α) (o : Outcome α) : Prop where
  ends : o.2 = .ok ()
  size : o.1.size = m.size
  elements : ∀ i j, i < g.rows → j < g.cols → ∃ old x new, m[g.offset i j]? = some old ∧
    v[k (i, j)]? = some x ∧ f old x = .ok new ∧ o.1[g.offset i j]? = some new
  behind : ∀ p, g.size ≤ p → o.1[p]? = m[p]?
  stored : o.1 = afterStores (stores (combineAt f v g k) g.cells m) m
  once : ((stores (combineAt f v g k) g.cells m).map Prod.fst).Perm (List.range g.size)

/-- What a kernel does that combines the elements of a matrix, each with element `k` of a vector of
`n` elements. -/
structure Combines (f : α → α → Except Trap α) (v : Array α) (n : Nat) (k : Nat × Nat → Nat)
    (g : Grid) (m : Array α) (o : Outcome α) : Prop where
  /-- A vector of another length is refused. -/
  unequal : v.size ≠ n → o = refuse m (.lengthMismatch v.size n)
  /-- A buffer that does not hold the matrix is refused. -/
  short : v.size = n → m.size < g.size → o = refuse m (.matrixTooSmall m.size g.rows g.cols)
  /-- If `f` has all the values, they are stored. -/
  ends : v.size = n → g.size ≤ m.size →
    (∀ i j old x, i < g.rows → j < g.cols → m[g.offset i j]? = some old →
      v[k (i, j)]? = some x → ∃ new, f old x = .ok new) → Combined f v k g m o
  /-- Otherwise the first element without a value, row by row, ends the kernel. -/
  halts : v.size = n → g.size ≤ m.size → ∀ before cell later t,
    g.cells = before ++ cell :: later → (∀ c ∈ before, ∃ new, combined f v g k m c = .ok new) →
    combined f v g k m cell = .error t →
    o.2 = .error (.trap t) ∧ Placed before (placeOf g)
      (fun c => Halt.ofTrap (combined f v g k m c)) m o.1

theorem combined_eq (f : α → α → Except Trap α) (cell : Nat × Nat) {old x : α}
    (hold : m[placeOf g cell]? = some old) (hx : v[k cell]? = some x) :
    combined f v g k m cell = f old x := by
  have hread : Buffer.read m (g.offset cell.1 cell.2) = .ok old := Buffer.read_eq_ok_iff.mpr hold
  unfold combined
  rw [hread, Buffer.read_eq_ok_iff.mpr hx]
  rfl

/-- The elements of a matrix have places of their own, and each is combined by itself. -/
theorem combineAt_sited (hsize : g.size < Size.limit) (hm : g.size ≤ m.size) :
    Sited (combineAt f v g k) g.cells (placeOf g)
      (fun cell => Halt.ofTrap (combined f v g k m cell)) m := by
  refine .of_cells hm fun i j hi hj m' hsame hat => ?_
  simp only [combineAt, combined, Halt.liftM_eq, Halt.ofTrap_bind, bind_assoc,
    Grid.checkedOffset_of_lt hsize hi hj, Halt.ofTrap_ok_bind, Buffer.read_congr hsame hat]
  rfl

/-- Both elements that are combined are there. -/
theorem exists_reads (hm : g.size ≤ m.size) {i j : Nat} (hi : i < g.rows) (hj : j < g.cols)
    (hk : k (i, j) < v.size) :
    ∃ old x, m[g.offset i j]? = some old ∧ v[k (i, j)]? = some x := by
  have hlt : g.offset i j < m.size := Nat.lt_of_lt_of_le (Grid.offset_lt_size hi hj) hm
  exact ⟨m[g.offset i j], v[k (i, j)], Array.getElem?_eq_getElem hlt, Array.getElem?_eq_getElem hk⟩

/-- A sweep that combines every element. -/
theorem sweep_combined (hsize : g.size < Size.limit) (hm : g.size ≤ m.size)
    (hk : ∀ cell ∈ g.cells, k cell < v.size)
    (hf : ∀ cell ∈ g.cells, ∃ new, combined f v g k m cell = .ok new) :
    Combined f v k g m (sweep (combineAt f v g k) g.cells m) := by
  have hsited : Sited (combineAt f v g k) g.cells (placeOf g)
      (fun cell => Halt.ofTrap (combined f v g k m cell)) m := combineAt_sited hsize hm
  obtain ⟨hends, hplaced, hstores⟩ := hsited.sweep_of_forall (Halt.ofTrap_forall_ok hf)
  refine ⟨hends, hplaced.size, ?_, ?_, sweep_fst _ _ _, ?_⟩
  · intro i j hi hj
    have hcell := Grid.mem_cells_iff.mpr ⟨hi, hj⟩
    obtain ⟨old, x, hold, hx⟩ := exists_reads hm hi hj (hk (i, j) hcell)
    obtain ⟨new, hnew, hat⟩ := hplaced.placed (i, j) hcell
    have hvalue : f old x = .ok new :=
      (combined_eq f (i, j) hold hx).symm.trans (Halt.ofTrap_eq_ok_iff.mp hnew)
    exact ⟨old, x, new, hold, hx, hvalue, hat⟩
  · intro p hp
    apply hplaced.others p
    intro hmem
    have hlt := List.mem_range.mp ((Grid.offsets_perm g).mem_iff.mp hmem)
    omega
  · rw [hstores]
    exact Grid.offsets_perm g

/-! ## Checks of both sizes -/

theorem requireHolds_of_le {size : Nat} (hsize : g.size < Size.limit) (h : g.size ≤ size) :
    requireHolds size g = .ok () := by
  unfold requireHolds Grid.checkedSize
  rw [Size.mul_of_lt hsize]
  apply if_neg
  exact Nat.not_lt.mpr h

theorem requireHolds_of_lt {size : Nat} (hsize : g.size < Size.limit) (h : size < g.size) :
    requireHolds size g = .error (.refused (.matrixTooSmall size g.rows g.cols)) := by
  unfold requireHolds Grid.checkedSize
  rw [Size.mul_of_lt hsize]
  exact if_pos h

/-- A kernel that checks both sizes and then combines every element. -/
theorem checked_combines {n : Nat} (hsize : g.size < Size.limit)
    (hk : ∀ cell ∈ g.cells, k cell < n) :
    Combines f v n k g m (checked (requireEqual v.size n *> requireHolds m.size g) m
      (sweep (combineAt f v g k) g.cells)) where
  unequal hv := by
    unfold requireEqual
    rw [if_neg hv]
    rfl
  short hv hm := by
    unfold requireEqual
    rw [if_pos hv, requireHolds_of_lt hsize hm]
    rfl
  ends hv hm hf := by
    unfold requireEqual
    rw [if_pos hv, requireHolds_of_le hsize hm]
    apply sweep_combined hsize hm (hv ▸ hk)
    rintro ⟨i, j⟩ hij
    obtain ⟨hi, hj⟩ := Grid.mem_cells_iff.mp hij
    obtain ⟨old, x, hold, hx⟩ := exists_reads hm hi hj (hv ▸ hk (i, j) hij)
    obtain ⟨new, hnew⟩ := hf i j old x hi hj hold hx
    exact ⟨new, (combined_eq f (i, j) hold hx).trans hnew⟩
  halts hv hm before cell later t hcells hbefore hcell := by
    unfold requireEqual
    rw [if_pos hv, requireHolds_of_le hsize hm]
    have hsited : Sited (combineAt f v g k) (before ++ cell :: later) (placeOf g)
        (fun cell => Halt.ofTrap (combined f v g k m cell)) m := by
      rw [← hcells]
      exact combineAt_sited hsize hm
    have htrap : Halt.ofTrap (combined f v g k m cell) = .error (.trap t) :=
      Halt.ofTrap_eq_error_iff.mpr ⟨t, hcell, rfl⟩
    obtain ⟨hends, hplaced, -⟩ := hsited.sweep_of_first (Halt.ofTrap_forall_ok hbefore) htrap
    rw [hcells]
    exact ⟨hends, hplaced⟩

/-- A broadcast over the rows combines element `(i, j)` with element `j` of the vector. -/
theorem broadcastRow_combines (f : α → α → Except Trap α) (v m : Array α)
    (hsize : g.size < Size.limit) : Combines f v g.cols (·.2) g m (broadcastRow f v g m) := by
  apply checked_combines hsize
  rintro ⟨i, j⟩ hij
  exact (Grid.mem_cells_iff.mp hij).2

/-- A broadcast over the columns combines element `(i, j)` with element `i` of the vector. -/
theorem broadcastColumn_combines (f : α → α → Except Trap α) (v m : Array α)
    (hsize : g.size < Size.limit) : Combines f v g.rows (·.1) g m (broadcastColumn f v g m) := by
  apply checked_combines hsize
  rintro ⟨i, j⟩ hij
  exact (Grid.mem_cells_iff.mp hij).1

/-! ## Both ways to see a matrix -/

/-- Element `(j, i)` of the transpose is element `(i, j)`. -/
theorem combined_transpose (f : α → α → Except Trap α) (v m : Array α) (g : Grid) (i j : Nat) :
    combined f v g.transpose (·.1) m (j, i) = combined f v g (·.2) m (i, j) := by
  unfold combined
  simp only [Grid.offset_transpose]

/-- What is left of a matrix whose elements are combined with those of a vector, and of its
transpose. -/
theorem Combined.transpose {o o' : Outcome α} (h : Combined f v (·.2) g m o)
    (h' : Combined f v (·.1) g.transpose m o') : o' = o.transposed := by
  have hsame : o'.1 = o.1 := by
    apply Array.ext_getElem?
    intro p
    by_cases hp : p < g.size
    · obtain ⟨i, j, hi, hj, rfl⟩ := Grid.exists_offset_eq hp
      obtain ⟨old, x, new, hold, hx, hnew, hat⟩ := h.elements i j hi hj
      obtain ⟨old', x', new', hold', hx', hnew', hat'⟩ := h'.elements j i hj hi
      rw [Grid.offset_transpose] at hold' hat'
      rw [hold] at hold'
      rw [hx] at hx'
      cases hold'
      cases hx'
      rw [hnew] at hnew'
      cases hnew'
      rw [hat, hat']
    · rw [h.behind p (Nat.le_of_not_lt hp)]
      apply h'.behind
      rw [Grid.size_transpose]
      exact Nat.le_of_not_lt hp
  have hends : o'.2 = o.transposed.2 := by
    unfold Outcome.transposed
    rw [h'.ends, h.ends]
    rfl
  exact Prod.ext hsame hends

theorem Combined.not_traps {o : Outcome α} (h : Combined f v k g m o) : ¬o.Traps := by
  rintro ⟨t, ht⟩
  rw [h.ends] at ht
  cases ht

theorem refuse_not_traps (m : Array α) (e : Refusal) : ¬(refuse m e).Traps := by
  rintro ⟨t, ht⟩
  cases ht

/-- On buffers of the right lengths every element is combined, or one of them has no value. -/
theorem Combines.combined_or_traps {n : Nat} {o : Outcome α} (h : Combines f v n k g m o)
    (hv : v.size = n) (hm : g.size ≤ m.size) :
    Combined f v k g m o ∨
      o.Traps ∧ ∃ cell ∈ g.cells, ∃ t, combined f v g k m cell = .error t := by
  rcases forall_or_first (combined f v g k m) g.cells with
    hall | ⟨before, cell, later, t, hcells, hbefore, hcell⟩
  · left
    apply h.ends hv hm
    intro i j old x hi hj hold hx
    obtain ⟨new, hnew⟩ := hall (i, j) (Grid.mem_cells_iff.mpr ⟨hi, hj⟩)
    rw [combined_eq f (i, j) hold hx] at hnew
    exact ⟨new, hnew⟩
  · right
    obtain ⟨hends, -⟩ := h.halts hv hm before cell later t hcells hbefore hcell
    have hmem : cell ∈ g.cells := by simp [hcells]
    exact ⟨⟨t, hends⟩, cell, hmem, t, hcell⟩

/-- An element that has been combined has a value. -/
theorem Combined.value {o : Outcome α} (h : Combined f v k g m o) {cell : Nat × Nat}
    (hcell : cell ∈ g.cells) : ∃ new, combined f v g k m cell = .ok new := by
  obtain ⟨hi, hj⟩ := Grid.mem_cells_iff.mp hcell
  obtain ⟨old, x, new, hold, hx, hnew, -⟩ := h.elements cell.1 cell.2 hi hj
  exact ⟨new, (combined_eq f cell hold hx).trans hnew⟩

/-- A broadcast over the rows of a matrix is one over the columns of its transpose. -/
theorem broadcast_dual (f : α → α → Except Trap α) (v m : Array α) (hsize : g.size < Size.limit) :
    (broadcastRow f v g m).Dual (broadcastColumn f v g.transpose m) := by
  have hrow := broadcastRow_combines f v m hsize
  have hcol := broadcastColumn_combines f v m (g := g.transpose) (g.size_transpose ▸ hsize)
  by_cases hv : v.size = g.cols
  · by_cases hm : g.size ≤ m.size
    · rcases hrow.combined_or_traps hv hm with h | ⟨htraps, ⟨i, j⟩, hcell, t, ht⟩
      · rcases hcol.combined_or_traps hv (g.size_transpose ▸ hm) with
          h' | ⟨-, ⟨j, i⟩, hcell, t, ht⟩
        · exact ⟨iff_of_false h'.not_traps h.not_traps, fun _ => h.transpose h'⟩
        · have hcell' : (i, j) ∈ g.cells :=
            Grid.mem_cells_iff.mpr (Grid.mem_cells_iff.mp hcell).symm
          obtain ⟨new, hnew⟩ := h.value hcell'
          rw [combined_transpose, hnew] at ht
          cases ht
      · rcases hcol.combined_or_traps hv (g.size_transpose ▸ hm) with h' | ⟨htraps', -⟩
        · have hcell' : (j, i) ∈ g.transpose.cells :=
            Grid.mem_cells_iff.mpr (Grid.mem_cells_iff.mp hcell).symm
          obtain ⟨new, hnew⟩ := h'.value hcell'
          rw [combined_transpose, ht] at hnew
          cases hnew
        · exact ⟨iff_of_true htraps' htraps, fun h => absurd htraps h⟩
    · have hshort : m.size < g.size := Nat.lt_of_not_le hm
      rw [hrow.short hv hshort, hcol.short hv (g.size_transpose ▸ hshort)]
      exact ⟨iff_of_false (refuse_not_traps _ _) (refuse_not_traps _ _), fun _ => rfl⟩
  · rw [hrow.unequal hv, hcol.unequal hv]
    exact ⟨iff_of_false (refuse_not_traps _ _) (refuse_not_traps _ _), fun _ => rfl⟩

/-- A function that never traps leaves no room for traps. -/
theorem Combines.not_traps {n : Nat} {o : Outcome α} (h : Combines f v n k g m o)
    (hf : ∀ x y, ∃ z, f x y = .ok z) : ¬o.Traps := by
  by_cases hv : v.size = n
  · by_cases hm : g.size ≤ m.size
    · have hcombined : Combined f v k g m o := by
        apply h.ends hv hm
        intro i j old x _ _ _ _
        exact hf old x
      exact hcombined.not_traps
    · rw [h.short hv (Nat.lt_of_not_le hm)]
      exact refuse_not_traps _ _
  · rw [h.unequal hv]
    exact refuse_not_traps _ _

/-! ## Sums -/

theorem requireHolds_transpose (size : Nat) (g : Grid) :
    requireHolds size g.transpose = (requireHolds size g).mapError Halt.transposed := by
  have hmul : Size.mul g.transpose.rows g.transpose.cols = Size.mul g.rows g.cols := by
    unfold Size.mul
    simp only [Grid.transpose, Nat.mul_comm]
  unfold requireHolds Grid.checkedSize
  rw [hmul]
  cases Size.mul g.rows g.cols with
  | error t => rfl
  | ok needed =>
    simp only [Halt.liftM_eq, Halt.ofTrap_ok_bind]
    by_cases h : size < needed
    · rw [if_pos h, if_pos h]
      rfl
    · rw [if_neg h, if_neg h]
      rfl

theorem addElement_transpose (A : Arithmetic α) (m : Array α) (g : Grid) (acc : α) (i j : Nat) :
    addElement A m g.transpose acc j i = addElement A m g acc i j := by
  unfold addElement
  rw [Grid.checkedOffset_transpose]

/-- The sums of the rows of a matrix are the sums of the columns of its transpose. -/
theorem sumColumns_transpose (A : Arithmetic α) (m : Array α) (g : Grid) (dst : Array α) :
    sumColumns A m g.transpose dst = (sumRows A m g dst).transposed := by
  unfold sumColumns sumRows
  rw [requireHolds_transpose]
  simp only [addElement_transpose]
  unfold requireEqual
  by_cases hdst : dst.size = g.cols
  · have hdst' : dst.size = g.transpose.rows := hdst
    rw [if_pos hdst, if_pos hdst']
    cases requireHolds m.size g with
    | error e => rfl
    | ok u =>
      symm
      apply Outcome.transposed_of_traps
      refine sweep_trapping (fun t => ⟨t, rfl⟩) fun j _ _ => ?_
      refine .bind (.foldlM fun acc i _ => ?_) fun _ _ => .ok _
      exact .ofTrap (fun t => ⟨t, rfl⟩) _
  · have hdst' : dst.size ≠ g.transpose.rows := hdst
    rw [if_neg hdst, if_neg hdst']
    rfl

/-! ## Broadcasts and sums -/

/-- Broadcasts do what they say over every element of a matrix that can be counted, and over rows
and columns they are dual, as the sums are. -/
theorem broadcast_spec (f : α → α → Except Trap α) (A : Arithmetic α) (v m dst : Array α)
    (hsize : g.size < Size.limit) :
    Combines f v g.cols (·.2) g m (broadcastRow f v g m) ∧
      Combines f v g.rows (·.1) g m (broadcastColumn f v g m) ∧
      (broadcastRow f v g m).Dual (broadcastColumn f v g.transpose m) ∧
      ((∀ x y, ∃ z, f x y = .ok z) →
        broadcastColumn f v g.transpose m = (broadcastRow f v g m).transposed) ∧
      sumColumns A m g.transpose dst = (sumRows A m g dst).transposed := by
  have hrow := broadcastRow_combines f v m hsize
  have hdual := broadcast_dual f v m hsize
  refine ⟨hrow, broadcastColumn_combines f v m hsize, hdual, ?_, sumColumns_transpose A m g dst⟩
  intro hf
  exact hdual.same (hrow.not_traps hf)

/-- Subtraction of bytes, which wraps. -/
def subtract (x y : BitVec 8) : Except Trap (BitVec 8) := .ok (x - y)

/-- A transposed matrix of two rows in a buffer with an element to spare. -/
theorem broadcast_spec_two_rows :
    (Grid.mk 2 3 true).size < Size.limit ∧
      broadcastRow subtract #[1, 2, 3] ⟨2, 3, true⟩ #[10, 20, 30, 40, 50, 60, 70] =
        (#[9, 19, 28, 38, 47, 57, 70], .ok ()) ∧
      broadcastColumn subtract #[1, 2, 3] ⟨3, 2, false⟩ #[10, 20, 30, 40, 50, 60, 70] =
        (#[9, 19, 28, 38, 47, 57, 70], .ok ()) ∧
      sumColumns (Word.arithmetic 8) #[10, 20, 30, 40, 50, 60, 70] ⟨3, 2, false⟩ #[0, 0, 0] =
        (#[30, 70, 110], .ok ()) := by
  have hsize : (Grid.mk 2 3 true).size < Size.limit := by decide
  obtain ⟨-, -, -, hcol, hsum⟩ := broadcast_spec subtract (Word.arithmetic 8) #[1, 2, 3]
    #[10, 20, 30, 40, 50, 60, 70] #[0, 0, 0] hsize
  have hrow : broadcastRow subtract #[1, 2, 3] ⟨2, 3, true⟩ #[10, 20, 30, 40, 50, 60, 70] =
      (#[9, 19, 28, 38, 47, 57, 70], .ok ()) := rfl
  have hrows : sumRows (Word.arithmetic 8) #[10, 20, 30, 40, 50, 60, 70] ⟨2, 3, true⟩ #[0, 0, 0] =
      (#[30, 70, 110], .ok ()) := rfl
  refine ⟨hsize, hrow, ?_, ?_⟩
  · rw [hrow] at hcol
    exact hcol fun x y => ⟨x - y, rfl⟩
  · rw [hrows] at hsum
    exact hsum

end Kernel

end DeviceTensor
