import Mathlib.Data.Set.Function
import Mathlib.Order.Interval.Set.Defs
import DeviceTensor.Proofs.Kernel.Library
import DeviceTensor.Proofs.Kernel.Softmax
set_option autoImplicit false

/-!
# Indices of kernels

If the elements of a matrix can be counted, then their places can be computed, however the matrix is
stored, and they are the places before its size, each of them once.  A kernel whose size check has
passed therefore finds every place and every element.  What it stores is described without checked
indices, so that the elements alone decide whether it halts.
-/

namespace DeviceTensor

open DeviceTensor.Except

/-! ## Places and elements -/

/-- The places of the elements are those before the size of the matrix. -/
theorem Grid.offset_bijOn (g : Grid) :
    Set.BijOn (fun cell : Nat × Nat => g.offset cell.1 cell.2)
      {cell | cell.1 < g.rows ∧ cell.2 < g.cols} (Set.Iio g.size) := by
  refine ⟨fun cell hcell => offset_lt_size hcell.1 hcell.2, ?_, fun n hn => ?_⟩
  · intro cell hcell cell' hcell' h
    obtain ⟨hrow, hcol⟩ := offset_inj hcell.1 hcell.2 hcell'.1 hcell'.2 h
    exact Prod.ext hrow hcol
  · obtain ⟨i, j, hi, hj, hoffset⟩ := exists_offset_eq hn
    exact ⟨(i, j), ⟨hi, hj⟩, hoffset⟩

/-! ## Kernels that halt at an element -/

variable {ι α : Type}

/-- The kernel runs to its end, or halts with one of these traps. -/
def Outcome.HaltsIn (P : Trap → Prop) (o : Outcome α) : Prop :=
  FailsIn (fun e => ∃ t, e = .trap t ∧ P t) o.2

/-- A kernel that stores the values of its cells halts as the value of a cell does. -/
theorem LeavesPrefix.haltsIn {cells : List ι} {earlier : ι → ι → Prop} [DecidableRel earlier]
    {site : ι → Nat} {value : ι → Except Trap α} {dst : Array α} {o : Outcome α}
    (h : LeavesPrefix cells earlier site (fun c => Halt.ofTrap (value c)) dst o) :
    o.HaltsIn fun t => ∃ c ∈ cells, value c = .error t := by
  intro e he
  obtain ⟨c, hc⟩ := h.stops e he
  obtain ⟨e', hvalue, hends⟩ := hc.fails
  obtain ⟨t, ht, rfl⟩ := Halt.ofTrap_eq_error_iff.mp hvalue
  rw [hends] at he
  cases he
  exact ⟨t, rfl, c, hc.mem, ht⟩

theorem Outcome.HaltsIn.mono {P Q : Trap → Prop} {o : Outcome α} (h : o.HaltsIn P)
    (hPQ : ∀ t, P t → Q t) : o.HaltsIn Q := by
  intro e he
  obtain ⟨t, rfl, ht⟩ := h e he
  exact ⟨t, rfl, hPQ t ht⟩

/-- A kernel ends if nothing traps that could halt it. -/
theorem Outcome.HaltsIn.ends {P : Trap → Prop} {o : Outcome α} (h : o.HaltsIn P)
    (hP : ∀ t, ¬P t) : o.2 = .ok () := by
  cases hends : o.2 with
  | ok u => rfl
  | error e =>
    obtain ⟨t, -, ht⟩ := h e hends
    exact absurd ht (hP t)

namespace Kernel

/-! ## Broadcasts and sums -/

section

variable {f : α → α → Except Trap α} {v m dst : Array α} {g : Grid} {k : Nat × Nat → Nat}

/-- `f` traps at an element of a matrix and element `k` of a vector. -/
def TrapsAt (f : α → α → Except Trap α) (v : Array α) (k : Nat × Nat → Nat) (g : Grid)
    (m : Array α) (t : Trap) : Prop :=
  ∃ i j old x, i < g.rows ∧ j < g.cols ∧ m[g.offset i j]? = some old ∧ v[k (i, j)]? = some x ∧
    f old x = .error t

theorem CombinesPrefix.haltsIn {o : Outcome α} (h : CombinesPrefix f v k g m o)
    (hm : requireHolds m.size g = .ok ()) (hk : ∀ cell ∈ g.cells, k cell < v.size) :
    o.HaltsIn (TrapsAt f v k g m) := by
  refine h.toLeavesPrefix.haltsIn.mono ?_
  rintro t ⟨⟨i, j⟩, hcell, ht⟩
  obtain ⟨hi, hj⟩ := Grid.mem_cells_iff.mp hcell
  obtain ⟨old, x, hold, hx⟩ := exists_reads (requireHolds_eq_ok hm).2 hi hj (hk (i, j) hcell)
  rw [combined_eq f (i, j) hold hx] at ht
  exact ⟨i, j, old, x, hi, hj, hold, hx, ht⟩

theorem broadcastRow_haltsIn (f : α → α → Except Trap α) (hm : requireHolds m.size g = .ok ())
    (hv : v.size = g.cols) : (broadcastRow f v g m).HaltsIn (TrapsAt f v (·.2) g m) :=
  (broadcastRow_combinesPrefix f hv hm).haltsIn hm fun _ hcell =>
    hv ▸ (Grid.mem_cells_iff.mp hcell).2

theorem broadcastColumn_haltsIn (f : α → α → Except Trap α) (hm : requireHolds m.size g = .ok ())
    (hv : v.size = g.rows) : (broadcastColumn f v g m).HaltsIn (TrapsAt f v (·.1) g m) :=
  (broadcastColumn_combinesPrefix f hv hm).haltsIn hm fun _ hcell =>
    hv ▸ (Grid.mem_cells_iff.mp hcell).1

/-- Column `j` of the matrix that a buffer stores. -/
def column (zero : α) (xs : Array α) (g : Grid) (j : Nat) : List α :=
  (List.range g.rows).map fun i => entry zero xs g i j

/-- The sum of a list, from zero. -/
def total (A : Arithmetic α) (xs : List α) : Except Trap α := xs.foldlM A.add A.zero

/-- A line of a matrix is summed as the list of its elements. -/
theorem lineTotal_eq (A : Arithmetic α) (hm : g.size ≤ m.size) {line : Nat → Nat × Nat} {n : Nat}
    (hline : ∀ p, p < n → line p ∈ g.cells) :
    lineTotal A m g line n =
      total A ((List.range n).map fun p => entry A.zero m g (line p).1 (line p).2) := by
  unfold lineTotal total
  rw [List.foldlM_map]
  refine foldlM_congr (fun acc p hp => ?_) A.zero
  obtain ⟨hi, hj⟩ := Grid.mem_cells_iff.mp (hline p (List.mem_range.mp hp))
  rw [placeOf, read_entry A.zero hm hi hj]
  rfl

theorem sumRows_haltsIn (A : Arithmetic α) (hm : requireHolds m.size g = .ok ())
    (hdst : dst.size = g.cols) :
    (sumRows A m g dst).HaltsIn fun t => ∃ j, j < g.cols ∧
      total A (column A.zero m g j) = .error t := by
  refine (sumRows_leavesPrefix A hdst hm).haltsIn.mono ?_
  rintro t ⟨j, hj, ht⟩
  have hj := List.mem_range.mp hj
  rw [lineTotal_eq A (requireHolds_eq_ok hm).2 fun i hi => Grid.mem_cells_iff.mpr ⟨hi, hj⟩] at ht
  exact ⟨j, hj, ht⟩

theorem sumColumns_haltsIn (A : Arithmetic α) (hm : requireHolds m.size g = .ok ())
    (hdst : dst.size = g.rows) :
    (sumColumns A m g dst).HaltsIn fun t => ∃ i, i < g.rows ∧
      total A (row A.zero m g i) = .error t := by
  refine (sumColumns_leavesPrefix A hdst hm).haltsIn.mono ?_
  rintro t ⟨i, hi, ht⟩
  have hi := List.mem_range.mp hi
  rw [lineTotal_eq A (requireHolds_eq_ok hm).2 fun j hj => Grid.mem_cells_iff.mpr ⟨hi, hj⟩] at ht
  exact ⟨i, hi, ht⟩

theorem softmax_haltsIn (A : Arithmetic α) (F : Analysis α) {src : Array α}
    (hs : requireHolds src.size g = .ok ()) (h : src.size = dst.size) :
    (softmax A F src g dst).HaltsIn fun t => ∃ i, i < g.rows ∧
      softmaxLine A F (row A.zero src g i) = .error t := by
  obtain ⟨hsize, hle⟩ := requireHolds_eq_ok hs
  rcases softmax_fillsRows A F hsize h hle with ⟨hends, -⟩ | ⟨i, hi, t, ht, hhalts⟩
  · intro e he
    rw [hends] at he
    cases he
  · intro e he
    rw [hhalts] at he
    cases he
    exact ⟨t, rfl, i, List.mem_range.mp hi, ht⟩

end

/-! ## Products -/

section

variable {A : Arithmetic α} {alpha beta : α} {a b c : Array α} {x : Extents}

/-- The computation of an element of a product traps. -/
def ProductTraps (entry : Nat × Nat → Except Trap α) (x : Extents) (t : Trap) : Prop :=
  ∃ i j, i < x.rows ∧ j < x.cols ∧ entry (i, j) = .error t

theorem haltsIn_of_leavesPrefix {entry : Nat × Nat → Except Trap α} {o : Outcome α}
    (h : LeavesPrefix (resultGrid x).cells Grid.Before (placeOf (resultGrid x))
      (fun cell => Halt.ofTrap (entry cell)) c o) : o.HaltsIn (ProductTraps entry x) := by
  refine h.haltsIn.mono ?_
  rintro t ⟨⟨i, j⟩, hcell, ht⟩
  obtain ⟨hi, hj⟩ := Grid.mem_cells_iff.mp hcell
  exact ⟨i, j, hi, hj, ht⟩

end

/-! ## Matrices, strides and kernels -/

/-- The elements of a matrix that can be counted have the places before its size, each of them one
place, and every step to a place is in range.  A transpose that is stored the other way has the same
places, and the strides of a product lead to the places of its operands.  Once the sizes have been
checked, a kernel halts only where the operations on elements trap: its values, taken at unchecked
places, decide.  A library that multiplies matrices finds all places of its contract in the buffers,
and such a product ends. -/
theorem indexing_spec (α : Type) :
    (∀ g : Grid, g.size < Size.limit →
      Set.BijOn (fun cell : Nat × Nat => g.offset cell.1 cell.2)
        {cell | cell.1 < g.rows ∧ cell.2 < g.cols} (Set.Iio g.size) ∧
      ∀ i j, i < g.rows → j < g.cols → g.checkedOffset i j = .ok (g.offset i j)) ∧
    (∀ rows cols t i j, (Grid.mk rows cols t).offset i j = (Grid.mk cols rows !t).offset j i) ∧
    (∀ x : Extents,
      (∀ i p, i * x.leftStrides.1 + p * x.leftStrides.2 =
        (Grid.mk x.rows x.inner x.transA).offset i p) ∧
      (∀ p j, p * x.rightStrides.1 + j * x.rightStrides.2 =
        (Grid.mk x.inner x.cols x.transB).offset p j) ∧
      (x.rows * x.inner < Size.limit → ∀ i p, i < x.rows → p < x.inner →
        Extents.strided x.leftStrides i p = .ok ((Grid.mk x.rows x.inner x.transA).offset i p)) ∧
      (x.inner * x.cols < Size.limit → ∀ p j, p < x.inner → j < x.cols →
        Extents.strided x.rightStrides p j =
          .ok ((Grid.mk x.inner x.cols x.transB).offset p j))) ∧
    (∀ (f : α → α → Except Trap α) (v m : Array α) (g : Grid), requireHolds m.size g = .ok () →
      (v.size = g.cols → (broadcastRow f v g m).HaltsIn (TrapsAt f v (·.2) g m)) ∧
      (v.size = g.rows → (broadcastColumn f v g m).HaltsIn (TrapsAt f v (·.1) g m))) ∧
    (∀ (A : Arithmetic α) (m : Array α) (g : Grid) (dst : Array α),
      requireHolds m.size g = .ok () →
        (dst.size = g.cols → (sumRows A m g dst).HaltsIn fun t =>
          ∃ j, j < g.cols ∧ total A (column A.zero m g j) = .error t) ∧
        (dst.size = g.rows → (sumColumns A m g dst).HaltsIn fun t =>
          ∃ i, i < g.rows ∧ total A (row A.zero m g i) = .error t)) ∧
    (∀ (A : Arithmetic α) (F : Analysis α) (src : Array α) (g : Grid) (dst : Array α),
      requireHolds src.size g = .ok () → src.size = dst.size →
        (softmax A F src g dst).HaltsIn fun t =>
          ∃ i, i < g.rows ∧ softmaxLine A F (row A.zero src g i) = .error t) ∧
    ∀ (A : Arithmetic α) (alpha : α) (a b : Array α) (beta : α) (x : Extents) (c : Array α),
      requireProduct x a.size b.size c.size = .ok () →
        (product A alpha a b beta x c).HaltsIn
          (ProductTraps (productEntry A alpha a b beta x c) x) ∧
        Inside x a.size b.size c.size ∧
        ∀ P : WideProduct A, (wideProduct A P alpha a b beta x c).2 = .ok () := by
  refine ⟨fun g hsize => ⟨g.offset_bijOn, fun i j => Grid.checkedOffset_of_lt hsize⟩,
    fun rows cols t i j => (Grid.offset_transpose ⟨rows, cols, t⟩ i j).symm,
    fun x => ⟨?_, ?_, ?_, ?_⟩,
    fun f v m g hm => ⟨broadcastRow_haltsIn f hm, broadcastColumn_haltsIn f hm⟩,
    fun A m g dst hm => ⟨sumRows_haltsIn A hm, sumColumns_haltsIn A hm⟩,
    fun A F src g dst => softmax_haltsIn A F, fun A alpha a b beta x c h =>
      ⟨haltsIn_of_leavesPrefix (product_leavesPrefix A alpha beta h),
        (holdsProduct_of_require h).inside,
        fun P => congrArg Prod.snd (wideProduct_of_require P alpha beta h)⟩⟩
  · exact fun i p => (x.leftGrid_offset i p).symm
  · exact fun p j => (x.rightGrid_offset p j).symm
  · exact fun hsize i p hi hp => Extents.strided_left hsize hi hp
  · exact fun hsize p j hp hj => Extents.strided_right hsize hp hj

/-- A matrix of `2 ^ 64 - 1` elements is at the edge of what can be counted.  A sum over the columns
of a transposed matrix halts as one of its rows does; kernels end that have no elements to work on,
or nothing to sum. -/
theorem indexing_spec_edge :
    (Grid.mk (2 ^ 32 - 1) (2 ^ 32 + 1) true).size < Size.limit ∧
      (Grid.mk (2 ^ 32 - 1) (2 ^ 32 + 1) true).checkedOffset (2 ^ 32 - 2) (2 ^ 32) =
        .ok (2 ^ 64 - 2) ∧
      Extents.strided (Extents.leftStrides { rows := 2 ^ 63, inner := 1 }) (2 ^ 63 - 1) 0 =
        .ok (2 ^ 63 - 1) ∧
      Extents.strided (Extents.rightStrides { inner := 1, cols := 2 ^ 63, transB := true }) 0
        (2 ^ 63 - 1) = .ok (2 ^ 63 - 1) ∧
      (∃ i, i < 2 ∧ total (Word.arithmetic 8) (row 0 #[1, 100, 3, 100] ⟨2, 2, true⟩ i) =
        .error (.overflow .add)) ∧
      (broadcastRow Word.add (#[] : Array (BitVec 8)) ⟨3, 0, false⟩ #[]).2 = .ok () ∧
      (softmax rational stepped #[1, 2, 4] ⟨1, 2, true⟩ #[0, 0, 0]).2 = .ok () ∧
      (product (Word.arithmetic 8) 1 #[] #[] 0 { rows := 1, cols := 1 } #[5]).2 = .ok () := by
  have hsize : (Grid.mk (2 ^ 32 - 1) (2 ^ 32 + 1) true).size < Size.limit := by decide
  obtain ⟨hgrid, -, hstrides, hbroadcast, hsum, -, hproduct⟩ := indexing_spec (BitVec 8)
  obtain ⟨-, -, -, -, -, hsoftmax, -⟩ := indexing_spec Rat
  have hhalts := (hsum (Word.arithmetic 8) #[1, 100, 3, 100] ⟨2, 2, true⟩ #[9, 9] rfl).2 rfl
  obtain ⟨t, ht, hrow⟩ := hhalts (.trap (.overflow .add)) (by decide +kernel)
  cases ht
  refine ⟨hsize, (hgrid _ hsize).2 _ _ (by decide) (by decide),
    (hstrides { rows := 2 ^ 63, inner := 1 }).2.2.1 (by decide) _ _ (by decide) (by decide),
    (hstrides { inner := 1, cols := 2 ^ 63, transB := true }).2.2.2 (by decide) _ _ (by decide)
      (by decide), hrow, ?_, ?_, ?_⟩
  · refine ((hbroadcast Word.add #[] #[] ⟨3, 0, false⟩ rfl).1 rfl).ends ?_
    rintro t ⟨i, j, old, x, -, hj, -⟩
    exact Nat.not_lt_zero j hj
  · refine (hsoftmax rational stepped #[1, 2, 4] ⟨1, 2, true⟩ #[0, 0, 0] rfl rfl).ends ?_
    rintro t ⟨i, -, ht⟩
    have hline := softmaxLine_of_total (A := rational) (fun _ _ => rfl) (fun _ _ => rfl)
      (fun _ _ => rfl) stepped (row 0 #[1, 2, 4] ⟨1, 2, true⟩ i)
    cases hline.symm.trans ht
  · refine (hproduct (Word.arithmetic 8) 1 #[] #[] 0 { rows := 1, cols := 1 } #[5] rfl).1.ends ?_
    rintro t ⟨i, j, -, -, ht⟩
    cases ht

end Kernel

end DeviceTensor
