import DeviceTensor.Kernel.Product
import DeviceTensor.Proofs.Grid.Order
import DeviceTensor.Proofs.Kernel.Completion
import DeviceTensor.Proofs.Kernel.Library
set_option autoImplicit false

/-!
# Kernels and the storage order of their matrices

Two buffers are laid alike if they hold the same matrix, each in a storage order of its own.  From
buffers that are laid alike every kernel leaves buffers that are laid alike, over any arithmetic: it
finds the same elements, sums them in the same order, and halts on the one if it halts on the other.
-/

namespace DeviceTensor

open DeviceTensor.Except

/-- The buffers hold the same matrix, in the storage orders of the two grids. -/
structure Laid {α : Type} (g : Grid) (xs : Array α) (g' : Grid) (ys : Array α) : Prop where
  rows : g'.rows = g.rows
  cols : g'.cols = g.cols
  size : xs.size = g.size
  size' : ys.size = g.size
  same : ∀ i j, i < g.rows → j < g.cols → ys[g'.offset i j]? = xs[g.offset i j]?

namespace Laid

variable {α : Type} {g g' : Grid} {xs ys : Array α}

theorem size_grid (h : Laid g xs g' ys) : g'.size = g.size := by
  unfold Grid.size
  rw [h.rows, h.cols]

theorem cells (h : Laid g xs g' ys) : g'.cells = g.cells := by
  unfold Grid.cells
  rw [h.rows, h.cols]

theorem symm (h : Laid g xs g' ys) : Laid g' ys g xs where
  rows := h.rows.symm
  cols := h.cols.symm
  size := h.size'.trans h.size_grid.symm
  size' := h.size.trans h.size_grid.symm
  same i j hi hj := (h.same i j (h.rows ▸ hi) (h.cols ▸ hj)).symm

theorem refl (h : xs.size = g.size) : Laid g xs g xs := ⟨rfl, rfl, h, h, fun _ _ _ _ => rfl⟩

/-- One element throughout is laid alike in every storage order. -/
theorem replicate (hrows : g'.rows = g.rows) (hcols : g'.cols = g.cols) (x : α) :
    Laid g (Array.replicate g.size x) g' (Array.replicate g.size x) where
  rows := hrows
  cols := hcols
  size := Array.size_replicate
  size' := Array.size_replicate
  same i j hi hj := by
    have hsize : g'.size = g.size := by
      unfold Grid.size
      rw [hrows, hcols]
    have hlt := Grid.offset_lt_size hi hj
    have hlt' := Grid.offset_lt_size (g := g') (hrows ▸ hi) (hcols ▸ hj)
    rw [Array.getElem?_replicate, Array.getElem?_replicate, if_pos hlt, if_pos (hsize ▸ hlt')]

/-- Buffers in one storage order are laid alike only if they are equal. -/
theorem eq (h : Laid g xs g ys) : ys = xs := by
  apply Array.ext_getElem?
  intro n
  by_cases hn : n < g.size
  · obtain ⟨i, j, hi, hj, rfl⟩ := Grid.exists_offset_eq hn
    exact h.same i j hi hj
  · rw [Array.getElem?_eq_none (h.size' ▸ Nat.le_of_not_lt hn),
      Array.getElem?_eq_none (h.size ▸ Nat.le_of_not_lt hn)]

theorem offset_lt (h : Laid g xs g' ys) {i j : Nat} (hi : i < g.rows) (hj : j < g.cols) :
    g.offset i j < xs.size :=
  h.size ▸ Grid.offset_lt_size hi hj

/-- An element of the matrix is read from either buffer. -/
theorem read (h : Laid g xs g' ys) {i j : Nat} (hi : i < g.rows) (hj : j < g.cols) :
    Buffer.read ys (g'.offset i j) = Buffer.read xs (g.offset i j) := by
  have hx := h.offset_lt hi hj
  have hy := h.symm.offset_lt (h.rows ▸ hi) (h.cols ▸ hj)
  have hsame := h.same i j hi hj
  rw [Array.getElem?_eq_getElem hx, Array.getElem?_eq_getElem hy] at hsame
  rw [Buffer.read_of_lt hx, Buffer.read_of_lt hy, Option.some.inj hsame]

/-- The place of an element is computed for either buffer. -/
theorem checkedOffset (h : Laid g xs g' ys) (hsize : g.size < Size.limit) {i j : Nat}
    (hi : i < g.rows) (hj : j < g.cols) :
    Follows (fun k k' => k = g.offset i j ∧ k' = g'.offset i j) (g.checkedOffset i j)
      (g'.checkedOffset i j) := by
  rw [Grid.checkedOffset_of_lt hsize hi hj,
    Grid.checkedOffset_of_lt (h.size_grid ▸ hsize) (h.rows ▸ hi) (h.cols ▸ hj)]
  exact .ok ⟨rfl, rfl⟩

/-- An element of the matrix is stored in either buffer. -/
theorem set (h : Laid g xs g' ys) {i j : Nat} (hi : i < g.rows) (hj : j < g.cols) (x : α) :
    Laid g (xs.setIfInBounds (g.offset i j) x) g' (ys.setIfInBounds (g'.offset i j) x) where
  rows := h.rows
  cols := h.cols
  size := by rw [Array.size_setIfInBounds, h.size]
  size' := by rw [Array.size_setIfInBounds, h.size']
  same k l hk hl := by
    have hi' : i < g'.rows := h.rows ▸ hi
    have hj' : j < g'.cols := h.cols ▸ hj
    have hk' : k < g'.rows := h.rows ▸ hk
    have hl' : l < g'.cols := h.cols ▸ hl
    by_cases hkl : i = k ∧ j = l
    · obtain ⟨rfl, rfl⟩ := hkl
      have hx := h.offset_lt hi hj
      have hy := h.symm.offset_lt hi' hj'
      rw [Array.getElem?_setIfInBounds_self_of_lt hy, Array.getElem?_setIfInBounds_self_of_lt hx]
    · have hne : g.offset i j ≠ g.offset k l := fun heq => hkl (Grid.offset_inj hi hj hk hl heq)
      have hne' : g'.offset i j ≠ g'.offset k l := fun heq =>
        hkl (Grid.offset_inj hi' hj' hk' hl' heq)
      rw [Array.getElem?_setIfInBounds_ne hne', Array.getElem?_setIfInBounds_ne hne]
      exact h.same k l hk hl

/-- An element of the matrix lies in memory that starts with either buffer. -/
theorem memoryFrom_eq (h : Laid g xs g' ys) (filler : α) {i j : Nat} (hi : i < g.rows)
    (hj : j < g.cols) :
    Kernel.memoryFrom filler ys (g'.offset i j) = Kernel.memoryFrom filler xs (g.offset i j) := by
  unfold Kernel.memoryFrom
  rw [Array.getD_eq_getD_getElem?, Array.getD_eq_getD_getElem?, h.same i j hi hj]

end Laid

theorem Buffer.read_setIfInBounds_of_ne {α : Type} {xs : Array α} {k l : Nat} {x : α}
    (h : l ≠ k) : Buffer.read (xs.setIfInBounds l x) k = Buffer.read xs k := by
  unfold Buffer.read
  rw [Array.getElem?_setIfInBounds_ne h, Array.size_setIfInBounds]

/-! ## Sweeps over a matrix -/

namespace Kernel

variable {ι α β : Type} {g g' : Grid}

/-- The steps store the same value at the same element of the matrix. -/
def SameCell (g g' : Grid) (p p' : Nat × α) : Prop :=
  ∃ i j, i < g.rows ∧ j < g.cols ∧ p.1 = g.offset i j ∧ p'.1 = g'.offset i j ∧ p'.2 = p.2

/-- Sweeps that store the same values at the same elements, one after the other. -/
theorem sweep_laid {place place' : ι → Array α → Except Halt (Nat × α)} {cs : List ι}
    (hstep : ∀ c ∈ cs, ∀ dst dst', Laid g dst g' dst' →
      Follows (SameCell g g') (place c dst) (place' c dst'))
    {dst dst' : Array α} (h : Laid g dst g' dst') :
    Follows (Laid g · g' ·) (sweep place cs dst).done (sweep place' cs dst').done := by
  refine Outcome.done_sweep_follows (fun c hc m m' hm => ?_) h
  refine (hstep c hc m m' hm).mono ?_
  rintro ⟨n, x⟩ ⟨n', x'⟩ ⟨i, j, hi, hj, rfl, rfl, rfl⟩ -
  exact ⟨hm.symm.offset_lt (hm.rows ▸ hi) (hm.cols ▸ hj), hm.set hi hj _⟩

/-- A sweep in the order of storage leaves what a sweep row by row leaves. -/
theorem sweep_offsets {place : Nat → Array α → Except Halt (Nat × α)}
    (h : Outcome.Separate place) (g : Grid) (dst : Array α) :
    Follows (· = ·) (sweep place (List.range g.size) dst).done
        (sweep (fun cell => place (g.offset cell.1 cell.2)) g.cells dst).done ∧
      Follows (· = ·) (sweep (fun cell => place (g.offset cell.1 cell.2)) g.cells dst).done
        (sweep place (List.range g.size) dst).done := by
  have hmap := Outcome.sweep_map place (fun cell : Nat × Nat => g.offset cell.1 cell.2) g.cells dst
  rw [← hmap]
  exact ⟨Outcome.done_sweep_perm h g.offsets_perm.symm dst,
    Outcome.done_sweep_perm h g.offsets_perm dst⟩

/-- Sweeps in the order of storage that store the same values at the same elements. -/
theorem sweep_storage_laid {place place' : Nat → Array α → Except Halt (Nat × α)}
    (hsep : Outcome.Separate place) (hsep' : Outcome.Separate place')
    (hstep : ∀ i j, i < g.rows → j < g.cols → ∀ dst dst', Laid g dst g' dst' →
      Follows (SameCell g g') (place (g.offset i j) dst) (place' (g'.offset i j) dst'))
    {dst dst' : Array α} (h : Laid g dst g' dst') :
    Follows (Laid g · g' ·) (sweep place (List.range g.size) dst).done
      (sweep place' (List.range g.size) dst').done := by
  have hcells : Follows (Laid g · g' ·)
      (sweep (fun cell => place (g.offset cell.1 cell.2)) g.cells dst).done
      (sweep (fun cell => place' (g'.offset cell.1 cell.2)) g.cells dst').done := by
    refine sweep_laid (fun cell hcell m m' hm => ?_) h
    obtain ⟨hi, hj⟩ := Grid.mem_cells_iff.mp hcell
    exact hstep cell.1 cell.2 hi hj m m' hm
  intro r hr
  obtain ⟨_, hrows, rfl⟩ := (sweep_offsets hsep g dst).1 r hr
  obtain ⟨r', hrows', hlaid⟩ := hcells _ hrows
  rw [← h.cells] at hrows'
  obtain ⟨_, hr', rfl⟩ := (sweep_offsets hsep' g' dst').2 r' hrows'
  rw [h.size_grid] at hr'
  exact ⟨_, hr', hlaid⟩

theorem requireEqual_follows (left right : Nat) :
    Follows (fun _ _ => left = right) (requireEqual left right) (requireEqual left right) := by
  intro u hu
  exact ⟨u, hu, eq_of_requireEqual hu⟩

/-- A matrix that fits has elements that can be counted. -/
theorem requireHolds_follows (n : Nat) {m m' : Array α} (h : Laid g m g' m') :
    Follows (fun _ _ => g.size < Size.limit) (requireHolds n g) (requireHolds n g') := by
  have hsame : requireHolds n g' = requireHolds n g := by
    unfold requireHolds Grid.checkedSize
    rw [h.rows, h.cols]
  rw [hsame]
  intro u hu
  refine ⟨u, hu, ?_⟩
  obtain ⟨_, hn, -⟩ := bind_eq_ok_iff.mp hu
  cases hsize : g.checkedSize with
  | ok k => exact (Size.mul_eq_ok_iff.mp hsize).1
  | error t =>
    rw [hsize] at hn
    cases hn

theorem requireBroadcast_follows (k l n : Nat) {m m' : Array α} (h : Laid g m g' m') :
    Follows (fun _ _ => g.size < Size.limit) (requireEqual k l *> requireHolds n g)
      (requireEqual k l *> requireHolds n g') := by
  cases requireEqual k l with
  | ok u => exact requireHolds_follows n h
  | error e =>
    intro u hu
    cases hu

/-! ## Element by element -/

variable {f : α → Except Trap β} {A : Arithmetic α}

/-- Steps that read the elements of a matrix, and store what they make of them where they lie. -/
theorem sameCell_step {i j : Nat} (hi : i < g.rows) (hj : j < g.cols) (x : Except Trap β) :
    Follows (SameCell g g') (Halt.ofTrap x >>= fun y => Pure.pure (g.offset i j, y))
      (Halt.ofTrap x >>= fun y => Pure.pure (g'.offset i j, y)) := by
  refine .step (.of_eq rfl) fun y y' hy => .ok ?_
  subst hy
  exact ⟨i, j, hi, hj, rfl, rfl, rfl⟩

theorem map_laid (f : α → Except Trap β) {src src' : Array α} {dst dst' : Array β}
    (hs : Laid g src g' src') (hd : Laid g dst g' dst') :
    Follows (Laid g · g' ·) (map f src dst).done (map f src' dst').done := by
  have hsep (src : Array α) : Outcome.Separate fun i (_ : Array β) => (do
      let x ← Buffer.read src i
      let y ← f x
      return (i, y) : Except Halt (Nat × β)) :=
    ⟨fun k _ => .bind fun _ => .bind fun y => .pure k y, fun _ _ _ _ _ => rfl⟩
  unfold map
  rw [Outcome.done_checked, Outcome.done_checked, hs.size, hs.size', hd.size, hd.size']
  refine .bind (requireEqual_follows _ _) fun _ _ _ => ?_
  refine sweep_storage_laid (hsep src) (hsep src') (fun i j hi hj _ _ _ => ?_) hd
  refine .step (.of_eq (hs.read hi hj)) fun x x' hx => ?_
  subst hx
  exact sameCell_step hi hj (f x)

theorem zip_laid (f : α → α → Except Trap β) {lhs lhs' rhs rhs' : Array α} {dst dst' : Array β}
    (hl : Laid g lhs g' lhs') (hr : Laid g rhs g' rhs') (hd : Laid g dst g' dst') :
    Follows (Laid g · g' ·) (zip f lhs rhs dst).done (zip f lhs' rhs' dst').done := by
  have hsep (lhs rhs : Array α) : Outcome.Separate fun i (_ : Array β) => (do
      let x ← Buffer.read lhs i
      let y ← Buffer.read rhs i
      let z ← f x y
      return (i, z) : Except Halt (Nat × β)) :=
    ⟨fun k _ => .bind fun _ => .bind fun _ => .bind fun z => .pure k z, fun _ _ _ _ _ => rfl⟩
  unfold zip
  rw [Outcome.done_checked, Outcome.done_checked, hl.size, hl.size', hr.size, hr.size', hd.size,
    hd.size']
  refine .bind (.of_eq rfl) fun _ _ _ => ?_
  refine sweep_storage_laid (hsep lhs rhs) (hsep lhs' rhs') (fun i j hi hj _ _ _ => ?_) hd
  refine .step (.of_eq (hl.read hi hj)) fun x x' hx => ?_
  refine .step (.of_eq (hr.read hi hj)) fun y y' hy => ?_
  subst hx hy
  exact sameCell_step hi hj (f x y)

theorem addScaled_laid (A : Arithmetic α) (alpha : α) {src src' dst dst' : Array α}
    (hs : Laid g src g' src') (hd : Laid g dst g' dst') :
    Follows (Laid g · g' ·) (addScaled A alpha src dst).done
      (addScaled A alpha src' dst').done := by
  have hsep (src : Array α) : Outcome.Separate fun i (dst : Array α) => (do
      let x ← Buffer.read src i
      let y ← Buffer.read dst i
      let scaled ← A.mul alpha x
      let z ← A.add scaled y
      return (i, z) : Except Halt (Nat × α)) := by
    refine ⟨fun k _ => .bind fun _ => .bind fun _ => .bind fun _ => .bind fun z => .pure k z, ?_⟩
    intro k dst l x hne
    rw [Buffer.read_setIfInBounds_of_ne hne]
  unfold addScaled
  rw [Outcome.done_checked, Outcome.done_checked, hs.size, hs.size', hd.size, hd.size']
  refine .bind (.of_eq rfl) fun _ _ _ => ?_
  refine sweep_storage_laid (hsep src) (hsep src') (fun i j hi hj m m' hm => ?_) hd
  refine .step (.of_eq (hs.read hi hj)) fun x x' hx => ?_
  refine .step (.of_eq (hm.read hi hj)) fun y y' hy => ?_
  subst hx hy
  refine .step (.of_eq rfl) fun scaled scaled' hscaled => ?_
  subst hscaled
  exact sameCell_step hi hj (A.add scaled y)

/-! ## Rows and columns -/

/-- A vector that is combined with a matrix, as `k` assigns its elements to the cells. -/
theorem combine_laid (f : α → α → Except Trap α) (v : Array α) (k : Nat × Nat → Nat)
    (hsize : g.size < Size.limit) {m m' : Array α} (hm : Laid g m g' m') :
    Follows (Laid g · g' ·) (sweep (combineAt f v g k) g.cells m).done
      (sweep (combineAt f v g' k) g'.cells m').done := by
  rw [hm.cells]
  refine sweep_laid (fun cell hcell n n' hn => ?_) hm
  obtain ⟨hi, hj⟩ := Grid.mem_cells_iff.mp hcell
  have hi' : cell.1 < g'.rows := hm.rows ▸ hi
  have hj' : cell.2 < g'.cols := hm.cols ▸ hj
  refine .step (hm.checkedOffset hsize hi hj) fun place place' hplace => ?_
  obtain ⟨rfl, rfl⟩ := hplace
  refine .step (.of_eq (hn.read hi hj)) fun old old' hold => ?_
  refine .step (.of_eq rfl) fun x x' hx => ?_
  subst hold hx
  exact sameCell_step hi hj (f old x)

theorem broadcastRow_laid (f : α → α → Except Trap α) (v : Array α) {m m' : Array α}
    (hm : Laid g m g' m') :
    Follows (Laid g · g' ·) (broadcastRow f v g m).done (broadcastRow f v g' m').done := by
  unfold broadcastRow
  rw [Outcome.done_checked, Outcome.done_checked, hm.size, hm.size', hm.cols]
  refine .bind (requireBroadcast_follows _ _ _ hm) fun _ _ hsize => ?_
  exact combine_laid f v (·.2) hsize hm

theorem broadcastColumn_laid (f : α → α → Except Trap α) (v : Array α) {m m' : Array α}
    (hm : Laid g m g' m') :
    Follows (Laid g · g' ·) (broadcastColumn f v g m).done (broadcastColumn f v g' m').done := by
  unfold broadcastColumn
  rw [Outcome.done_checked, Outcome.done_checked, hm.size, hm.size', hm.rows]
  refine .bind (requireBroadcast_follows _ _ _ hm) fun _ _ hsize => ?_
  exact combine_laid f v (·.1) hsize hm

theorem addElement_follows (A : Arithmetic α) (hsize : g.size < Size.limit) {m m' : Array α}
    (hm : Laid g m g' m') (acc : α) {i j : Nat} (hi : i < g.rows) (hj : j < g.cols) :
    Follows (· = ·) (addElement A m g acc i j) (addElement A m' g' acc i j) := by
  refine .bind (hm.checkedOffset hsize hi hj) fun place place' hplace => ?_
  obtain ⟨rfl, rfl⟩ := hplace
  refine .bind (.of_eq (hm.read hi hj)) fun x x' hx => ?_
  subst hx
  exact .of_eq rfl

/-- A step that stores the same value at the same place of equal buffers. -/
theorem set_refl {k : Grid} {dst : Array α} (h : Laid k dst k dst) {p p' : Nat × α} (hp : p = p')
    (hlt : p.1 < dst.size) : p'.1 < dst.size ∧
      Laid k (dst.setIfInBounds p.1 p.2) k (dst.setIfInBounds p'.1 p'.2) := by
  subst hp
  exact ⟨hlt, .refl (by rw [Array.size_setIfInBounds, h.size])⟩

theorem sumRows_laid (A : Arithmetic α) {k : Grid} {m m' dst dst' : Array α}
    (hm : Laid g m g' m') (hd : Laid k dst k dst') :
    Follows (Laid k · k ·) (sumRows A m g dst).done (sumRows A m' g' dst').done := by
  obtain rfl := hd.eq
  unfold sumRows
  rw [Outcome.done_checked, Outcome.done_checked, hm.size, hm.size', hm.cols, hm.rows]
  refine .bind (requireBroadcast_follows _ _ _ hm) fun _ _ hsize => ?_
  refine Outcome.done_sweep_follows (fun j hj n n' hn => ?_) hd
  obtain rfl := hn.eq
  refine .bind (.foldlM (fun i hi acc acc' hacc => .ofTrap ?_) rfl) fun sum sum' hsum => .ok ?_
  · subst hacc
    exact addElement_follows A hsize hm acc (List.mem_range.mp hi) (List.mem_range.mp hj)
  · exact set_refl hn (by rw [hsum])

theorem sumColumns_laid (A : Arithmetic α) {k : Grid} {m m' dst dst' : Array α}
    (hm : Laid g m g' m') (hd : Laid k dst k dst') :
    Follows (Laid k · k ·) (sumColumns A m g dst).done (sumColumns A m' g' dst').done := by
  obtain rfl := hd.eq
  unfold sumColumns
  rw [Outcome.done_checked, Outcome.done_checked, hm.size, hm.size', hm.cols, hm.rows]
  refine .bind (requireBroadcast_follows _ _ _ hm) fun _ _ hsize => ?_
  refine Outcome.done_sweep_follows (fun i hi n n' hn => ?_) hd
  obtain rfl := hn.eq
  refine .bind (.foldlM (fun j hj acc acc' hacc => .ofTrap ?_) rfl) fun sum sum' hsum => .ok ?_
  · subst hacc
    exact addElement_follows A hsize hm acc (List.mem_range.mp hi) (List.mem_range.mp hj)
  · exact set_refl hn (by rw [hsum])

/-! ## Softmax -/

theorem rowMaximum_follows (F : Analysis α) (hsize : g.size < Size.limit) {m m' : Array α}
    (hm : Laid g m g' m') {i : Nat} (hi : i < g.rows) :
    Follows (· = ·) (rowMaximum F m g i) (rowMaximum F m' g' i) := by
  unfold rowMaximum
  rw [hm.cols]
  refine .foldlM (fun j hj top top' htop => ?_) rfl
  subst htop
  have hread : Follows (· = ·) (readCell m g i j) (readCell m' g' i j) := by
    refine .bind (hm.checkedOffset hsize hi (List.mem_range.mp hj)) fun place place' hplace => ?_
    obtain ⟨rfl, rfl⟩ := hplace
    exact .of_eq (hm.read hi (List.mem_range.mp hj))
  refine .bind hread fun x x' hx => .ok ?_
  rw [hx]

theorem shiftedAt_follows (A : Arithmetic α) (F : Analysis α) (hsize : g.size < Size.limit)
    {src src' : Array α} (hs : Laid g src g' src') {i : Nat} (hi : i < g.rows) (top : α) {j : Nat}
    (hj : j < g.cols) :
    Follows (fun p p' => p.1 = g.offset i j ∧ p'.1 = g'.offset i j ∧ p'.2 = p.2)
      (shiftedAt A F src g i top j) (shiftedAt A F src' g' i top j) := by
  refine .bind (hs.checkedOffset hsize hi hj) fun place place' hplace => ?_
  obtain ⟨rfl, rfl⟩ := hplace
  refine .bind (.of_eq (hs.read hi hj)) fun x x' hx => ?_
  subst hx
  refine .bind (.of_eq rfl) fun y y' hy => .ok ?_
  subst hy
  exact ⟨rfl, rfl, rfl⟩

theorem shiftRow_laid (A : Arithmetic α) (F : Analysis α) (hsize : g.size < Size.limit)
    {src src' : Array α} (hs : Laid g src g' src') {i : Nat} (hi : i < g.rows) (top : α)
    {next next' : α → Array α → Outcome α}
    (hn : ∀ sum m m', Laid g m g' m' →
      Follows (Laid g · g' ·) (next sum m).done (next' sum m').done)
    {js : List Nat} (hjs : ∀ j ∈ js, j < g.cols) (sum : α) {dst dst' : Array α}
    (hd : Laid g dst g' dst') :
    Follows (Laid g · g' ·) (shiftRow A F src g i top next js sum dst).done
      (shiftRow A F src' g' i top next' js sum dst').done := by
  induction js generalizing sum dst dst' with
  | nil => exact hn sum dst dst' hd
  | cons j js ih =>
    obtain ⟨hj, hjs⟩ := List.forall_mem_cons.mp hjs
    unfold shiftRow
    rw [Outcome.done_withValue, Outcome.done_withValue]
    refine .step (shiftedAt_follows A F hsize hs hi top hj) ?_
    rintro ⟨n, x⟩ ⟨n', x'⟩ ⟨rfl, rfl, hx⟩
    obtain rfl : x' = x := hx
    rw [Outcome.done_withValue, Outcome.done_withValue]
    have hlt := hd.symm.offset_lt (hd.rows ▸ hi) (hd.cols ▸ hj)
    have hstore : Follows (Laid g · g' ·) (Buffer.store dst (g.offset i j) x')
        (Buffer.store dst' (g'.offset i j) x') := .store fun _ => ⟨hlt, hd.set hi hj x'⟩
    refine .step hstore fun m m' hm => ?_
    rw [Outcome.done_withValue, Outcome.done_withValue]
    refine .step (.of_eq rfl) fun sum sum' hsum => ?_
    subst hsum
    exact ih hjs sum hm

theorem divideRow_laid (A : Arithmetic α) (hsize : g.size < Size.limit) {dst dst' : Array α}
    {i : Nat} (hi : i < g.rows) (denominator : α) (hd : Laid g dst g' dst') :
    Follows (Laid g · g' ·) (divideRow A g i denominator dst).done
      (divideRow A g' i denominator dst').done := by
  unfold divideRow
  rw [hd.cols]
  refine sweep_laid (fun j hj n n' hn => ?_) hd
  have hj := List.mem_range.mp hj
  refine .step (hn.checkedOffset hsize hi hj) fun place place' hplace => ?_
  obtain ⟨rfl, rfl⟩ := hplace
  refine .step (.of_eq (hn.read hi hj)) fun x x' hx => ?_
  subst hx
  exact sameCell_step hi hj (A.div x denominator)

theorem softmaxRow_laid (A : Arithmetic α) (F : Analysis α) (hsize : g.size < Size.limit)
    {src src' dst dst' : Array α} (hs : Laid g src g' src') {i : Nat} (hi : i < g.rows)
    (hd : Laid g dst g' dst') :
    Follows (Laid g · g' ·) (softmaxRow A F src g dst i).done
      (softmaxRow A F src' g' dst' i).done := by
  unfold softmaxRow
  rw [Outcome.done_withValue, Outcome.done_withValue]
  refine .step (rowMaximum_follows F hsize hs hi) fun top top' htop => ?_
  subst htop
  rw [hs.cols]
  refine shiftRow_laid A F hsize hs hi top (fun denominator m m' hm => ?_)
    (fun j hj => List.mem_range.mp hj) A.zero hd
  exact divideRow_laid A hsize hi denominator hm

theorem softmax_laid (A : Arithmetic α) (F : Analysis α) {src src' dst dst' : Array α}
    (hs : Laid g src g' src') (hd : Laid g dst g' dst') :
    Follows (Laid g · g' ·) (softmax A F src g dst).done (softmax A F src' g' dst').done := by
  unfold softmax
  rw [Outcome.done_checked, Outcome.done_checked, hs.size, hs.size', hd.size, hd.size', hs.rows]
  refine .bind (requireBroadcast_follows _ _ _ hs) fun _ _ hsize => ?_
  have hrows (is : List Nat) : (∀ i ∈ is, i < g.rows) → ∀ o o' : Outcome α,
      Follows (Laid g · g' ·) o.done o'.done →
      Follows (Laid g · g' ·)
        (is.foldl (fun o i => andThen o fun dst => softmaxRow A F src g dst i) o).done
        (is.foldl (fun o i => andThen o fun dst => softmaxRow A F src' g' dst i) o').done := by
    induction is with
    | nil => exact fun _ _ _ ho => ho
    | cons i is ih =>
      intro his o o' ho
      refine ih (fun i' hi' => his i' (List.mem_cons_of_mem i hi')) _ _ ?_
      rw [Outcome.done_andThen, Outcome.done_andThen]
      refine .bind ho fun m m' hm => ?_
      exact softmaxRow_laid A F hsize hs (his i List.mem_cons_self) hm
  exact hrows _ (fun i hi => List.mem_range.mp hi) (dst, .ok ()) (dst', .ok ()) (.ok hd)

/-! ## Products -/

variable {x x' : Extents} {a a' b b' : Array α}

/-- The operands of a product hold the same matrices. -/
structure Operands (x : Extents) (a b : Array α) (x' : Extents) (a' b' : Array α) : Prop where
  left : Laid x.leftGrid a x'.leftGrid a'
  right : Laid x.rightGrid b x'.rightGrid b'

namespace Operands

theorem rows (h : Operands x a b x' a' b') : x'.rows = x.rows := h.left.rows

theorem inner (h : Operands x a b x' a' b') : x'.inner = x.inner := h.left.cols

theorem cols (h : Operands x a b x' a' b') : x'.cols = x.cols := h.right.cols

end Operands

/-- Operands that fit have elements that can be counted. -/
theorem requireProduct_follows (h : Operands x a b x' a' b') (n : Nat) :
    Follows (fun _ _ => x.leftGrid.size < Size.limit ∧ x.rightGrid.size < Size.limit)
      (requireProduct x a.size b.size n) (requireProduct x' a'.size b'.size n) := by
  have hsame : requireProduct x' a'.size b'.size n = requireProduct x a.size b.size n := by
    unfold requireProduct
    rw [h.rows, h.cols, h.inner, h.left.size, h.left.size', h.right.size, h.right.size']
  have hoperand {size rows cols : Nat} {u : Unit} (hu : requireOperand size rows cols = .ok u) :
      rows * cols < Size.limit := by
    obtain ⟨_, hn, -⟩ := bind_eq_ok_iff.mp hu
    cases hsize : Size.mul rows cols with
    | ok k => exact (Size.mul_eq_ok_iff.mp hsize).1
    | error t =>
      rw [hsize] at hn
      cases hn
  rw [hsame]
  intro u hu
  obtain ⟨_, hleft, hrest⟩ := bind_eq_ok_iff.mp hu
  obtain ⟨_, hright, -⟩ := bind_eq_ok_iff.mp hrest
  exact ⟨u, hu, hoperand hleft, hoperand hright⟩

theorem innerProduct_follows (A : Arithmetic α) (h : Operands x a b x' a' b')
    (hleft : x.leftGrid.size < Size.limit) (hright : x.rightGrid.size < Size.limit) {i j : Nat}
    (hi : i < x.rows) (hj : j < x.cols) :
    Follows (· = ·) (innerProduct A x a b i j) (innerProduct A x' a' b' i j) := by
  have hleft' : x'.leftGrid.size < Size.limit := h.left.size_grid ▸ hleft
  have hright' : x'.rightGrid.size < Size.limit := h.right.size_grid ▸ hright
  unfold innerProduct
  rw [h.inner]
  refine .foldlM (fun p hp acc acc' hacc => ?_) rfl
  have hp := List.mem_range.mp hp
  have hi' : i < x'.rows := h.rows ▸ hi
  have hj' : j < x'.cols := h.cols ▸ hj
  have hp' : p < x'.inner := h.inner ▸ hp
  subst hacc
  unfold addSummand
  rw [Extents.strided_left hleft hi hp, Extents.strided_left hleft' hi' hp',
    Extents.strided_right hright hp hj, Extents.strided_right hright' hp' hj']
  refine .ok_bind <| .bind (.of_eq (h.left.read hi hp)) fun l l' hl => ?_
  refine .ok_bind <| .bind (.of_eq (h.right.read hp hj)) fun r r' hr => ?_
  subst hl hr
  exact .of_eq rfl

theorem product_laid (A : Arithmetic α) (alpha beta : α) (h : Operands x a b x' a' b') {k : Grid}
    {c c' : Array α} (hc : Laid k c k c') :
    Follows (Laid k · k ·) (product A alpha a b beta x c).done
      (product A alpha a' b' beta x' c').done := by
  obtain rfl := hc.eq
  unfold product
  rw [Outcome.done_checked, Outcome.done_checked, h.rows, h.cols]
  refine .bind (requireProduct_follows h c'.size) fun _ _ hsize => ?_
  refine Outcome.done_sweep_follows (fun cell hcell n n' hn => ?_) hc
  obtain ⟨hi, hj⟩ := Grid.mem_cells_iff.mp hcell
  obtain rfl := hn.eq
  refine .step (innerProduct_follows A h hsize.1 hsize.2 hi hj) fun acc acc' hacc => ?_
  subst hacc
  exact (Follows.of_eq rfl).mono fun p p' hp => set_refl hn hp

theorem wideProduct_laid {A : Arithmetic α} (P : WideProduct A) (alpha beta : α)
    (h : Operands x a b x' a' b') {k : Grid} {c c' : Array α} (hc : Laid k c k c') :
    Follows (Laid k · k ·) (wideProduct A P alpha a b beta x c).done
      (wideProduct A P alpha a' b' beta x' c').done := by
  obtain rfl := hc.eq
  unfold wideProduct
  rw [Outcome.done_checked, Outcome.done_checked]
  refine .bind (requireProduct_follows h c'.size) fun _ _ _ => .ok ?_
  have hsame : (fun n : Fin c'.size => P.run alpha (memoryFrom A.zero a') (memoryFrom A.zero b') beta
      x' (memoryFrom A.zero c') n) = fun n : Fin c'.size => P.run alpha (memoryFrom A.zero a)
        (memoryFrom A.zero b) beta x (memoryFrom A.zero c') n := by
    funext n
    exact P.run_eq alpha beta h.rows h.inner h.cols
      (fun _ _ => h.left.memoryFrom_eq A.zero) (fun _ _ => h.right.memoryFrom_eq A.zero)
      (fun _ _ _ _ _ => rfl) (.inr rfl)
  rw [hsame]
  exact .refl (Array.size_ofFn.trans hc.size)

end Kernel

end DeviceTensor
