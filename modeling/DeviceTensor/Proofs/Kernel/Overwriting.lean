import DeviceTensor.Proofs.Grid.Order
import DeviceTensor.Proofs.Kernel.Completion
import DeviceTensor.Proofs.Kernel.Extent
import DeviceTensor.Proofs.Kernel.Library
set_option autoImplicit false

/-!
# Kernels that overwrite their destination

What a kernel leaves may depend on what its destination held before.  Most kernels overwrite it:
they look at no element of the destination that they have not stored themselves, and they store
every one.  From destinations of one length they therefore leave the same elements.
-/

namespace DeviceTensor

open DeviceTensor.Except

variable {ι α β : Type}

/-! ## Buffers that agree -/

/-- The buffers have one length, and the same elements at the positions of `P`. -/
structure Agree (P : Nat → Prop) (xs ys : Array α) : Prop where
  size : ys.size = xs.size
  same : ∀ k, P k → ys[k]? = xs[k]?

namespace Agree

variable {P Q : Nat → Prop} {xs ys : Array α}

theorem of_size (h : ys.size = xs.size) : Agree (fun _ => False) xs ys := ⟨h, fun _ => False.elim⟩

theorem mono (h : Agree P xs ys) (hQ : ∀ k, Q k → P k) : Agree Q xs ys :=
  ⟨h.size, fun k hk => h.same k (hQ k hk)⟩

/-- Buffers that agree everywhere are equal. -/
theorem eq (h : Agree P xs ys) (hP : ∀ k, k < xs.size → P k) : ys = xs := by
  apply Array.ext_getElem?
  intro k
  by_cases hk : k < xs.size
  · exact h.same k (hP k hk)
  · have hle := Nat.le_of_not_lt hk
    rw [Array.getElem?_eq_none hle, Array.getElem?_eq_none (h.size ▸ hle)]

theorem read (h : Agree P xs ys) {k : Nat} (hk : P k) : Buffer.read ys k = Buffer.read xs k := by
  unfold Buffer.read
  rw [h.same k hk, h.size]

/-- Where the same is stored in both, they agree. -/
theorem set (h : Agree P xs ys) (k : Nat) (x : α) :
    Agree (fun l => P l ∨ l = k) (xs.setIfInBounds k x) (ys.setIfInBounds k x) where
  size := by rw [Array.size_setIfInBounds, Array.size_setIfInBounds, h.size]
  same l hl := by
    rw [Array.getElem?_setIfInBounds, Array.getElem?_setIfInBounds, h.size]
    by_cases hkl : k = l
    · rw [if_pos hkl, if_pos hkl]
    · rw [if_neg hkl, if_neg hkl]
      exact h.same l (hl.resolve_right fun hlk => hkl hlk.symm)

end Agree

/-! ## Sweeps -/

namespace Outcome

/-- The steps store the same value at position `k`. -/
def SameAt (k : Nat) (x y : Except Halt (Nat × α)) : Prop :=
  Follows (fun p p' => p' = p ∧ p.1 = k) x y

theorem StoresAt.same {k : Nat} {x : Except Halt (Nat × α)} (h : StoresAt k x) : SameAt k x x := by
  intro p hp
  exact ⟨p, hp, rfl, h p hp⟩

/-- Steps that store the same value at the same place visit agreeing buffers alike. -/
theorem SameAt.visit {place : ι → Array α → Except Halt (Nat × α)} {c : ι} {k : Nat}
    {Q : Nat → Prop} {dst dst' : Array α} (h : SameAt k (place c dst) (place c dst'))
    (hQ : Agree Q dst dst') :
    Follows (Agree fun l => Q l ∨ l = k) (DeviceTensor.visit place c dst)
      (DeviceTensor.visit place c dst') := by
  apply Follows.bind h
  rintro ⟨k', x⟩ _ ⟨rfl, rfl⟩
  apply Follows.ofTrap
  apply Follows.store
  intro hlt
  exact ⟨hQ.size ▸ hlt, hQ.set k' x⟩

/-- A sweep that looks at the positions of `P` alone leaves buffers that agree there, and where it
has stored. -/
theorem sweep_agree (pos : ι → Nat) {place : ι → Array α → Except Halt (Nat × α)} {cs : List ι}
    {P : Nat → Prop}
    (hstep : ∀ c ∈ cs, ∀ dst dst', Agree P dst dst' →
      SameAt (pos c) (place c dst) (place c dst'))
    {dst dst' : Array α} (h : Agree P dst dst') :
    Follows (Agree fun k => P k ∨ ∃ c ∈ cs, pos c = k) (sweep place cs dst).done
      (sweep place cs dst').done := by
  -- `Q` collects the positions of `P`, and those that have been stored
  suffices hfrom : ∀ Q : Nat → Prop, ∀ dst dst' : Array α, (∀ k, P k → Q k) → Agree Q dst dst' →
      Follows (Agree fun k => Q k ∨ ∃ c ∈ cs, pos c = k) (sweep place cs dst).done
        (sweep place cs dst').done from hfrom P dst dst' (fun _ hk => hk) h
  induction cs with
  | nil =>
    intro Q dst dst' _ hQ
    exact .ok (hQ.mono fun k hk => hk.resolve_right (by simp))
  | cons c cs ih =>
    intro Q dst dst' hPQ hQ
    have hvisit := (hstep c List.mem_cons_self dst dst' (hQ.mono hPQ)).visit hQ
    rw [done_sweep_cons, done_sweep_cons]
    apply hvisit.bind
    intro next next' hnext
    have hrest := ih (fun c' hc' => hstep c' (List.mem_cons_of_mem c hc')) _ next next'
      (fun k hk => .inl (hPQ k hk)) hnext
    apply hrest.mono
    intro r r' hr
    apply hr.mono
    rintro k (hk | ⟨c', hc', rfl⟩)
    · exact .inl (.inl hk)
    · rcases List.mem_cons.mp hc' with rfl | hc'
      · exact .inl (.inr rfl)
      · exact .inr ⟨c', hc', rfl⟩

/-- If the first kernel runs to its end, so does the second, and leaves the same. -/
def Repeats (o o' : Outcome α) : Prop := Follows (fun r r' => r' = r) o.done o'.done

/-- Buffers that agree on a whole destination are equal. -/
theorem repeats_of_agree {P : Nat → Prop} {o o' : Outcome α} (hP : ∀ k, k < o.1.size → P k)
    (h : Follows (Agree P) o.done o'.done) : Repeats o o' := by
  intro r hr
  obtain ⟨r', hr', hagree⟩ := h r hr
  obtain rfl := done_eq_ok_iff.mp hr
  exact ⟨r', hr', hagree.eq hP⟩

/-- A kernel whose sweep looks at nothing that its destination held, and stores every element. -/
theorem checked_repeats (pos : ι → Nat) {check : Except Halt Unit}
    {place : ι → Array α → Except Halt (Nat × α)} {cs : List ι} {dst dst' : Array α}
    (hsize : dst'.size = dst.size)
    (hstep : ∀ c ∈ cs, ∀ m m' : Array α, m'.size = m.size →
      SameAt (pos c) (place c m) (place c m'))
    (hall : check = .ok () → ∀ k, k < dst.size → ∃ c ∈ cs, pos c = k) :
    Repeats (checked check dst (sweep place cs)) (checked check dst' (sweep place cs)) := by
  cases check with
  | error e => exact nofun
  | ok u =>
    have hstep' : ∀ c ∈ cs, ∀ m m' : Array α, Agree (fun _ => False) m m' →
        SameAt (pos c) (place c m) (place c m') := fun c hc m m' hm => hstep c hc m m' hm.size
    refine repeats_of_agree ?_ (sweep_agree pos hstep' (.of_size hsize))
    intro k hk
    rw [show checked (.ok u) dst (sweep place cs) = sweep place cs dst from rfl, size_sweep] at hk
    exact .inr (hall rfl k hk)

end Outcome

namespace Kernel

open Outcome

variable {A : Arithmetic α} {g : Grid}

/-! ## Element by element -/

theorem map_repeats (f : α → Except Trap β) (src : Array α) {dst dst' : Array β}
    (h : dst'.size = dst.size) : Repeats (map f src dst) (map f src dst') := by
  unfold map
  rw [h]
  refine checked_repeats id h (fun k _ _ _ _ => ?_) fun hcheck k hk => ?_
  · exact (StoresAt.bind fun _ => .bind fun y => .pure k y).same
  · exact ⟨k, List.mem_range.mpr (eq_of_requireEqual hcheck ▸ hk), rfl⟩

theorem zip_repeats (f : α → α → Except Trap β) (lhs rhs : Array α) {dst dst' : Array β}
    (h : dst'.size = dst.size) : Repeats (zip f lhs rhs dst) (zip f lhs rhs dst') := by
  unfold zip
  rw [h]
  refine checked_repeats id h (fun k _ _ _ _ => ?_) fun hcheck k hk => ?_
  · exact (StoresAt.bind fun _ => .bind fun _ => .bind fun z => .pure k z).same
  · obtain ⟨_, -, hdst⟩ := bind_eq_ok_iff.mp hcheck
    exact ⟨k, List.mem_range.mpr (eq_of_requireEqual hdst ▸ hk), rfl⟩

/-! ## Sums -/

theorem sumRows_repeats (A : Arithmetic α) (m : Array α) (g : Grid) {dst dst' : Array α}
    (h : dst'.size = dst.size) : Repeats (sumRows A m g dst) (sumRows A m g dst') := by
  unfold sumRows
  rw [h]
  refine checked_repeats id h (fun j _ _ _ _ => ?_) fun hcheck k hk => ?_
  · exact (StoresAt.bind fun sum => .pure j sum).same
  · obtain ⟨_, hdst, -⟩ := bind_eq_ok_iff.mp hcheck
    exact ⟨k, List.mem_range.mpr (eq_of_requireEqual hdst ▸ hk), rfl⟩

theorem sumColumns_repeats (A : Arithmetic α) (m : Array α) (g : Grid) {dst dst' : Array α}
    (h : dst'.size = dst.size) : Repeats (sumColumns A m g dst) (sumColumns A m g dst') := by
  unfold sumColumns
  rw [h]
  refine checked_repeats id h (fun i _ _ _ _ => ?_) fun hcheck k hk => ?_
  · exact (StoresAt.bind fun sum => .pure i sum).same
  · obtain ⟨_, hdst, -⟩ := bind_eq_ok_iff.mp hcheck
    exact ⟨k, List.mem_range.mpr (eq_of_requireEqual hdst ▸ hk), rfl⟩

/-! ## Softmax -/

/-- The places of row `i`. -/
def InRow (g : Grid) (i k : Nat) : Prop := ∃ j, j ∈ List.range g.cols ∧ g.offset i j = k

/-- A computed place is the place of its element. -/
theorem checkedOffset_follows (g : Grid) (i j : Nat) :
    Follows (fun k k' => k' = k ∧ k = g.offset i j) (g.checkedOffset i j) (g.checkedOffset i j) := by
  intro k hk
  exact ⟨k, hk, rfl, Grid.eq_offset_of_checkedOffset hk⟩

theorem shiftRow_agree (A : Arithmetic α) (F : Analysis α) (src : Array α) (g : Grid) (i : Nat)
    (top : α) {next : α → Array α → Outcome α} {P Q R : Nat → Prop}
    (hn : ∀ sum m m', Agree Q m m' → Follows (Agree R) (next sum m).done (next sum m').done)
    {js : List Nat} (hQ : ∀ k, Q k → P k ∨ ∃ j ∈ js, g.offset i j = k) (sum : α)
    {dst dst' : Array α} (h : Agree P dst dst') :
    Follows (Agree R) (shiftRow A F src g i top next js sum dst).done
      (shiftRow A F src g i top next js sum dst').done := by
  induction js generalizing P sum dst dst' with
  | nil => exact hn sum dst dst' (h.mono fun k hk => (hQ k hk).resolve_right (by simp))
  | cons j js ih =>
    unfold shiftRow
    rw [done_withValue, done_withValue]
    have hcell : Follows (fun p p' => p' = p ∧ p.1 = g.offset i j)
        (shiftedAt A F src g i top j) (shiftedAt A F src g i top j) := fun p hp =>
      ⟨p, hp, rfl, Grid.eq_offset_of_checkedOffset (place_of_shiftedAt hp)⟩
    refine .step hcell fun _ p hp => ?_
    obtain ⟨rfl, hplace⟩ := hp
    rw [done_withValue, done_withValue]
    -- an element that has been stored agrees from then on
    have hstore : Follows (Agree fun k => P k ∨ k = p.1) (Buffer.store dst p.1 p.2)
        (Buffer.store dst' p.1 p.2) := .store fun hlt => ⟨h.size ▸ hlt, h.set p.1 p.2⟩
    refine .step hstore fun m m' hm => ?_
    rw [done_withValue, done_withValue]
    refine .step (.of_eq rfl) fun sum sum' hsum => ?_
    subst hsum
    refine ih (fun k hk => ?_) sum hm
    rcases hQ k hk with hk | ⟨j', hj', hk⟩
    · exact .inl (.inl hk)
    · rcases List.mem_cons.mp hj' with rfl | hj'
      · exact .inl (.inr (hk.symm.trans hplace.symm))
      · exact .inr ⟨j', hj', hk⟩

theorem divideRow_agree (A : Arithmetic α) (g : Grid) (i : Nat) (denominator : α) {P : Nat → Prop}
    {dst dst' : Array α} (h : Agree P dst dst') (hP : ∀ k, InRow g i k → P k) :
    Follows (Agree P) (divideRow A g i denominator dst).done
      (divideRow A g i denominator dst').done := by
  refine (sweep_agree (g.offset i) (fun j hj m m' hm => ?_) h).mono ?_
  · refine .step (checkedOffset_follows g i j) fun place place' hplace => ?_
    obtain ⟨rfl, rfl⟩ := hplace
    rw [hm.read (hP _ ⟨j, hj, rfl⟩)]
    exact (StoresAt.bind fun _ => .bind fun _ => .pure _ _).same
  · intro r r' hr
    exact hr.mono fun k hk => .inl hk

/-- Softmax of a row looks at no other place than those of the row, after it has stored them. -/
theorem softmaxRow_agree (A : Arithmetic α) (F : Analysis α) (src : Array α) (g : Grid) (i : Nat)
    {P : Nat → Prop} {dst dst' : Array α} (h : Agree P dst dst') :
    Follows (Agree fun k => P k ∨ InRow g i k) (softmaxRow A F src g dst i).done
      (softmaxRow A F src g dst' i).done := by
  unfold softmaxRow
  rw [done_withValue, done_withValue]
  refine .step (.of_eq rfl) fun top top' htop => ?_
  subst htop
  refine shiftRow_agree A F src g i top (fun denominator m m' hm => ?_) (fun _ hk => hk) A.zero h
  exact divideRow_agree A g i denominator hm fun _ hk => .inr hk

/-- Softmax of one row after the other: the places of the rows that are done agree. -/
theorem softmaxRows_agree (A : Arithmetic α) (F : Analysis α) (src : Array α) (g : Grid)
    (is : List Nat) {P : Nat → Prop} {o o' : Outcome α} (ho : Follows (Agree P) o.done o'.done) :
    Follows (Agree fun k => P k ∨ ∃ i ∈ is, InRow g i k)
      (is.foldl (fun o i => andThen o fun dst => softmaxRow A F src g dst i) o).done
      (is.foldl (fun o i => andThen o fun dst => softmaxRow A F src g dst i) o').done := by
  induction is generalizing P o o' with
  | nil =>
    apply ho.mono
    intro r r' hr
    exact hr.mono fun k hk => hk.resolve_right (by simp)
  | cons i is ih =>
    have hrow : Follows (Agree fun k => P k ∨ InRow g i k)
        (andThen o fun dst => softmaxRow A F src g dst i).done
        (andThen o' fun dst => softmaxRow A F src g dst i).done := by
      rw [done_andThen, done_andThen]
      exact ho.bind fun m m' hm => softmaxRow_agree A F src g i hm
    apply (ih hrow).mono
    intro r r' hr
    apply hr.mono
    simp only [List.mem_cons]
    rintro k (hk | ⟨i', rfl | hi', hk⟩)
    · exact .inl (.inl hk)
    · exact .inl (.inr hk)
    · exact .inr ⟨i', hi', hk⟩

theorem softmax_repeats (A : Arithmetic α) (F : Analysis α) (src : Array α) (g : Grid)
    {dst dst' : Array α} (h : dst'.size = dst.size) (hdst : dst.size = g.size) :
    Repeats (softmax A F src g dst) (softmax A F src g dst') := by
  have hagree : Follows (Agree fun k => False ∨ ∃ i ∈ List.range g.rows, InRow g i k)
      (softmax A F src g dst).done (softmax A F src g dst').done := by
    unfold softmax
    rw [done_checked, done_checked, h]
    refine .bind (.of_eq rfl) fun _ _ _ => ?_
    exact softmaxRows_agree A F src g _ (.ok (.of_size h))
  apply repeats_of_agree _ hagree
  intro k hk
  rw [size_softmax, hdst] at hk
  obtain ⟨i, j, hi, hj, rfl⟩ := Grid.exists_offset_eq hk
  exact .inr ⟨i, List.mem_range.mpr hi, j, List.mem_range.mpr hj, rfl⟩

/-! ## Products -/

/-- Cells of a product, in its storage order. -/
theorem exists_cell {x : Extents} {k : Nat} (hk : k < x.rows * x.cols) :
    ∃ cell ∈ (Grid.mk x.rows x.cols false).cells, cell.1 * x.cols + cell.2 * 1 = k := by
  obtain ⟨i, j, hi, hj, hoffset⟩ := Grid.exists_offset_eq (g := ⟨x.rows, x.cols, false⟩) hk
  exact ⟨(i, j), Grid.mem_cells_iff.mpr ⟨hi, hj⟩, by rw [Nat.mul_one, ← hoffset]; rfl⟩

theorem strided_follows (strides : Nat × Nat) (i j : Nat) :
    Follows (fun k k' => k' = k ∧ k = i * strides.1 + j * strides.2)
      (Extents.strided strides i j) (Extents.strided strides i j) := by
  intro k hk
  exact ⟨k, hk, rfl, Extents.eq_of_strided hk⟩

theorem read_follows {m m' : Array α} (h : m'.size = m.size) (k : Nat) :
    Follows (fun _ _ => True) (Buffer.read m k) (Buffer.read m' k) := by
  intro x hx
  by_cases hk : k < m.size
  · exact ⟨_, Buffer.read_of_lt (h ▸ hk), trivial⟩
  · rw [Buffer.read_of_le (Nat.le_of_not_lt hk)] at hx
    cases hx

/-- With a zero `beta` a product does not depend on what its destination held. -/
theorem product_repeats (A : Arithmetic α) (alpha : α) (a b : Array α) {beta : α} (x : Extents)
    (hbeta : A.isZero beta = true) {c c' : Array α} (h : c'.size = c.size)
    (hc : c.size = x.rows * x.cols) :
    Repeats (product A alpha a b beta x c) (product A alpha a b beta x c') := by
  unfold product
  rw [h]
  refine checked_repeats (fun cell => cell.1 * x.cols + cell.2 * 1) h ?_ ?_
  · rintro ⟨i, j⟩ _ m m' hm
    refine .step (.of_eq rfl) fun acc acc' hacc => ?_
    subst hacc
    refine .step (strided_follows (x.cols, 1) i j) fun place place' hplace => ?_
    obtain ⟨rfl, rfl⟩ := hplace
    refine .step (read_follows hm _) fun _ _ _ => ?_
    refine .step (.of_eq rfl) fun scaled scaled' hscaled => ?_
    subst hscaled
    rw [if_pos hbeta, if_pos hbeta]
    exact .ok ⟨rfl, rfl⟩
  · intro _ k hk
    exact exists_cell (hc ▸ hk)

theorem wideProduct_repeats {A : Arithmetic α} (P : WideProduct A) (alpha : α) (a b : Array α)
    {beta : α} (x : Extents) (hbeta : A.isZero beta = true) {c c' : Array α} (h : c'.size = c.size)
    (hc : c.size = x.rows * x.cols) :
    Repeats (wideProduct A P alpha a b beta x c) (wideProduct A P alpha a b beta x c') := by
  unfold wideProduct
  rw [Repeats, done_checked, done_checked, h]
  refine .bind (.of_eq rfl) fun _ _ _ => .ok (Array.ext ?_ fun n hn _ => ?_)
  · rw [Array.size_ofFn, Array.size_ofFn]
  · rw [Array.size_ofFn, hc] at hn
    rw [Array.getElem_ofFn, Array.getElem_ofFn]
    refine P.run_eq alpha beta rfl rfl rfl (fun _ _ _ _ => rfl) (fun _ _ _ _ => rfl) ?_ (.inl hn)
    exact fun hfalse => absurd (hfalse.symm.trans hbeta) Bool.false_ne_true

end Kernel

end DeviceTensor
