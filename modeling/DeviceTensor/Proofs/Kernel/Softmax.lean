import DeviceTensor.Proofs.Kernel.Total
set_option autoImplicit false

/-!
# What a softmax computes

Softmax reads one row of its source, and of its destination only what it has stored there itself.
A row goes through two passes: shifted exponentials are stored and summed as they are stored, and
then they are read back to be divided.  As every element has a place of its own, neither pass meets
anything but the row, and rows do not meet each other.
-/

namespace DeviceTensor.Kernel

open DeviceTensor.Except

variable {α : Type}

/-! ## Softmax of a list -/

/-- Row `i` of the matrix that a buffer stores. -/
def row (zero : α) (xs : Array α) (g : Grid) (i : Nat) : List α :=
  (List.range g.cols).map (entry zero xs g i)

/-- The maximum of a list, from negative infinity. -/
def maximum (F : Analysis α) (xs : List α) : α := xs.foldl F.max F.negInfinity

/-- The exponentials of a list, shifted by `top`, and a sum to which each of them is added. -/
def powers (A : Arithmetic α) (F : Analysis α) (top : α) : List α → α → Except Trap (List α × α)
  | [], sum => pure ([], sum)
  | x :: xs, sum => do
    let shifted ← A.sub x top
    let sum ← A.add sum (F.exp shifted)
    let (later, sum) ← powers A F top xs sum
    return (F.exp shifted :: later, sum)

/-- Softmax of a list: its shifted exponentials, divided by their sum from zero. -/
def softmaxLine (A : Arithmetic α) (F : Analysis α) (xs : List α) : Except Trap (List α) := do
  let (shifted, denominator) ← powers A F (maximum F xs) xs A.zero
  shifted.mapM (A.div · denominator)

/-- The exponentials of a list do not depend on the sum. -/
theorem mapM_of_powers {A : Arithmetic α} {F : Analysis α} {top : α} {xs ys : List α}
    {sum denominator : α} (h : powers A F top xs sum = .ok (ys, denominator)) :
    xs.mapM (fun x => F.exp <$> A.sub x top) = .ok ys := by
  induction xs generalizing ys sum with
  | nil =>
    cases h
    rfl
  | cons x xs ih =>
    obtain ⟨shifted, hshifted, h⟩ := bind_eq_ok_iff.mp h
    obtain ⟨sum', -, h⟩ := bind_eq_ok_iff.mp h
    obtain ⟨⟨later, _⟩, hlater, h⟩ := bind_eq_ok_iff.mp h
    cases h
    rw [List.mapM_cons, hshifted, ih hlater]
    rfl

/-! ## One row of the destination -/

/-- The buffer holds a list in row `i`, and what it held elsewhere. -/
structure HoldsRow (g : Grid) (i : Nat) (ys : List α) (dst dst' : Array α) : Prop where
  size : dst'.size = dst.size
  length : ys.length = g.cols
  elements : ∀ j, j < g.cols → dst'[g.offset i j]? = ys[j]?
  others : ∀ k, (∀ j, j < g.cols → k ≠ g.offset i j) → dst'[k]? = dst[k]?

/-- The kernel stores a list in row `i` if the list has been computed, and traps as its computation
does. -/
def FillsRow (g : Grid) (i : Nat) (dst : Array α) : Except Trap (List α) → Outcome α → Prop
  | .ok ys, o => o.2 = .ok () ∧ HoldsRow g i ys dst o.1
  | .error t, o => o.2 = .error (.trap t)

/-- Computations that all succeed, one after the other. -/
theorem mapM_of_forall {ι ε : Type} {r : ι → Except ε α} {cs : List ι}
    (h : ∀ c ∈ cs, ∃ x, r c = .ok x) :
    ∃ xs, cs.mapM r = .ok xs ∧ List.Forall₂ (fun c x => r c = .ok x) cs xs := by
  induction cs with
  | nil => exact ⟨[], rfl, .nil⟩
  | cons c cs ih =>
    obtain ⟨⟨x, hc⟩, hcs⟩ := List.forall_mem_cons.mp h
    obtain ⟨xs, hxs, hall⟩ := ih hcs
    rw [List.mapM_cons, hc, hxs]
    exact ⟨x :: xs, rfl, .cons hc hall⟩

/-- A sequence of computations fails as the first one that fails. -/
theorem mapM_of_first {ι ε : Type} {r : ι → Except ε α} {before later : List ι} {c : ι} {e : ε}
    (h : ∀ d ∈ before, ∃ x, r d = .ok x) (hc : r c = .error e) :
    (before ++ c :: later).mapM r = .error e := by
  obtain ⟨xs, hxs, -⟩ := mapM_of_forall h
  rw [List.mapM_append, hxs, List.mapM_cons, hc]
  rfl

section

variable {A : Arithmetic α} {F : Analysis α} {zero : α} {g : Grid} {i j : Nat} {ys zs : List α}
  {src dst dst' dst'' : Array α}

theorem getElem_row (zero : α) (xs : Array α) (hj : j < g.cols) :
    (row zero xs g i)[j]? = some (entry zero xs g i j) := by
  rw [row, List.getElem?_map, List.getElem?_range hj]
  rfl

theorem length_row (zero : α) (xs : Array α) : (row zero xs g i).length = g.cols := by
  rw [row, List.length_map, List.length_range]

/-- The row that a buffer holds. -/
theorem HoldsRow.row_eq (h : HoldsRow g i ys dst dst') (zero : α) : row zero dst' g i = ys := by
  refine List.ext_getElem? fun j => ?_
  by_cases hj : j < g.cols
  · have hlt : j < ys.length := h.length ▸ hj
    have hat := h.elements j hj
    rw [List.getElem?_eq_getElem hlt] at hat ⊢
    rw [getElem_row zero dst' hj, entry, Array.getD_eq_getD_getElem?, hat]
    rfl
  · have hle := Nat.le_of_not_lt hj
    rw [List.getElem?_eq_none (length_row zero dst' ▸ hle), List.getElem?_eq_none (h.length ▸ hle)]

theorem HoldsRow.trans (h : HoldsRow g i ys dst dst') (h' : HoldsRow g i zs dst' dst'') :
    HoldsRow g i zs dst dst'' where
  size := h'.size.trans h.size
  length := h'.length
  elements := h'.elements
  others k hk := (h'.others k hk).trans (h.others k hk)

/-- Two passes over a row, the second of which is given what the first one has stored. -/
theorem FillsRow.andThen {x : Except Trap (List α)} {f : List α → Except Trap (List α)}
    {o : Outcome α} {next : Array α → Outcome α} (h : FillsRow g i dst x o)
    (hnext : ∀ ys, HoldsRow g i ys dst o.1 → FillsRow g i o.1 (f ys) (next o.1)) :
    FillsRow g i dst (x >>= f) (Kernel.andThen o next) := by
  obtain ⟨dst', ends⟩ := o
  cases x with
  | error t =>
    obtain rfl : ends = .error (.trap t) := h
    rfl
  | ok ys =>
    obtain ⟨hends, hheld⟩ := h
    obtain rfl : ends = .ok () := hends
    have hsecond := hnext ys hheld
    change FillsRow g i dst (f ys) (next dst')
    cases hf : f ys with
    | error t =>
      rw [hf] at hsecond
      exact hsecond
    | ok zs =>
      rw [hf] at hsecond
      exact ⟨hsecond.1, hheld.trans hsecond.2⟩

/-- A sweep over a row whose cells make their results of the elements that stand there. -/
theorem sweep_fillsRow {place : Nat → Array α → Except Halt (Nat × α)} {r : Nat → Except Trap α}
    (hi : i < g.rows) (hd : g.size ≤ dst.size)
    (hplace : ∀ j, j < g.cols → ∀ m : Array α, m.size = dst.size →
      m[g.offset i j]? = dst[g.offset i j]? →
        place j m = Halt.ofTrap (r j) >>= fun x => .ok (g.offset i j, x)) :
    FillsRow g i dst ((List.range g.cols).mapM r) (sweep place (List.range g.cols) dst) := by
  have hsited : Sited place (List.range g.cols) (g.offset i) (fun j => Halt.ofTrap (r j)) dst := by
    refine ⟨fun j hj => ?_, ?_, fun j hj => hplace j (List.mem_range.mp hj)⟩
    · exact Nat.lt_of_lt_of_le (Grid.offset_lt_size hi (List.mem_range.mp hj)) hd
    · refine List.nodup_range.map_on fun j hj k hk h => ?_
      exact (Grid.offset_inj hi (List.mem_range.mp hj) hi (List.mem_range.mp hk) h).2
  rcases forall_or_first r (List.range g.cols) with
    hall | ⟨before, c, later, t, hcells, hbefore, hc⟩
  · obtain ⟨hends, hplaced, -⟩ := hsited.sweep_of_forall (Halt.ofTrap_forall_ok hall)
    obtain ⟨ys, hys, hvalues⟩ := mapM_of_forall hall
    have hlength : ys.length = g.cols := hvalues.length_eq.symm.trans List.length_range
    rw [hys]
    refine ⟨hends, hplaced.size, hlength, fun j hj => ?_, fun k hk => hplaced.others k ?_⟩
    · obtain ⟨x, hx, hat⟩ := hplaced.placed j (List.mem_range.mpr hj)
      have hlt : j < ys.length := hlength ▸ hj
      have hvalue : r j = .ok ys[j] := by
        simpa using hvalues.get (List.length_range ▸ hj) hlt
      rw [hat, List.getElem?_eq_getElem hlt,
        Except.ok.inj (hvalue.symm.trans (Halt.ofTrap_eq_ok_iff.mp hx))]
    · intro hmem
      obtain ⟨j, hj, rfl⟩ := List.mem_map.mp hmem
      exact hk j (List.mem_range.mp hj) rfl
  · rw [hcells] at hsited ⊢
    rw [mapM_of_first hbefore hc]
    exact (hsited.sweep_of_first (Halt.ofTrap_forall_ok hbefore)
      (Halt.ofTrap_eq_error_iff.mpr ⟨t, hc, rfl⟩)).1

/-! ## The passes over a row -/

variable (hsize : g.size < Size.limit) (hi : i < g.rows)

include hsize hi

theorem rowMaximum_eq (F : Analysis α) (zero : α) (hs : g.size ≤ src.size) :
    rowMaximum F src g i = .ok (maximum F (row zero src g i)) := by
  have hstep (top : α) (j : Nat) (hj : j ∈ List.range g.cols) :
      (do let x ← readCell src g i j; return F.max top x : Except Trap α) =
        pure (F.max top (entry zero src g i j)) := by
    have hj := List.mem_range.mp hj
    unfold readCell
    rw [Grid.checkedOffset_of_lt hsize hi hj]
    change (Buffer.read src (g.offset i j) >>= _) = _
    rw [read_entry zero hs hi hj]
    rfl
  unfold rowMaximum maximum row
  rw [foldlM_congr hstep, List.foldlM_pure, List.foldl_map]
  rfl

theorem shiftedAt_eq (A : Arithmetic α) (F : Analysis α) (hs : g.size ≤ src.size) (top : α)
    (hj : j < g.cols) :
    shiftedAt A F src g i top j =
      (fun y => (g.offset i j, F.exp y)) <$> A.sub (entry A.zero src g i j) top := by
  unfold shiftedAt
  rw [Grid.checkedOffset_of_lt hsize hi hj]
  change (Buffer.read src (g.offset i j) >>= _) = _
  rw [read_entry A.zero hs hi hj]
  rfl

/-- The exponentials of some elements of a row, stored without a sum. -/
theorem sweep_shiftedAt_fillsRow (A : Arithmetic α) (F : Analysis α) (hs : g.size ≤ src.size)
    (hd : g.size ≤ dst.size) (top : α) :
    FillsRow g i dst ((row A.zero src g i).mapM fun x => F.exp <$> A.sub x top)
      (sweep (fun j _ => Halt.ofTrap (shiftedAt A F src g i top j)) (List.range g.cols) dst) := by
  unfold row
  rw [List.mapM_map]
  refine sweep_fillsRow hi hd fun j hj m _ _ => ?_
  rw [shiftedAt_eq hsize hi A F hs top hj, Function.comp_apply]
  cases A.sub (entry A.zero src g i j) top <;> rfl

omit hsize hi in
theorem sweep_cons_of_trap {ι : Type} (cell : ι → Except Trap (Nat × α)) (c : ι) (cs : List ι)
    (dst : Array α) :
    sweep (fun c _ => Halt.ofTrap (cell c)) (c :: cs) dst =
      withValue (cell c) dst fun p dst => withValue (Buffer.store dst p.1 p.2) dst fun dst _ =>
        sweep (fun c _ => Halt.ofTrap (cell c)) cs dst := by
  rw [sweep, visit]
  cases cell c with
  | error t => rfl
  | ok p =>
    simp only [withValue_ok, Halt.ofTrap_ok_bind, Halt.liftM_eq]
    cases Buffer.store dst p.1 p.2 <;> rfl

/-- Where no sum traps, the exponentials are stored as by a sweep, and their sum is at hand. -/
theorem shiftRow_of_powers (A : Arithmetic α) (F : Analysis α) (hs : g.size ≤ src.size) (top : α)
    (next : α → Array α → Outcome α) {js : List Nat} (hjs : ∀ j ∈ js, j < g.cols)
    {sum denominator : α}
    (h : powers A F top (js.map (entry A.zero src g i)) sum = .ok (ys, denominator)) :
    shiftRow A F src g i top next js sum dst =
      andThen (sweep (fun j _ => Halt.ofTrap (shiftedAt A F src g i top j)) js dst)
        (next denominator) := by
  induction js generalizing ys sum dst with
  | nil =>
    cases h
    rfl
  | cons j js ih =>
    obtain ⟨hj, hjs⟩ := List.forall_mem_cons.mp hjs
    obtain ⟨shifted, hshifted, h⟩ := bind_eq_ok_iff.mp h
    obtain ⟨sum', hsum, h⟩ := bind_eq_ok_iff.mp h
    obtain ⟨⟨later, _⟩, hlater, h⟩ := bind_eq_ok_iff.mp h
    cases h
    have hcell : shiftedAt A F src g i top j = .ok (g.offset i j, F.exp shifted) := by
      rw [shiftedAt_eq hsize hi A F hs top hj, hshifted]
      rfl
    rw [shiftRow, sweep_cons_of_trap, hcell]
    simp only [withValue_ok]
    cases Buffer.store dst (g.offset i j) (F.exp shifted) with
    | error t => rfl
    | ok dst' =>
      simp only [withValue_ok, hsum]
      exact ih hjs hlater

/-- The loop that stores and sums traps as the exponentials and sums of the row do. -/
theorem shiftRow_of_powers_error (A : Arithmetic α) (F : Analysis α) (hs : g.size ≤ src.size)
    (hd : g.size ≤ dst.size) (top : α) (next : α → Array α → Outcome α) {js : List Nat}
    (hjs : ∀ j ∈ js, j < g.cols) {sum : α} {t : Trap}
    (h : powers A F top (js.map (entry A.zero src g i)) sum = .error t) :
    (shiftRow A F src g i top next js sum dst).2 = .error (.trap t) := by
  induction js generalizing sum dst with
  | nil => cases h
  | cons j js ih =>
    obtain ⟨hj, hjs⟩ := List.forall_mem_cons.mp hjs
    have hlt := Nat.lt_of_lt_of_le (Grid.offset_lt_size hi hj) hd
    rw [shiftRow, shiftedAt_eq hsize hi A F hs top hj]
    rw [List.map_cons, powers] at h
    cases hshifted : A.sub (entry A.zero src g i j) top with
    | error t' =>
      rw [hshifted] at h
      cases h
      rfl
    | ok shifted =>
      simp only [Except.map_ok, withValue_ok, Buffer.store_of_lt hlt]
      rw [hshifted, ok_bind] at h
      cases hsum : A.add sum (F.exp shifted) with
      | error t' =>
        rw [hsum] at h
        cases h
        rfl
      | ok sum' =>
        rw [hsum, ok_bind] at h
        refine ih (hd.trans_eq Array.size_setIfInBounds.symm) hjs ?_
        cases hlater : powers A F top (js.map (entry A.zero src g i)) sum' with
        | error t' =>
          rw [hlater] at h
          exact h
        | ok p =>
          rw [hlater] at h
          cases h

theorem divideRow_fillsRow (A : Arithmetic α) (hd : g.size ≤ dst.size) (denominator : α) :
    FillsRow g i dst ((row A.zero dst g i).mapM (A.div · denominator))
      (divideRow A g i denominator dst) := by
  unfold row
  rw [List.mapM_map]
  refine sweep_fillsRow hi hd fun j hj m hsame hat => ?_
  simp only [Halt.liftM_eq, Grid.checkedOffset_of_lt hsize hi hj, Halt.ofTrap_ok_bind,
    Buffer.read_congr hsame hat, read_entry A.zero hd hi hj, Function.comp_apply]
  rfl

/-- Softmax of a row is softmax of the list of its elements. -/
theorem softmaxRow_fillsRow (A : Arithmetic α) (F : Analysis α) (hs : g.size ≤ src.size)
    (hd : g.size ≤ dst.size) :
    FillsRow g i dst (softmaxLine A F (row A.zero src g i)) (softmaxRow A F src g dst i) := by
  have hcols : ∀ j ∈ List.range g.cols, j < g.cols := fun j => List.mem_range.mp
  unfold softmaxRow softmaxLine
  rw [rowMaximum_eq hsize hi F A.zero hs]
  change FillsRow g i dst _ (shiftRow A F src g i _ _ _ _ dst)
  cases hpowers : powers A F (maximum F (row A.zero src g i)) (row A.zero src g i) A.zero with
  | error t => exact shiftRow_of_powers_error hsize hi A F hs hd _ _ hcols hpowers
  | ok p =>
    obtain ⟨shifted, denominator⟩ := p
    rw [shiftRow_of_powers hsize hi A F hs _ _ hcols hpowers]
    have hfills := sweep_shiftedAt_fillsRow hsize hi A F hs hd (maximum F (row A.zero src g i))
    rw [mapM_of_powers hpowers] at hfills
    refine hfills.andThen fun ys hheld => ?_
    -- what has been stored is what is divided
    have hdivide := divideRow_fillsRow hsize hi A (hheld.size ▸ hd) denominator
    rwa [hheld.row_eq A.zero] at hdivide

end

/-! ## One row after the other -/

/-- The buffer holds the lists of some rows, and what it held elsewhere. -/
structure HoldsRows (g : Grid) (is : List Nat) (lines : Nat → Except Trap (List α))
    (dst dst' : Array α) : Prop where
  size : dst'.size = dst.size
  elements : ∀ i ∈ is, ∃ ys, lines i = .ok ys ∧ ∀ j, j < g.cols → dst'[g.offset i j]? = ys[j]?
  others : ∀ k, (∀ i ∈ is, ∀ j, j < g.cols → k ≠ g.offset i j) → dst'[k]? = dst[k]?

/-- The kernel stores the lists of some rows, or it traps as the computation of one of them does. -/
def FillsRows (g : Grid) (is : List Nat) (lines : Nat → Except Trap (List α)) (dst : Array α)
    (o : Outcome α) : Prop :=
  o.2 = .ok () ∧ HoldsRows g is lines dst o.1 ∨
    ∃ i ∈ is, ∃ t, lines i = .error t ∧ o.2 = .error (.trap t)

section

variable {g : Grid} {i : Nat} {is : List Nat} {lines : Nat → Except Trap (List α)} {ys : List α}
  {dst dst' dst'' : Array α}

theorem HoldsRows.nil (g : Grid) (lines : Nat → Except Trap (List α)) (dst : Array α) :
    HoldsRows g [] lines dst dst :=
  ⟨rfl, nofun, fun _ _ => rfl⟩

/-- Rows that are filled later leave the first one as it is. -/
theorem HoldsRows.cons (hrows : ∀ k ∈ i :: is, k < g.rows) (hown : i ∉ is) (hline : lines i = .ok ys)
    (h : HoldsRow g i ys dst dst') (h' : HoldsRows g is lines dst' dst'') :
    HoldsRows g (i :: is) lines dst dst'' where
  size := h'.size.trans h.size
  elements := by
    obtain ⟨hi, hlater⟩ := List.forall_mem_cons.mp hrows
    refine List.forall_mem_cons.mpr ⟨⟨ys, hline, fun j hj => ?_⟩, h'.elements⟩
    refine (h'.others _ fun k hk l hl heq => hown ?_).trans (h.elements j hj)
    rw [(Grid.offset_inj hi hj (hlater k hk) hl heq).1]
    exact hk
  others k hk := by
    obtain ⟨hfirst, hlater⟩ := List.forall_mem_cons.mp hk
    exact (h'.others k hlater).trans (h.others k hfirst)

theorem foldl_andThen_of_error (step : Nat → Array α → Outcome α) (dst : Array α) (e : Halt) :
    is.foldl (fun o i => andThen o (step i)) (dst, .error e) = (dst, .error e) := by
  induction is with
  | nil => rfl
  | cons i is ih => exact ih

/-- Different rows are filled one after the other, up to the first one whose list traps. -/
theorem foldl_fillsRow {step : Nat → Array α → Outcome α} (hrows : ∀ i ∈ is, i < g.rows)
    (hown : is.Nodup) (hd : g.size ≤ dst.size)
    (hstep : ∀ i ∈ is, ∀ dst : Array α, g.size ≤ dst.size →
      FillsRow g i dst (lines i) (step i dst)) :
    FillsRows g is lines dst (is.foldl (fun o i => andThen o (step i)) (dst, .ok ())) := by
  induction is generalizing dst with
  | nil => exact .inl ⟨rfl, .nil g lines dst⟩
  | cons i is ih =>
    obtain ⟨hfirst, hlater⟩ := List.forall_mem_cons.mp hstep
    obtain ⟨hnot, hown⟩ := List.nodup_cons.mp hown
    have hfill := hfirst dst hd
    rw [List.foldl_cons]
    change FillsRows g (i :: is) lines dst
      (is.foldl (fun o i => andThen o (step i)) (step i dst))
    generalize step i dst = o at hfill ⊢
    obtain ⟨dst', ends⟩ := o
    cases hline : lines i with
    | error t =>
      rw [hline] at hfill
      obtain rfl : ends = .error (.trap t) := hfill
      rw [foldl_andThen_of_error]
      exact .inr ⟨i, List.mem_cons_self, t, hline, rfl⟩
    | ok ys =>
      rw [hline] at hfill
      obtain ⟨hends, hheld⟩ := hfill
      obtain rfl : ends = .ok () := hends
      have hrows' : ∀ k ∈ is, k < g.rows := fun k hk => hrows k (List.mem_cons_of_mem i hk)
      have hd' : g.size ≤ dst'.size := hheld.size ▸ hd
      rcases ih hrows' hown hd' hlater with ⟨hends, hall⟩ | ⟨k, hk, t, ht, hhalts⟩
      · exact .inl ⟨hends, .cons hrows hnot hline hheld hall⟩
      · exact .inr ⟨k, List.mem_cons_of_mem i hk, t, ht, hhalts⟩

/-- Softmax fills all rows, or it traps as softmax of a row does. -/
theorem softmax_fillsRows (A : Arithmetic α) (F : Analysis α) {src : Array α}
    (hsize : g.size < Size.limit) (h : src.size = dst.size) (hs : g.size ≤ src.size) :
    FillsRows g (List.range g.rows) (fun i => softmaxLine A F (row A.zero src g i)) dst
      (softmax A F src g dst) := by
  unfold softmax requireEqual
  rw [if_pos h, requireHolds_of_le hsize hs]
  have hrows : ∀ i ∈ List.range g.rows, i < g.rows := fun i => List.mem_range.mp
  exact foldl_fillsRow hrows List.nodup_range (h ▸ hs) fun i hi dst' hd =>
    softmaxRow_fillsRow hsize (hrows i hi) A F hs hd

end

/-! ## Arithmetic that never traps -/

theorem powers_sure {A : Arithmetic α} (hA : A.Total) (F : Analysis α) (top : α) (xs : List α)
    (sum : α) : Sure (powers A F top xs sum) := by
  induction xs generalizing sum with
  | nil => exact .ok _
  | cons x xs ih =>
    obtain ⟨shifted, hshifted⟩ := hA.sub x top
    obtain ⟨sum', hsum⟩ := hA.add sum (F.exp shifted)
    unfold powers
    rw [hshifted, ok_bind, hsum, ok_bind]
    exact .bind (ih sum') fun p _ => .ok _

theorem softmaxLine_sure {A : Arithmetic α} (hA : A.Total) (F : Analysis α) (xs : List α) :
    Sure (softmaxLine A F xs) := by
  refine .bind (powers_sure hA F _ xs A.zero) fun p _ => ?_
  obtain ⟨quotients, hquotients, -⟩ := mapM_of_forall fun x (_ : x ∈ p.1) => hA.div x p.2
  exact Sure.of_ok hquotients

/-- Softmax runs to its end on buffers that hold the matrix. -/
theorem softmax_sure {A : Arithmetic α} (hA : A.Total) (F : Analysis α) {g : Grid}
    {src dst : Array α} (hsize : g.size < Size.limit) (h : src.size = dst.size)
    (hs : g.size ≤ src.size) : Sure (softmax A F src g dst).2 := by
  rcases softmax_fillsRows A F hsize h hs with ⟨hends, -⟩ | ⟨i, -, t, ht, -⟩
  · exact .of_ok hends
  · exact (softmaxLine_sure hA F _ t ht).elim

/-- The exponential of an element of a list, shifted by the maximum of the list. -/
def power (F : Analysis α) (sub : α → α → α) (xs : List α) (x : α) : α :=
  F.exp (sub x (maximum F xs))

/-- The sum from zero of the shifted exponentials of a list, in order. -/
def denominator (F : Analysis α) (add sub : α → α → α) (zero : α) (xs : List α) : α :=
  (xs.map (power F sub xs)).foldl add zero

/-- Every element of a matrix has become its shifted exponential divided by the sum of those of its
row, and nothing else has changed. -/
structure Normalized (add sub div : α → α → α) (F : Analysis α) (zero : α) (g : Grid)
    (src dst dst' : Array α) : Prop where
  size : dst'.size = dst.size
  elements : ∀ i j, i < g.rows → j < g.cols → ∃ x, src[g.offset i j]? = some x ∧
    dst'[g.offset i j]? = some (div (power F sub (row zero src g i) x)
      (denominator F add sub zero (row zero src g i)))
  behind : ∀ k, g.size ≤ k → dst'[k]? = dst[k]?

section Total

variable {A : Arithmetic α} {add sub div : α → α → α} (hadd : ∀ y z, A.add y z = .ok (add y z))
  (hsub : ∀ y z, A.sub y z = .ok (sub y z)) (hdiv : ∀ y z, A.div y z = .ok (div y z))

include hadd hsub hdiv

omit hdiv in
theorem powers_of_total (F : Analysis α) (top : α) (xs : List α) (sum : α) :
    powers A F top xs sum = .ok (xs.map fun x => F.exp (sub x top),
      (xs.map fun x => F.exp (sub x top)).foldl add sum) := by
  induction xs generalizing sum with
  | nil => rfl
  | cons x xs ih =>
    unfold powers
    rw [hsub, ok_bind, hadd, ok_bind, ih]
    rfl

theorem softmaxLine_of_total (F : Analysis α) (xs : List α) :
    softmaxLine A F xs = .ok (xs.map fun x =>
      div (power F sub xs x) (denominator F add sub A.zero xs)) := by
  unfold softmaxLine
  rw [powers_of_total hadd hsub F]
  change (xs.map (power F sub xs)).mapM (A.div · _) = _
  simp only [hdiv]
  rw [List.mapM_map]
  exact List.mapM_pure

theorem softmax_normalized (F : Analysis α) {g : Grid} {src dst : Array α}
    (hsize : g.size < Size.limit) (h : src.size = dst.size) (hs : g.size ≤ src.size) :
    (softmax A F src g dst).2 = .ok () ∧
      Normalized add sub div F A.zero g src dst (softmax A F src g dst).1 := by
  rcases softmax_fillsRows A F hsize h hs with ⟨hends, hall⟩ | ⟨i, -, t, ht, -⟩
  · refine ⟨hends, hall.size, fun i j hi hj => ?_, fun k hk => hall.others k ?_⟩
    · obtain ⟨ys, hys, hat⟩ := hall.elements i (List.mem_range.mpr hi)
      rw [softmaxLine_of_total hadd hsub hdiv F] at hys
      have hread := Buffer.read_eq_ok_iff.mp (read_entry A.zero hs hi hj)
      refine ⟨_, hread, ?_⟩
      rw [hat j hj, ← Except.ok.inj hys, List.getElem?_map, getElem_row A.zero src hj]
      rfl
    · intro i hi j hj heq
      have hlt := Grid.offset_lt_size (List.mem_range.mp hi) hj
      omega
  · have hline := softmaxLine_of_total hadd hsub hdiv F (row A.zero src g i)
    cases hline.symm.trans ht

end Total

/-! ## The definition of a softmax -/

/-- The row of a matrix is made of its elements. -/
theorem row_congr {g : Grid} {i : Nat} (zero : α) {xs ys : Array α}
    (h : ∀ j, j < g.cols → ys[g.offset i j]? = xs[g.offset i j]?) :
    row zero ys g i = row zero xs g i := by
  refine List.map_congr_left fun j hj => ?_
  unfold entry
  rw [Array.getD_eq_getD_getElem?, Array.getD_eq_getD_getElem?, h j (List.mem_range.mp hj)]

theorem softmax_of_limit_le (A : Arithmetic α) (F : Analysis α) {g : Grid} {src dst : Array α}
    (h : src.size = dst.size) (hlimit : Size.limit ≤ g.size) :
    softmax A F src g dst = (dst, .error (.trap (.overflow .mul))) := by
  have hover : ¬g.rows * g.cols < Size.limit := Nat.not_lt.mpr hlimit
  unfold softmax requireEqual requireHolds Grid.checkedSize Size.mul
  rw [if_pos h, if_neg hover]
  rfl

/-- Where sums, differences and quotients always have a value, softmax refuses buffers of different
lengths and buffers that do not hold the matrix, and traps if the elements of the matrix cannot be
counted; nothing changes then.  Otherwise every element becomes `exp (x - top) / sum`, `top` being
the maximum of its row from negative infinity, and `sum` the sum of these exponentials from zero,
both in the order of the columns; what lies behind the matrix stays.  A row of the result depends on
that row of the source alone. -/
theorem softmax_spec (A : Arithmetic α) (F : Analysis α) (add sub div : α → α → α)
    (hadd : ∀ y z, A.add y z = .ok (add y z)) (hsub : ∀ y z, A.sub y z = .ok (sub y z))
    (hdiv : ∀ y z, A.div y z = .ok (div y z)) (g : Grid) :
    (∀ src dst, src.size ≠ dst.size →
      softmax A F src g dst = refuse dst (.lengthMismatch src.size dst.size)) ∧
    (∀ src dst, src.size = dst.size → Size.limit ≤ g.size →
      softmax A F src g dst = (dst, .error (.trap (.overflow .mul)))) ∧
    (g.size < Size.limit →
      (∀ src dst, src.size = dst.size → src.size < g.size →
        softmax A F src g dst = refuse dst (.matrixTooSmall src.size g.rows g.cols)) ∧
      (∀ src dst, src.size = dst.size → g.size ≤ src.size →
        (softmax A F src g dst).2 = .ok () ∧
          Normalized add sub div F A.zero g src dst (softmax A F src g dst).1) ∧
      ∀ src dst src' dst' i, src.size = dst.size → g.size ≤ src.size → src'.size = dst'.size →
        g.size ≤ src'.size → i < g.rows →
        (∀ j, j < g.cols → src'[g.offset i j]? = src[g.offset i j]?) →
        ∀ j, j < g.cols → (softmax A F src' g dst').1[g.offset i j]? =
          (softmax A F src g dst).1[g.offset i j]?) := by
  refine ⟨fun src dst h => ?_, fun src dst => softmax_of_limit_le A F,
    fun hsize => ⟨fun src dst h hlt => ?_,
      fun src dst h hs => softmax_normalized hadd hsub hdiv F hsize h hs, ?_⟩⟩
  · unfold softmax requireEqual
    rw [if_neg h]
    rfl
  · unfold softmax requireEqual
    rw [if_pos h, requireHolds_of_lt hsize hlt]
    rfl
  · intro src dst src' dst' i h hs h' hs' hi hsame j hj
    obtain ⟨-, hresult⟩ := softmax_normalized hadd hsub hdiv F hsize h hs
    obtain ⟨-, hresult'⟩ := softmax_normalized hadd hsub hdiv F hsize h' hs'
    obtain ⟨x, hx, hat⟩ := hresult.elements i j hi hj
    obtain ⟨x', hx', hat'⟩ := hresult'.elements i j hi hj
    obtain rfl : x' = x := Option.some.inj ((hx'.symm.trans (hsame j hj)).trans hx)
    rw [hat, hat', row_congr A.zero hsame]

/-- Rational numbers, whose operations always have a value. -/
def rational : Arithmetic Rat where
  zero := 0
  one := 1
  isZero x := x == 0
  add x y := .ok (x + y)
  sub x y := .ok (x - y)
  mul x y := .ok (x * y)
  div x y := .ok (x / y)
  neg x := .ok (-x)
  abs x := .ok (if x < 0 then -x else x)
  lt x y := x < y
  le x y := x ≤ y

/-- An increasing function in the place of the exponential. -/
def stepped : Analysis Rat where
  negInfinity := -100
  max x y := if x < y then y else x
  exp x := x + 3
  ln x := x
  sqrt x := x
  tanh x := x
  pow x _ := x

/-- The second rows of two matrices agree that are stored transposed, in buffers of different
lengths.  The first ones do not. -/
theorem softmax_spec_transposed_rows :
    let g : Grid := ⟨2, 2, true⟩
    let o := softmax rational stepped #[1, 4, 2, 5, 9] g #[0, 0, 0, 0, 7]
    let o' := softmax rational stepped #[8, 4, 0, 5] g #[6, 6, 6, 6]
    g.size < Size.limit ∧ o.2 = .ok () ∧ o.1[1]? = some (2 / 5) ∧ o.1[3]? = some (3 / 5) ∧
      o.1[4]? = some 7 ∧ o'.1[1]? = some (2 / 5) ∧ o'.1[3]? = some (3 / 5) ∧
      softmax rational stepped #[1, 4, 2] g #[0, 0, 0] =
        refuse #[0, 0, 0] (.matrixTooSmall 3 2 2) := by
  intro g o o'
  have hsize : g.size < Size.limit := by decide
  obtain ⟨-, -, h⟩ := softmax_spec rational stepped (· + ·) (· - ·) (· / ·) (fun _ _ => rfl)
    (fun _ _ => rfl) (fun _ _ => rfl) g
  obtain ⟨hshort, hfills, hrows⟩ := h hsize
  obtain ⟨hends, hall⟩ := hfills #[1, 4, 2, 5, 9] #[0, 0, 0, 0, 7] rfl (by decide)
  have hrow : ∀ j, j < g.cols →
      #[(8 : Rat), 4, 0, 5][g.offset 1 j]? = #[(1 : Rat), 4, 2, 5, 9][g.offset 1 j]? := by
    decide +kernel
  have hsame := hrows #[1, 4, 2, 5, 9] #[0, 0, 0, 0, 7] #[8, 4, 0, 5] #[6, 6, 6, 6] 1 rfl
    (by decide) rfl (by decide) (by decide) hrow
  have hleft : o.1[1]? = some (2 / 5) := by decide +kernel
  have hright : o.1[3]? = some (3 / 5) := by decide +kernel
  exact ⟨hsize, hends, hleft, hright, hall.behind 4 (by decide),
    (hsame 0 (by decide)).trans hleft, (hsame 1 (by decide)).trans hright,
    hshort #[1, 4, 2] #[0, 0, 0] rfl (by decide)⟩

/-- A buffer that does not hold the matrix is not refused if the matrix has `2 ^ 64` elements. -/
theorem softmax_of_uncountable_matrix_traps :
    let g : Grid := ⟨2 ^ 32, 2 ^ 32, false⟩
    let src : Array (Elem .float32) := #[0x3f800000#32]
    let dst : Array (Elem .float32) := #[0#32]
    src.size = dst.size ∧ src.size < g.size ∧
      softmax (arithmetic .float32) (Binary.analysis .single) src g dst =
        (dst, .error (.trap (.overflow .mul))) :=
  ⟨rfl, by decide, softmax_of_limit_le _ _ rfl (by decide)⟩

end DeviceTensor.Kernel
