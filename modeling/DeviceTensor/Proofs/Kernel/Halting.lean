import DeviceTensor.Proofs.Kernel.Conversion
import DeviceTensor.Proofs.Kernel.Exactness
set_option autoImplicit false

/-!
# Where a kernel halts

The arithmetic of elements is partial, and what a kernel leaves when it halts on the way can be
seen.  A kernel visits the cells of its destination in an order that does not depend on how they
are stored.  It halts at the first cell that has no value: the cells before it hold theirs, each
stored once, and everything else is as it was.
-/

namespace DeviceTensor

open DeviceTensor.Except

/-! ## The order of a grid -/

namespace Grid

/-- Cell `c` comes before cell `d`, row by row. -/
def Before (c d : Nat × Nat) : Prop := c.1 < d.1 ∨ c.1 = d.1 ∧ c.2 < d.2

instance : DecidableRel Before := fun _ _ => inferInstanceAs (Decidable (_ ∨ _ ∧ _))

theorem Before.asymm {c d : Nat × Nat} (h : Before c d) : ¬Before d c := by
  unfold Before at h ⊢
  omega

/-- The cells of a grid are listed row by row. -/
theorem pairwise_cells (g : Grid) : g.cells.Pairwise Before := by
  unfold cells
  refine List.pairwise_flatMap.mpr ⟨?_, ?_⟩
  · intro i _
    refine List.pairwise_map.mpr (List.pairwise_lt_range.imp ?_)
    intro j l hjl
    exact .inr ⟨rfl, hjl⟩
  · refine List.pairwise_lt_range.imp ?_
    intro i k hik c hc d hd
    obtain ⟨j, -, rfl⟩ := List.mem_map.mp hc
    obtain ⟨l, -, rfl⟩ := List.mem_map.mp hd
    exact .inl hik

end Grid

/-! ## Kernels that halt -/

variable {ι α : Type}

/-- The run of a kernel has halted at `c`, which is the first cell without a value.  The cells
before it hold their values, and everything else is as it was. -/
structure StopsAt (cells : List ι) (earlier : ι → ι → Prop) [DecidableRel earlier] (site : ι → Nat)
    (value : ι → Except Halt α) (dst : Array α) (o : Outcome α) (c : ι) : Prop where
  mem : c ∈ cells
  fails : ∃ e, value c = .error e ∧ o.2 = .error e
  placed : Placed (cells.filter (earlier · c)) site value dst o.1

/-- The run of a kernel stores the values of all cells, or it halts at the first cell that has
none. -/
structure LeavesPrefix (cells : List ι) (earlier : ι → ι → Prop) [DecidableRel earlier]
    (site : ι → Nat) (value : ι → Except Halt α) (dst : Array α) (o : Outcome α) : Prop where
  ends : o.2 = .ok () ↔ ∀ c ∈ cells, ∃ x, value c = .ok x
  placed : o.2 = .ok () → Placed cells site value dst o.1
  stops : ∀ e, o.2 = .error e → ∃ c, StopsAt cells earlier site value dst o c

section

variable {earlier : ι → ι → Prop} [DecidableRel earlier] {cells before later : List ι} {c d : ι}
  {site : ι → Nat} {value : ι → Except Halt α} {dst : Array α} {o : Outcome α} {e : Halt}
  {place : ι → Array α → Except Halt (Nat × α)}

/-- What precedes a cell in an ordered list is what comes earlier. -/
theorem filter_earlier (hasymm : ∀ c d, earlier c d → ¬earlier d c)
    (hsorted : (before ++ c :: later).Pairwise earlier) :
    (before ++ c :: later).filter (earlier · c) = before := by
  obtain ⟨-, hlater, hbefore⟩ := List.pairwise_append.mp hsorted
  have hnot : ∀ d ∈ c :: later, ¬earlier d c := by
    intro d hd
    rcases List.mem_cons.mp hd with rfl | hd
    · exact fun h => hasymm d d h h
    · exact hasymm c d ((List.pairwise_cons.mp hlater).1 d hd)
  rw [List.filter_append, List.filter_eq_self.mpr, List.filter_eq_nil_iff.mpr, List.append_nil]
  · intro d hd
    rw [decide_eq_true_iff]
    exact hnot d hd
  · intro d hd
    rw [decide_eq_true_iff]
    exact hbefore d hd c List.mem_cons_self

/-- A kernel halts at one cell only. -/
theorem StopsAt.unique (hsorted : (before ++ c :: later).Pairwise earlier)
    (hok : ∀ d ∈ before, ∃ x, value d = .ok x) (hc : value c = .error e)
    (h : StopsAt (before ++ c :: later) earlier site value dst o d) : d = c := by
  obtain ⟨e', hd, -⟩ := h.fails
  rcases List.mem_append.mp h.mem with hmem | hmem
  · obtain ⟨x, hx⟩ := hok d hmem
    rw [hx] at hd
    cases hd
  · rcases List.mem_cons.mp hmem with heq | hmem
    · exact heq
    · have hcd : earlier c d :=
        (List.pairwise_cons.mp (List.pairwise_append.mp hsorted).2.1).1 d hmem
      have hearlier : c ∈ (before ++ c :: later).filter (earlier · d) :=
        List.mem_filter.mpr ⟨List.mem_append_right _ List.mem_cons_self, decide_eq_true hcd⟩
      obtain ⟨x, hx, -⟩ := h.placed.placed c hearlier
      rw [hx] at hc
      cases hc

namespace Sited

/-- A sweep halts at the first cell without a value. -/
theorem leavesPrefix (h : Sited place cells site value dst) (hsorted : cells.Pairwise earlier)
    (hasymm : ∀ c d, earlier c d → ¬earlier d c) :
    LeavesPrefix cells earlier site value dst (sweep place cells dst) := by
  rcases forall_or_first value cells with hall | ⟨before, c, later, e, rfl, hbefore, hc⟩
  · obtain ⟨hends, hplaced, -⟩ := h.sweep_of_forall hall
    refine ⟨iff_of_true hends hall, fun _ => hplaced, ?_⟩
    intro e he
    rw [hends] at he
    cases he
  · obtain ⟨hends, hplaced, -⟩ := h.sweep_of_first hbefore hc
    have hmem : c ∈ before ++ c :: later := List.mem_append_right _ List.mem_cons_self
    have hstops : (sweep place (before ++ c :: later) dst).2 ≠ .ok () := by
      rw [hends]
      nofun
    refine ⟨iff_of_false hstops ?_, fun hok => absurd hok hstops, ?_⟩
    · intro hall
      obtain ⟨x, hx⟩ := hall c hmem
      rw [hx] at hc
      cases hc
    · intro _ _
      refine ⟨c, hmem, ⟨e, hc, hends⟩, ?_⟩
      rw [filter_earlier hasymm hsorted]
      exact hplaced

/-- A sweep that halts has stored once for every cell before, in order. -/
theorem stores_of_stopsAt (h : Sited place cells site value dst) (hsorted : cells.Pairwise earlier)
    (hasymm : ∀ c d, earlier c d → ¬earlier d c)
    (hstops : StopsAt cells earlier site value dst o d) :
    (stores place cells dst).map Prod.fst = (cells.filter (earlier · d)).map site := by
  rcases forall_or_first value cells with hall | ⟨before, c, later, e, rfl, hbefore, hc⟩
  · obtain ⟨e, he, -⟩ := hstops.fails
    obtain ⟨x, hx⟩ := hall d hstops.mem
    rw [hx] at he
    cases he
  · obtain rfl := hstops.unique hsorted hbefore hc
    obtain ⟨-, -, hstores⟩ := h.sweep_of_first hbefore hc
    rw [hstores, filter_earlier hasymm hsorted]

/-- No place is stored at twice. -/
theorem nodup_stores (h : Sited place cells site value dst) :
    ((stores place cells dst).map Prod.fst).Nodup := by
  rcases forall_or_first value cells with hall | ⟨before, c, later, e, rfl, hbefore, hc⟩
  · obtain ⟨-, -, hstores⟩ := h.sweep_of_forall hall
    exact hstores ▸ h.own
  · obtain ⟨-, -, hstores⟩ := h.sweep_of_first hbefore hc
    have hown := h.own
    rw [List.map_append] at hown
    exact hstores ▸ (List.nodup_append.mp hown).1

end Sited

end

namespace Kernel

/-! ## Kernels with one position for every cell -/

section

variable {α β : Type} {dst : Array β}

theorem range_leavesPrefix {place : Nat → Array β → Except Halt (Nat × β)}
    {value : Nat → Except Halt β} {n : Nat} (h : Sited place (List.range n) id value dst) :
    LeavesPrefix (List.range n) (· < ·) id value dst (sweep place (List.range n) dst) :=
  h.leavesPrefix List.pairwise_lt_range fun _ _ => Nat.lt_asymm

theorem map_leavesPrefix (f : α → Except Trap β) {src : Array α} (h : src.size = dst.size) :
    LeavesPrefix (List.range src.size) (· < ·) id
      (fun i => Halt.ofTrap (Buffer.read src i >>= f)) dst (map f src dst) := by
  unfold map requireEqual
  rw [if_pos h]
  refine range_leavesPrefix (sited_range h fun i _ _ _ _ => ?_)
  simp only [Halt.liftM_eq, Halt.ofTrap_bind, bind_assoc]
  rfl

/-- What `f` makes of two elements. -/
def zippedAt (f : α → α → Except Trap β) (lhs rhs : Array α) (i : Nat) : Except Trap β := do
  let x ← Buffer.read lhs i
  let y ← Buffer.read rhs i
  f x y

theorem cast_leavesPrefix (convert : α → Option β) {src : Array α} (h : src.size = dst.size) :
    LeavesPrefix (List.range src.size) (· < ·) id (castAt convert src) dst
      (cast convert src dst) := by
  rw [cast_eq h]
  exact range_leavesPrefix (sited_cast h)

end

variable {α : Type} {A : Arithmetic α} {f : α → α → Except Trap α} {lhs rhs v m src dst : Array α}
  {g : Grid}

theorem zip_leavesPrefix (f : α → α → Except Trap α) (hlr : lhs.size = rhs.size)
    (h : lhs.size = dst.size) :
    LeavesPrefix (List.range lhs.size) (· < ·) id (fun i => Halt.ofTrap (zippedAt f lhs rhs i)) dst
      (zip f lhs rhs dst) := by
  unfold zip requireEqual
  rw [if_pos hlr, if_pos h]
  refine range_leavesPrefix (sited_range h fun i _ _ _ _ => ?_)
  simp only [zippedAt, Halt.liftM_eq, Halt.ofTrap_bind, bind_assoc]
  rfl

/-- The scaled sum at a position. -/
def scaledAt (A : Arithmetic α) (alpha : α) (src dst : Array α) (i : Nat) : Except Trap α := do
  let x ← Buffer.read src i
  let y ← Buffer.read dst i
  let scaled ← A.mul alpha x
  A.add scaled y

theorem addScaled_leavesPrefix (A : Arithmetic α) (alpha : α) (h : src.size = dst.size) :
    LeavesPrefix (List.range src.size) (· < ·) id
      (fun i => Halt.ofTrap (scaledAt A alpha src dst i)) dst (addScaled A alpha src dst) := by
  unfold addScaled requireEqual
  rw [if_pos h]
  refine range_leavesPrefix (sited_range h fun i _ dst' hsize hat => ?_)
  simp only [scaledAt, Halt.liftM_eq, Halt.ofTrap_bind, bind_assoc, Buffer.read_congr hsize hat]
  rfl

/-! ## Broadcasts -/

/-- A kernel that combines the elements of a matrix in place, each with element `k` of a vector, row
by row.  It stores at most once at every place. -/
structure CombinesPrefix (f : α → α → Except Trap α) (v : Array α) (k : Nat × Nat → Nat) (g : Grid)
    (m : Array α) (o : Outcome α) : Prop extends LeavesPrefix g.cells Grid.Before (placeOf g)
      (fun c => Halt.ofTrap (combined f v g k m c)) m o where
  stored : o.1 = afterStores (stores (combineAt f v g k) g.cells m) m
  once : ((stores (combineAt f v g k) g.cells m).map Prod.fst).Nodup
  order : ∀ c, StopsAt g.cells Grid.Before (placeOf g)
      (fun c => Halt.ofTrap (combined f v g k m c)) m o c →
    (stores (combineAt f v g k) g.cells m).map Prod.fst =
      (g.cells.filter (Grid.Before · c)).map (placeOf g)

theorem sweep_combinesPrefix (k : Nat × Nat → Nat) (hm : requireHolds m.size g = .ok ()) :
    CombinesPrefix f v k g m (sweep (combineAt f v g k) g.cells m) := by
  obtain ⟨hsize, hle⟩ := requireHolds_eq_ok hm
  have hsited : Sited (combineAt f v g k) g.cells (placeOf g)
      (fun c => Halt.ofTrap (combined f v g k m c)) m := combineAt_sited hsize hle
  have hsorted := g.pairwise_cells
  have hasymm : ∀ c d, Grid.Before c d → ¬Grid.Before d c := fun _ _ => Grid.Before.asymm
  exact ⟨hsited.leavesPrefix hsorted hasymm, sweep_fst _ _ _, hsited.nodup_stores,
    fun c hc => hsited.stores_of_stopsAt hsorted hasymm hc⟩

theorem broadcastRow_combinesPrefix (f : α → α → Except Trap α) (hv : v.size = g.cols)
    (hm : requireHolds m.size g = .ok ()) :
    CombinesPrefix f v (·.2) g m (broadcastRow f v g m) := by
  unfold broadcastRow requireEqual
  rw [if_pos hv, hm]
  exact sweep_combinesPrefix _ hm

theorem broadcastColumn_combinesPrefix (f : α → α → Except Trap α) (hv : v.size = g.rows)
    (hm : requireHolds m.size g = .ok ()) :
    CombinesPrefix f v (·.1) g m (broadcastColumn f v g m) := by
  unfold broadcastColumn requireEqual
  rw [if_pos hv, hm]
  exact sweep_combinesPrefix _ hm

/-! ## Sums -/

/-- The sum from zero of the elements of a line of a matrix, in order. -/
def lineTotal (A : Arithmetic α) (m : Array α) (g : Grid) (line : Nat → Nat × Nat) (n : Nat) :
    Except Trap α :=
  (List.range n).foldlM (fun acc p => Buffer.read m (placeOf g (line p)) >>= A.add acc) A.zero

/-- The sum that a kernel takes of a line. -/
theorem foldlM_addElement_eq (A : Arithmetic α) (m : Array α) (hsize : g.size < Size.limit)
    {line : Nat → Nat × Nat} {n : Nat} (hline : ∀ p, p < n → line p ∈ g.cells) :
    (List.range n).foldlM (fun acc p => Halt.ofTrap (addElement A m g acc (line p).1 (line p).2))
      A.zero = Halt.ofTrap (lineTotal A m g line n) := by
  rw [Halt.foldlM_ofTrap]
  refine congrArg Halt.ofTrap (foldlM_congr (fun acc p hp => ?_) A.zero)
  obtain ⟨hi, hj⟩ := Grid.mem_cells_iff.mp (hline p (List.mem_range.mp hp))
  unfold addElement
  rw [Grid.checkedOffset_of_lt hsize hi hj]
  rfl

theorem sumRows_leavesPrefix (A : Arithmetic α) (hdst : dst.size = g.cols)
    (hm : requireHolds m.size g = .ok ()) :
    LeavesPrefix (List.range g.cols) (· < ·) id
      (fun j => Halt.ofTrap (lineTotal A m g (fun i => (i, j)) g.rows)) dst
      (sumRows A m g dst) := by
  unfold sumRows requireEqual
  rw [if_pos hdst, hm]
  refine range_leavesPrefix (sited_range hdst.symm fun j hj _ _ _ => ?_)
  exact congrArg (· >>= _) (foldlM_addElement_eq A m (requireHolds_eq_ok hm).1 fun i hi =>
    Grid.mem_cells_iff.mpr ⟨hi, hj⟩)

theorem sumColumns_leavesPrefix (A : Arithmetic α) (hdst : dst.size = g.rows)
    (hm : requireHolds m.size g = .ok ()) :
    LeavesPrefix (List.range g.rows) (· < ·) id
      (fun i => Halt.ofTrap (lineTotal A m g (fun j => (i, j)) g.cols)) dst
      (sumColumns A m g dst) := by
  unfold sumColumns requireEqual
  rw [if_pos hdst, hm]
  refine range_leavesPrefix (sited_range hdst.symm fun i hi _ _ _ => ?_)
  exact congrArg (· >>= _) (foldlM_addElement_eq A m (requireHolds_eq_ok hm).1 fun j hj =>
    Grid.mem_cells_iff.mpr ⟨hi, hj⟩)

/-! ## Products -/

theorem product_leavesPrefix (A : Arithmetic α) (alpha beta : α) {a b c : Array α} {x : Extents}
    (h : requireProduct x a.size b.size c.size = .ok ()) :
    LeavesPrefix (resultGrid x).cells Grid.Before (placeOf (resultGrid x))
      (fun cell => Halt.ofTrap (productEntry A alpha a b beta x c cell)) c
      (product A alpha a b beta x c) := by
  rw [product_eq, h]
  exact (productAt_sited (holdsProduct_of_require h)).leavesPrefix (Grid.pairwise_cells _)
    fun _ _ => Grid.Before.asymm

/-! ## All of them -/

/-- On buffers that pass their checks, a kernel stores the values of all its cells or halts at the
first one that has none, with the cells before it updated and everything else unchanged.  The cells
are positions in order for maps, casts and scaled additions and for the sums of rows and columns;
they are the elements of the matrix, row by row however it is stored, for broadcasts and products.
A broadcast, which updates in place, stores once at every place. -/
theorem kernels_leave_prefix (α β : Type) :
    (∀ (f : α → Except Trap β) (src : Array α) (dst : Array β), src.size = dst.size →
      LeavesPrefix (List.range src.size) (· < ·) id
        (fun i => Halt.ofTrap (Buffer.read src i >>= f)) dst (map f src dst)) ∧
    (∀ (f : α → α → Except Trap α) (lhs rhs dst : Array α), lhs.size = rhs.size →
      lhs.size = dst.size →
        LeavesPrefix (List.range lhs.size) (· < ·) id
          (fun i => Halt.ofTrap (zippedAt f lhs rhs i)) dst (zip f lhs rhs dst)) ∧
    (∀ (A : Arithmetic α) (alpha : α) (src dst : Array α), src.size = dst.size →
      LeavesPrefix (List.range src.size) (· < ·) id
        (fun i => Halt.ofTrap (scaledAt A alpha src dst i)) dst (addScaled A alpha src dst)) ∧
    (∀ (convert : α → Option β) (src : Array α) (dst : Array β), src.size = dst.size →
      LeavesPrefix (List.range src.size) (· < ·) id (castAt convert src) dst
        (cast convert src dst)) ∧
    (∀ (f : α → α → Except Trap α) (v : Array α) (g : Grid) (m : Array α),
      requireHolds m.size g = .ok () →
        (v.size = g.cols → CombinesPrefix f v (·.2) g m (broadcastRow f v g m)) ∧
        (v.size = g.rows → CombinesPrefix f v (·.1) g m (broadcastColumn f v g m))) ∧
    (∀ (A : Arithmetic α) (m : Array α) (g : Grid) (dst : Array α),
      requireHolds m.size g = .ok () →
        (dst.size = g.cols → LeavesPrefix (List.range g.cols) (· < ·) id
          (fun j => Halt.ofTrap (lineTotal A m g (fun i => (i, j)) g.rows)) dst
          (sumRows A m g dst)) ∧
        (dst.size = g.rows → LeavesPrefix (List.range g.rows) (· < ·) id
          (fun i => Halt.ofTrap (lineTotal A m g (fun j => (i, j)) g.cols)) dst
          (sumColumns A m g dst))) ∧
    ∀ (A : Arithmetic α) (alpha : α) (a b : Array α) (beta : α) (x : Extents) (c : Array α),
      requireProduct x a.size b.size c.size = .ok () →
        LeavesPrefix (resultGrid x).cells Grid.Before (placeOf (resultGrid x))
          (fun cell => Halt.ofTrap (productEntry A alpha a b beta x c cell)) c
          (product A alpha a b beta x c) :=
  ⟨fun f _ _ h => map_leavesPrefix f h, fun f _ _ _ hlr h => zip_leavesPrefix f hlr h,
    fun A alpha _ _ h => addScaled_leavesPrefix A alpha h,
    fun convert _ _ h => cast_leavesPrefix convert h,
    fun f _ _ _ hm => ⟨fun hv => broadcastRow_combinesPrefix f hv hm,
      fun hv => broadcastColumn_combinesPrefix f hv hm⟩,
    fun A _ _ _ hm => ⟨fun hdst => sumRows_leavesPrefix A hdst hm,
      fun hdst => sumColumns_leavesPrefix A hdst hm⟩,
    fun A alpha _ _ beta _ _ h => product_leavesPrefix A alpha beta h⟩

/-- A broadcast over the rows of a transposed matrix halts at the first element of its second row:
the first row has been updated, whose elements do not lie side by side.  A map, a cast, a sum and a
product halt in the middle likewise. -/
theorem kernels_leave_prefix_transposed :
    requireHolds 4 ⟨2, 2, true⟩ = .ok () ∧
      requireProduct { rows := 1, cols := 2, inner := 1 } 1 2 2 = .ok () ∧
      broadcastRow (Word.arithmetic 8).add #[1, 100] ⟨2, 2, true⟩ #[1, 127, 3, 4] =
        (#[2, 127, 103, 4], .error (.trap (.overflow .add))) ∧
      (∃ c, StopsAt (Grid.mk 2 2 true).cells Grid.Before (placeOf ⟨2, 2, true⟩)
        (fun c => Halt.ofTrap
          (combined (Word.arithmetic 8).add #[1, 100] ⟨2, 2, true⟩ (·.2) #[1, 127, 3, 4] c))
        #[1, 127, 3, 4] (#[2, 127, 103, 4], .error (.trap (.overflow .add))) c ∧
        (stores (combineAt (Word.arithmetic 8).add #[1, 100] ⟨2, 2, true⟩ (·.2))
          (Grid.mk 2 2 true).cells #[1, 127, 3, 4]).map Prod.fst =
            ((Grid.mk 2 2 true).cells.filter (Grid.Before · c)).map (placeOf ⟨2, 2, true⟩)) ∧
      (∃ i, StopsAt (List.range 3) (· < ·) id
        (fun i => Halt.ofTrap (Buffer.read #[1, -128, 3] i >>= Word.neg)) #[(9 : BitVec 8), 9, 9]
        (#[-1, 9, 9], .error (.trap (.overflow .neg))) i) ∧
      (∃ i, StopsAt (List.range 2) (· < ·) id
        (castAt (fun x : BitVec 8 => Word.ofInt? 4 x.toInt) #[5, 9]) #[0, 1]
        (#[5, 1], .error (.refused (.castOutOfRange 1))) i) ∧
      (∃ i, StopsAt (List.range 2) (· < ·) id
        (fun i => Halt.ofTrap
          (lineTotal (Word.arithmetic 8) #[1, 100, 3, 100] ⟨2, 2, true⟩ (fun j => (i, j)) 2))
        #[9, 9] (#[4, 9], .error (.trap (.overflow .add))) i) ∧
      ∃ cell, StopsAt (Grid.mk 1 2 false).cells Grid.Before (placeOf ⟨1, 2, false⟩)
        (fun cell => Halt.ofTrap (productEntry (Word.arithmetic 8) 1 #[100] #[1, 2] 0
          { rows := 1, cols := 2, inner := 1 } #[7, 7] cell))
        #[7, 7] (#[100, 7], .error (.trap (.overflow .mul))) cell := by
  have hm : requireHolds 4 ⟨2, 2, true⟩ = .ok () := rfl
  have hx : requireProduct { rows := 1, cols := 2, inner := 1 } 1 2 2 = .ok () := rfl
  have hrow : broadcastRow (Word.arithmetic 8).add #[1, 100] ⟨2, 2, true⟩ #[1, 127, 3, 4] =
      (#[2, 127, 103, 4], .error (.trap (.overflow .add))) := by decide +kernel
  obtain ⟨hmap, -, -, -, hbroadcast, hsum, hproduct⟩ := kernels_leave_prefix (BitVec 8) (BitVec 8)
  obtain ⟨-, -, -, hcast, -⟩ := kernels_leave_prefix (BitVec 8) (BitVec 4)
  have hcombines :=
    (hbroadcast (Word.arithmetic 8).add #[1, 100] ⟨2, 2, true⟩ #[1, 127, 3, 4] hm).1 rfl
  rw [hrow] at hcombines
  obtain ⟨c, hc⟩ := hcombines.stops _ rfl
  refine ⟨hm, hx, hrow, ⟨c, hc, hcombines.order c hc⟩, ?_, ?_, ?_, ?_⟩
  · exact (hmap Word.neg #[1, -128, 3] #[9, 9, 9] rfl).stops _ rfl
  · exact (hcast (fun x => Word.ofInt? 4 x.toInt) #[5, 9] #[0, 1] rfl).stops _ rfl
  · exact ((hsum (Word.arithmetic 8) #[1, 100, 3, 100] ⟨2, 2, true⟩ #[9, 9] hm).2 rfl).stops _ rfl
  · exact (hproduct (Word.arithmetic 8) 1 #[100] #[1, 2] 0 { rows := 1, cols := 2, inner := 1 }
      #[7, 7] hx).stops _ rfl

end Kernel

end DeviceTensor
