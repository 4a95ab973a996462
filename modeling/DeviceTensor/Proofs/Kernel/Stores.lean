import Mathlib.Data.List.Nodup
import DeviceTensor.Proofs.Grid.Order
import DeviceTensor.Proofs.Kernel.Completion
set_option autoImplicit false

/-!
# What a sweep stores

A sweep leaves what its stores leave, one after the other.  Where every cell has a place of its own,
and looks at nothing in the destination but the element that stands there, no cell sees what another
one stored: the result of a cell is decided beforehand.  The sweep then stores the results up to the
first cell that has none, each at its place, and nothing else.
-/

namespace DeviceTensor

open DeviceTensor.Except

variable {ι α β : Type}

namespace Halt

theorem liftM_eq (x : Except Trap α) : (liftM x : Except Halt α) = ofTrap x := rfl

theorem ofTrap_bind (x : Except Trap α) (f : α → Except Trap β) :
    ofTrap (x >>= f) = ofTrap x >>= fun a => ofTrap (f a) := by
  cases x <;> rfl

theorem ofTrap_ok_bind (a : α) (f : α → Except Halt β) : ofTrap (.ok a) >>= f = f a := rfl

/-- Computations that all succeed do so inside a kernel. -/
theorem ofTrap_forall_ok {r : ι → Except Trap α} {cs : List ι} (h : ∀ c ∈ cs, ∃ x, r c = .ok x) :
    ∀ c ∈ cs, ∃ x, ofTrap (r c) = .ok x := by
  intro c hc
  obtain ⟨x, hx⟩ := h c hc
  exact ⟨x, ofTrap_eq_ok_iff.mpr hx⟩

theorem ofTrap_eq_error_iff {x : Except Trap α} {e : Halt} :
    ofTrap x = .error e ↔ ∃ t, x = .error t ∧ e = .trap t := by
  cases x with
  | ok a => exact ⟨nofun, nofun⟩
  | error t =>
    constructor
    · intro h
      exact ⟨t, rfl, (Except.error.inj h).symm⟩
    · rintro ⟨t', h, rfl⟩
      rw [Except.error.inj h]
      rfl

end Halt

namespace Buffer

variable {xs ys : Array α} {i : Nat} {x : α}

theorem read_eq_ok_iff : read xs i = .ok x ↔ xs[i]? = some x := by
  unfold read
  cases xs[i]? with
  | none => exact ⟨nofun, nofun⟩
  | some y =>
    constructor
    · intro h
      rw [Except.ok.inj h]
    · intro h
      rw [Option.some.inj h]

/-- Buffers of one size with the same element at a place. -/
theorem read_congr (hsize : ys.size = xs.size) (hat : ys[i]? = xs[i]?) : read ys i = read xs i := by
  unfold read
  rw [hat, hsize]

end Buffer

/-! ## Stores -/

/-- The stores of a sweep in order, each with its place and its value. -/
def stores (place : ι → Array α → Except Halt (Nat × α)) : List ι → Array α → List (Nat × α)
  | [], _ => []
  | c :: cs, dst =>
    match place c dst with
    | .ok (k, x) =>
      if k < dst.size then (k, x) :: stores place cs (dst.setIfInBounds k x) else []
    | .error _ => []

/-- What stores leave, one after the other. -/
def afterStores (ws : List (Nat × α)) (dst : Array α) : Array α :=
  ws.foldl (fun dst w => dst.setIfInBounds w.1 w.2) dst

section

variable {place : ι → Array α → Except Halt (Nat × α)} {c : ι} {dst : Array α} {k : Nat} {x : α}

theorem stores_cons_of_ok (h : place c dst = .ok (k, x)) (hk : k < dst.size) (cs : List ι) :
    stores place (c :: cs) dst = (k, x) :: stores place cs (dst.setIfInBounds k x) := by
  simp only [stores, h, if_pos hk]

theorem stores_cons_of_error {e : Halt} (h : visit place c dst = .error e) (cs : List ι) :
    stores place (c :: cs) dst = [] := by
  unfold stores
  cases hplace : place c dst with
  | error e => rfl
  | ok w =>
    apply if_neg
    intro hk
    rw [Outcome.visit_eq_ok_iff.mpr ⟨w.1, w.2, hplace, hk, rfl⟩] at h
    cases h

/-- A sweep leaves what its stores leave. -/
theorem sweep_fst (place : ι → Array α → Except Halt (Nat × α)) (cs : List ι) (dst : Array α) :
    (sweep place cs dst).1 = afterStores (stores place cs dst) dst := by
  induction cs generalizing dst with
  | nil => rfl
  | cons c cs ih =>
    unfold sweep
    cases hvisit : visit place c dst with
    | error e =>
      rw [stores_cons_of_error hvisit]
      rfl
    | ok dst' =>
      obtain ⟨k, x, hplace, hk, rfl⟩ := Outcome.visit_eq_ok_iff.mp hvisit
      rw [stores_cons_of_ok hplace hk]
      exact ih _

end

/-! ## Results of cells -/

/-- Steps that are the same at every element of a list. -/
theorem Except.foldlM_congr {ε : Type} {l : List β} {f g : α → β → Except ε α}
    (h : ∀ a, ∀ b ∈ l, f a b = g a b) (a : α) : l.foldlM f a = l.foldlM g a := by
  induction l generalizing a with
  | nil => rfl
  | cons b l ih =>
    rw [List.foldlM_cons, List.foldlM_cons, h a b List.mem_cons_self]
    apply bind_congr
    intro a'
    exact ih (fun a b hb => h a b (List.mem_cons_of_mem _ hb)) a'

/-- Cells that are visited in the same way. -/
theorem sweep_congr {place place' : ι → Array α → Except Halt (Nat × α)} {cs : List ι}
    (h : ∀ c ∈ cs, place' c = place c) (dst : Array α) :
    sweep place' cs dst = sweep place cs dst := by
  induction cs generalizing dst with
  | nil => rfl
  | cons c cs ih =>
    obtain ⟨hc, hcs⟩ := List.forall_mem_cons.mp h
    unfold sweep visit
    rw [hc]
    simp only [ih hcs]

/-- Of a list of computations, all succeed or there is a first one that fails. -/
theorem Except.forall_or_first {ε : Type} (result : ι → Except ε α) (cs : List ι) :
    (∀ c ∈ cs, ∃ x, result c = .ok x) ∨
      ∃ before c later e, cs = before ++ c :: later ∧ (∀ d ∈ before, ∃ x, result d = .ok x) ∧
        result c = .error e := by
  induction cs with
  | nil => exact .inl nofun
  | cons c cs ih =>
    cases hc : result c with
    | error e => exact .inr ⟨[], c, cs, e, rfl, nofun, hc⟩
    | ok x =>
      rcases ih with hall | ⟨before, d, later, e, rfl, hbefore, hd⟩
      · exact .inl (List.forall_mem_cons.mpr ⟨⟨x, hc⟩, hall⟩)
      · exact .inr ⟨c :: before, d, later, e, rfl,
          List.forall_mem_cons.mpr ⟨⟨x, hc⟩, hbefore⟩, hd⟩

/-- The buffer holds the result of every cell at its place, and what it held elsewhere. -/
structure Placed (cs : List ι) (site : ι → Nat) (result : ι → Except Halt α)
    (dst dst' : Array α) : Prop where
  size : dst'.size = dst.size
  placed : ∀ c ∈ cs, ∃ x, result c = .ok x ∧ dst'[site c]? = some x
  others : ∀ k, k ∉ cs.map site → dst'[k]? = dst[k]?

/-- Every cell has a place of its own in the destination.  Whatever the other places hold, it makes
its result of the element that stands there. -/
structure Sited (place : ι → Array α → Except Halt (Nat × α)) (cs : List ι) (site : ι → Nat)
    (result : ι → Except Halt α) (dst : Array α) : Prop where
  inside : ∀ c ∈ cs, site c < dst.size
  own : (cs.map site).Nodup
  place_eq : ∀ c ∈ cs, ∀ m : Array α, m.size = dst.size → m[site c]? = dst[site c]? →
    place c m = result c >>= fun x => .ok (site c, x)

namespace Placed

variable {cs : List ι} {c : ι} {site : ι → Nat} {result : ι → Except Halt α}
  {dst dst' dst'' : Array α} {x : α}

theorem nil (site : ι → Nat) (result : ι → Except Halt α) (dst : Array α) :
    Placed [] site result dst dst :=
  ⟨rfl, nofun, fun _ _ => rfl⟩

/-- One more result, stored first. -/
theorem cons (hc : result c = .ok x) (hlt : site c < dst.size) (hown : site c ∉ cs.map site)
    (h : Placed cs site result (dst.setIfInBounds (site c) x) dst') :
    Placed (c :: cs) site result dst dst' where
  size := h.size.trans Array.size_setIfInBounds
  placed := by
    intro d hd
    rcases List.mem_cons.mp hd with rfl | hd
    · have hat : dst'[site d]? = some x := by
        rw [h.others _ hown]
        exact Array.getElem?_setIfInBounds_self_of_lt hlt
      exact ⟨x, hc, hat⟩
    · exact h.placed d hd
  others := by
    intro k hk
    rw [List.map_cons, List.mem_cons, not_or] at hk
    rw [h.others k hk.2, Array.getElem?_setIfInBounds_ne (Ne.symm hk.1)]

/-- The results leave no choice. -/
theorem unique (h : Placed cs site result dst dst') (h' : Placed cs site result dst dst'') :
    dst' = dst'' := by
  apply Array.ext_getElem?
  intro k
  by_cases hk : k ∈ cs.map site
  · obtain ⟨c, hc, rfl⟩ := List.mem_map.mp hk
    obtain ⟨x, hx, hat⟩ := h.placed c hc
    obtain ⟨y, hy, hat'⟩ := h'.placed c hc
    rw [hat, hat', Except.ok.inj (hx.symm.trans hy)]
  · rw [h.others k hk, h'.others k hk]

end Placed

namespace Sited

variable {place : ι → Array α → Except Halt (Nat × α)} {cs before later : List ι} {c : ι}
  {site : ι → Nat} {result : ι → Except Halt α} {dst : Array α} {x : α} {e : Halt}

/-- The elements of a matrix have places of their own. -/
theorem of_cells {place : Nat × Nat → Array α → Except Halt (Nat × α)} {g : Grid}
    {result : Nat × Nat → Except Halt α} (hd : g.size ≤ dst.size)
    (hplace : ∀ i j, i < g.rows → j < g.cols → ∀ m : Array α, m.size = dst.size →
      m[g.offset i j]? = dst[g.offset i j]? →
        place (i, j) m = result (i, j) >>= fun x => .ok (g.offset i j, x)) :
    Sited place g.cells (fun cell => g.offset cell.1 cell.2) result dst where
  inside := by
    rintro ⟨i, j⟩ hij
    obtain ⟨hi, hj⟩ := Grid.mem_cells_iff.mp hij
    exact Nat.lt_of_lt_of_le (Grid.offset_lt_size hi hj) hd
  own := (Grid.offsets_perm g).nodup_iff.mpr List.nodup_range
  place_eq := by
    rintro ⟨i, j⟩ hij
    obtain ⟨hi, hj⟩ := Grid.mem_cells_iff.mp hij
    exact hplace i j hi hj

/-- The first cell has stored its result. -/
theorem next (h : Sited place (c :: cs) site result dst) :
    Sited place cs site result (dst.setIfInBounds (site c) x) where
  inside d hd := by
    rw [Array.size_setIfInBounds]
    exact h.inside d (List.mem_cons_of_mem c hd)
  own := (List.nodup_cons.mp h.own).2
  place_eq d hd m hsize hat := by
    have hne : site c ≠ site d := fun heq =>
      (List.nodup_cons.mp h.own).1 (heq ▸ List.mem_map_of_mem hd)
    rw [Array.size_setIfInBounds] at hsize
    rw [Array.getElem?_setIfInBounds_ne hne] at hat
    exact h.place_eq d (List.mem_cons_of_mem c hd) m hsize hat

theorem visit_of_ok (h : Sited place (c :: cs) site result dst) (hc : result c = .ok x) :
    place c dst = .ok (site c, x) ∧
      visit place c dst = .ok (dst.setIfInBounds (site c) x) := by
  have hplace : place c dst = .ok (site c, x) := by
    rw [h.place_eq c List.mem_cons_self dst rfl rfl, hc]
    rfl
  exact ⟨hplace, Outcome.visit_eq_ok_iff.mpr
    ⟨site c, x, hplace, h.inside c List.mem_cons_self, rfl⟩⟩

theorem visit_of_error (h : Sited place (c :: cs) site result dst) (hc : result c = .error e) :
    visit place c dst = .error e := by
  have hplace : place c dst = .error e := by
    rw [h.place_eq c List.mem_cons_self dst rfl rfl, hc]
    rfl
  exact bind_eq_error_iff.mpr (.inl hplace)

/-- Cells that all have results store them. -/
theorem sweep_of_forall (h : Sited place cs site result dst)
    (hok : ∀ c ∈ cs, ∃ x, result c = .ok x) :
    (sweep place cs dst).2 = .ok () ∧ Placed cs site result dst (sweep place cs dst).1 ∧
      (stores place cs dst).map Prod.fst = cs.map site := by
  induction cs generalizing dst with
  | nil => exact ⟨rfl, .nil site result dst, rfl⟩
  | cons c cs ih =>
    obtain ⟨⟨x, hc⟩, hrest⟩ := List.forall_mem_cons.mp hok
    obtain ⟨hplace, hvisit⟩ := h.visit_of_ok hc
    have hlt := h.inside c List.mem_cons_self
    obtain ⟨hends, hplaced, hstores⟩ := ih h.next hrest
    rw [stores_cons_of_ok hplace hlt, List.map_cons, List.map_cons, hstores]
    unfold sweep
    rw [hvisit]
    exact ⟨hends, .cons hc hlt (List.nodup_cons.mp h.own).1 hplaced, rfl⟩

/-- The first cell without a result ends the sweep; the cells before it have stored theirs. -/
theorem sweep_of_first (h : Sited place (before ++ c :: later) site result dst)
    (hok : ∀ d ∈ before, ∃ x, result d = .ok x) (hc : result c = .error e) :
    (sweep place (before ++ c :: later) dst).2 = .error e ∧
      Placed before site result dst (sweep place (before ++ c :: later) dst).1 ∧
      (stores place (before ++ c :: later) dst).map Prod.fst = before.map site := by
  induction before generalizing dst with
  | nil =>
    rw [List.nil_append] at h ⊢
    have hvisit := h.visit_of_error hc
    rw [stores_cons_of_error hvisit]
    unfold sweep
    rw [hvisit]
    exact ⟨rfl, .nil site result dst, rfl⟩
  | cons d before ih =>
    rw [List.cons_append] at h ⊢
    obtain ⟨⟨x, hd⟩, hrest⟩ := List.forall_mem_cons.mp hok
    obtain ⟨hplace, hvisit⟩ := h.visit_of_ok hd
    have hlt := h.inside d List.mem_cons_self
    have hown : site d ∉ before.map site := fun hmem =>
      (List.nodup_cons.mp h.own).1 (List.map_append ▸ List.mem_append_left _ hmem)
    obtain ⟨hends, hplaced, hstores⟩ := ih h.next hrest
    rw [stores_cons_of_ok hplace hlt, List.map_cons, List.map_cons, hstores]
    unfold sweep
    rw [hvisit]
    exact ⟨hends, .cons hd hlt hown hplaced, rfl⟩

end Sited

end DeviceTensor
