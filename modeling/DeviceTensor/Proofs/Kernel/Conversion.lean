import Mathlib.Data.Nat.Find
import DeviceTensor.Kernel.Pointwise
import DeviceTensor.Proofs.Kernel.Stores
set_option autoImplicit false

/-!
# Casts

A cast stores the conversion of every element, in order.  The first element without one ends it: the
elements before it are converted, and nothing is stored from there on.
-/

namespace DeviceTensor.Kernel

open DeviceTensor.Except

variable {α β : Type}

/-- Every element has a conversion. -/
def Convertible (convert : α → Option β) (src : Array α) : Prop :=
  ∀ (k : Nat) (x : α), src[k]? = some x → ∃ y, convert x = some y

/-- Element `i` is the first one without a conversion. -/
structure FirstUnconvertible (convert : α → Option β) (src : Array α) (i : Nat) : Prop where
  before : ∀ k x, k < i → src[k]? = some x → ∃ y, convert x = some y
  without : ∃ x, src[i]? = some x ∧ convert x = none

/-- The conversions of the first `n` elements have been stored over `dst`, and nothing else. -/
structure ConvertedUpTo (convert : α → Option β) (src : Array α) (n : Nat) (dst dst' : Array β) :
    Prop where
  size : dst'.size = dst.size
  elements : ∀ k, k < n → ∃ x y, src[k]? = some x ∧ convert x = some y ∧ dst'[k]? = some y
  others : ∀ k, n ≤ k → dst'[k]? = dst[k]?

variable {convert : α → Option β} {src : Array α} {dst : Array β} {i : Nat}

/-- All elements have conversions, or there is a first one without. -/
theorem convertible_or_first (convert : α → Option β) (src : Array α) :
    Convertible convert src ∨ ∃ i, FirstUnconvertible convert src i := by
  by_cases hex : ∃ (i : Nat) (x : α), src[i]? = some x ∧ convert x = none
  · classical
    refine .inr ⟨Nat.find hex, ?_, Nat.find_spec hex⟩
    intro k x hk hx
    refine Option.ne_none_iff_exists'.mp fun hnone => ?_
    exact Nat.find_min hex hk ⟨x, hx, hnone⟩
  · left
    intro k x hx
    refine Option.ne_none_iff_exists'.mp fun hnone => ?_
    exact hex ⟨k, x, hx, hnone⟩

theorem FirstUnconvertible.lt (h : FirstUnconvertible convert src i) : i < src.size := by
  obtain ⟨x, hx, -⟩ := h.without
  exact (Array.getElem?_eq_some_iff.mp hx).1

/-- There is only one first element without a conversion. -/
theorem FirstUnconvertible.unique {j : Nat} (h : FirstUnconvertible convert src i)
    (h' : FirstUnconvertible convert src j) : i = j := by
  have hle {i j : Nat} (h : FirstUnconvertible convert src i)
      (h' : FirstUnconvertible convert src j) : j ≤ i := by
    apply Nat.le_of_not_lt
    intro hlt
    obtain ⟨x, hx, hnone⟩ := h.without
    obtain ⟨y, hy⟩ := h'.before i x hlt hx
    rw [hnone] at hy
    cases hy
  exact Nat.le_antisymm (hle h' h) (hle h h')

theorem FirstUnconvertible.not_convertible (h : FirstUnconvertible convert src i) :
    ¬Convertible convert src := by
  intro hall
  obtain ⟨x, hx, hnone⟩ := h.without
  obtain ⟨y, hy⟩ := hall i x hx
  rw [hnone] at hy
  cases hy

/-! ## Cells -/

/-- The value of a cell: the conversion of its element. -/
def castAt (convert : α → Option β) (src : Array α) (i : Nat) : Except Halt β := do
  let x ← Buffer.read src i
  match convert x with
  | some y => return y
  | none => throw (.refused (.castOutOfRange i))

theorem castAt_eq {x : α} (hx : src[i]? = some x) : castAt convert src i =
    match convert x with
    | some y => .ok y
    | none => .error (.refused (.castOutOfRange i)) := by
  unfold castAt
  rw [Buffer.read_eq_ok_iff.mpr hx]
  simp only [Halt.liftM_eq, Halt.ofTrap_ok_bind]
  cases convert x <;> rfl

theorem castAt_eq_ok_iff {y : β} :
    castAt convert src i = .ok y ↔ ∃ x, src[i]? = some x ∧ convert x = some y := by
  cases hx : src[i]? with
  | none =>
    have hread (x : α) : Buffer.read src i ≠ .ok x := by
      rw [Ne, Buffer.read_eq_ok_iff, hx]
      nofun
    refine iff_of_false ?_ (by rintro ⟨x, ⟨⟩, -⟩)
    intro h
    obtain ⟨x, hread', -⟩ := bind_eq_ok_iff.mp h
    exact hread x (Halt.ofTrap_eq_ok_iff.mp hread')
  | some x =>
    rw [castAt_eq hx]
    cases hy : convert x with
    | none => exact iff_of_false nofun (by rintro ⟨_, ⟨⟩, h⟩; rw [hy] at h; cases h)
    | some z =>
      constructor
      · intro h
        exact ⟨x, rfl, hy.trans (congrArg some (Except.ok.inj h))⟩
      · rintro ⟨_, ⟨⟩, h⟩
        rw [hy] at h
        exact congrArg Except.ok (Option.some.inj h)

/-- The cells of a cast, in order. -/
def castCell (convert : α → Option β) (src : Array α) (i : Nat) (_ : Array β) :
    Except Halt (Nat × β) := do
  let x ← Buffer.read src i
  match convert x with
  | some y => return (i, y)
  | none => throw (.refused (.castOutOfRange i))

theorem cast_eq (hsize : src.size = dst.size) :
    cast convert src dst = sweep (castCell convert src) (List.range src.size) dst := by
  unfold cast checked requireEqual
  rw [if_pos hsize]
  rfl

theorem sited_cast (hsize : src.size = dst.size) :
    Sited (castCell convert src) (List.range src.size) id (castAt convert src) dst where
  inside k hk := hsize ▸ List.mem_range.mp hk
  own := by
    rw [List.map_id]
    exact List.nodup_range
  place_eq k _ m _ _ := by
    unfold castCell castAt
    cases Buffer.read src k with
    | error t => rfl
    | ok x =>
      simp only [Halt.liftM_eq, Halt.ofTrap_ok_bind]
      cases convert x <;> rfl

/-- Cells that have stored their values have stored conversions. -/
theorem convertedUpTo_of_placed {n : Nat} {dst' : Array β}
    (h : Placed (List.range n) id (castAt convert src) dst dst') :
    ConvertedUpTo convert src n dst dst' where
  size := h.size
  elements k hk := by
    obtain ⟨y, hy, hat⟩ := h.placed k (List.mem_range.mpr hk)
    obtain ⟨x, hx, hconvert⟩ := castAt_eq_ok_iff.mp hy
    exact ⟨x, y, hx, hconvert, hat⟩
  others k hk := by
    apply h.others
    rw [List.map_id, List.mem_range]
    omega

theorem castAt_of_before {n : Nat} (hn : n ≤ src.size)
    (h : ∀ k x, k < n → src[k]? = some x → ∃ y, convert x = some y) :
    ∀ k ∈ List.range n, ∃ y, castAt convert src k = .ok y := by
  intro k hk
  have hlt : k < n := List.mem_range.mp hk
  have hx : src[k]? = some src[k] := Array.getElem?_eq_getElem (Nat.lt_of_lt_of_le hlt hn)
  obtain ⟨y, hy⟩ := h k src[k] hlt hx
  exact ⟨y, castAt_eq_ok_iff.mpr ⟨src[k], hx, hy⟩⟩

/-! ## Whole casts -/

theorem cast_of_convertible (hsize : src.size = dst.size) (h : Convertible convert src) :
    (cast convert src dst).2 = .ok () ∧
      ConvertedUpTo convert src src.size dst (cast convert src dst).1 := by
  have hall := castAt_of_before (Nat.le_refl src.size) fun k x _ hx => h k x hx
  obtain ⟨hends, hplaced, -⟩ := (sited_cast hsize).sweep_of_forall hall
  rw [cast_eq hsize]
  exact ⟨hends, convertedUpTo_of_placed hplaced⟩

theorem cast_of_first (hsize : src.size = dst.size) (h : FirstUnconvertible convert src i) :
    (cast convert src dst).2 = .error (.refused (.castOutOfRange i)) ∧
      ConvertedUpTo convert src i dst (cast convert src dst).1 := by
  have hcells : ∃ later, List.range src.size = List.range i ++ i :: later := by
    obtain ⟨m, hm⟩ := Nat.exists_eq_add_of_lt h.lt
    refine ⟨(List.range m).map fun k => i + (k + 1), ?_⟩
    rw [hm, Nat.add_assoc, List.range_add, List.range_succ_eq_map, List.map_cons, List.map_map]
    rfl
  obtain ⟨later, hlater⟩ := hcells
  have hbefore := castAt_of_before (Nat.le_of_lt h.lt) h.before
  have hfails : castAt convert src i = .error (.refused (.castOutOfRange i)) := by
    obtain ⟨x, hx, hnone⟩ := h.without
    rw [castAt_eq hx, hnone]
  have hsited : Sited (castCell convert src) (List.range src.size) id (castAt convert src) dst :=
    sited_cast hsize
  rw [hlater] at hsited
  obtain ⟨hends, hplaced, -⟩ := hsited.sweep_of_first hbefore hfails
  rw [cast_eq hsize, hlater]
  exact ⟨hends, convertedUpTo_of_placed hplaced⟩

end DeviceTensor.Kernel
