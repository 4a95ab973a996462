import DeviceTensor.Store.Action
set_option autoImplicit false

/-!
# How computations and actions end

How a computation ends is read off its steps.  `Ends` follows an action: it ends with a result and a
store that satisfy one condition, or with a failure and a store that satisfy another.  `Within` says
that an action moves the store within a relation, however it ends.
-/

namespace DeviceTensor

/-! ## Results of computations -/

/-- Whether a device agrees can be decided by its answer. -/
instance decidableAgrees {ε : Type} : (x : Except ε Unit) → Decidable (x = .ok ())
  | .ok () => isTrue rfl
  | .error _ => isFalse (fun h => nomatch h)

/-- Failures that tell of devices which refuse memory. -/
class MemoryFailure (ε : Type) where
  refuses : ε → Bool

namespace Except

variable {ε ε' α β : Type}

theorem ok_bind (a : α) (f : α → Except ε β) : (.ok a : Except ε α) >>= f = f a := rfl

theorem bind_eq_ok_iff {x : Except ε α} {f : α → Except ε β} {b : β} :
    (x >>= f) = .ok b ↔ ∃ a, x = .ok a ∧ f a = .ok b := by
  cases x with
  | error e =>
    constructor
    · intro h
      cases h
    · rintro ⟨a, h, -⟩
      cases h
  | ok a =>
    constructor
    · intro h
      exact ⟨a, rfl, h⟩
    · rintro ⟨_, h, h'⟩
      cases h
      exact h'

theorem bind_eq_error_iff {x : Except ε α} {f : α → Except ε β} {e : ε} :
    (x >>= f) = .error e ↔ x = .error e ∨ ∃ a, x = .ok a ∧ f a = .error e := by
  cases x with
  | error e' =>
    constructor
    · intro h
      cases h
      exact .inl rfl
    · rintro (h | ⟨a, h, -⟩)
      · cases h
        rfl
      · cases h
  | ok a =>
    constructor
    · intro h
      exact .inr ⟨a, rfl, h⟩
    · rintro (h | ⟨_, h, h'⟩)
      · cases h
      · cases h
        exact h'

theorem pure_eq_ok_iff {a b : α} : (pure a : Except ε α) = .ok b ↔ a = b := by
  constructor
  · intro h
    cases h
    rfl
  · rintro rfl
    rfl

theorem mapError_eq_ok_iff {x : Except ε α} {f : ε → ε'} {a : α} :
    x.mapError f = .ok a ↔ x = .ok a := by
  cases x with
  | error e =>
    constructor <;> intro h <;> cases h
  | ok b =>
    constructor <;> intro h <;> cases h <;> rfl

theorem mapError_eq_error_iff {x : Except ε α} {f : ε → ε'} {e' : ε'} :
    x.mapError f = .error e' ↔ ∃ e, x = .error e ∧ f e = e' := by
  cases x with
  | error e =>
    constructor
    · intro h
      cases h
      exact ⟨e, rfl, rfl⟩
    · rintro ⟨_, h, rfl⟩
      cases h
      rfl
  | ok b =>
    constructor
    · intro h
      cases h
    · rintro ⟨_, h, -⟩
      cases h

/-- A step that a condition forbids. -/
theorem unless_eq_ok_iff {c : Prop} [Decidable c] {e : ε} {k : Unit → Except ε β} {b : β} :
    (if c then (throw e : Except ε Unit) >>= k else k ()) = .ok b ↔ ¬c ∧ k () = .ok b := by
  by_cases h : c
  · rw [if_pos h]
    constructor
    · intro hk
      cases hk
    · intro hk
      exact absurd h hk.1
  · rw [if_neg h]
    exact (and_iff_right h).symm

/-- A last step that a condition forbids. -/
theorem unless_last_eq_ok_iff {c : Prop} [Decidable c] {e : ε} {u : Unit} :
    (if c then throw e else pure () : Except ε Unit) = .ok u ↔ ¬c := by
  by_cases h : c
  · rw [if_pos h]
    constructor
    · intro hk
      cases hk
    · intro hn
      exact absurd h hn
  · rw [if_neg h]
    exact ⟨fun _ => h, fun _ => rfl⟩

/-- A step that requires two things to be equal. -/
theorem unless_ne_eq_ok_iff {γ : Type} [DecidableEq γ] {c d : γ} {e : ε} {k : Unit → Except ε β}
    {b : β} :
    (if c ≠ d then (throw e : Except ε Unit) >>= k else k ()) = .ok b ↔ c = d ∧ k () = .ok b :=
  unless_eq_ok_iff.trans (and_congr_left' Decidable.not_not)

theorem unless_ne_last_eq_ok_iff {γ : Type} [DecidableEq γ] {c d : γ} {e : ε} {u : Unit} :
    (if c ≠ d then throw e else pure () : Except ε Unit) = .ok u ↔ c = d :=
  unless_last_eq_ok_iff.trans Decidable.not_not

/-- A step that checks. -/
theorem check_eq_ok_iff {x : Except ε Unit} {p : Prop} {k : Unit → Except ε β} {b : β}
    (hx : ∀ {u}, x = .ok u ↔ p) : (x >>= k) = .ok b ↔ p ∧ k () = .ok b := by
  refine bind_eq_ok_iff.trans ?_
  constructor
  · rintro ⟨u, h, hk⟩
    exact ⟨hx.mp h, hk⟩
  · rintro ⟨h, hk⟩
    exact ⟨(), hx.mpr h, hk⟩

/-- The computation fails only as `P` admits. -/
def FailsIn (P : ε → Prop) (x : Except ε α) : Prop := ∀ e, x = .error e → P e

namespace FailsIn

variable {P : ε → Prop}

theorem ok (a : α) : FailsIn P (.ok a : Except ε α) := by
  intro e h
  cases h

theorem error {e : ε} (h : P e) : FailsIn P (.error e : Except ε α) := by
  intro e' he
  cases he
  exact h

theorem bind {x : Except ε α} {f : α → Except ε β} (hx : FailsIn P x)
    (hf : ∀ a, x = .ok a → FailsIn P (f a)) : FailsIn P (x >>= f) := by
  intro e h
  rcases bind_eq_error_iff.mp h with he | ⟨a, ha, he⟩
  · exact hx e he
  · exact hf a ha e he

theorem mapError {P' : ε' → Prop} {x : Except ε α} {f : ε → ε'} (hx : FailsIn P x)
    (hf : ∀ e, P e → P' (f e)) : FailsIn P' (x.mapError f) := by
  intro e' h
  obtain ⟨e, he, rfl⟩ := mapError_eq_error_iff.mp h
  exact hf e (hx e he)

theorem ite {c : Prop} [Decidable c] {x y : Except ε α} (hx : c → FailsIn P x)
    (hy : ¬c → FailsIn P y) : FailsIn P (if c then x else y) := by
  by_cases h : c
  · rw [if_pos h]
    exact hx h
  · rw [if_neg h]
    exact hy h

/-- A step that a condition forbids. -/
theorem forbid {c : Prop} [Decidable c] {e : ε} {k : Unit → Except ε β} (he : c → P e)
    (hk : ¬c → FailsIn P (k ())) :
    FailsIn P (if c then (throw e : Except ε Unit) >>= k else k ()) :=
  ite (fun h => error (he h)) hk

theorem foldlM {l : List β} {f : α → β → Except ε α} {a : α}
    (h : ∀ a b, b ∈ l → FailsIn P (f a b)) : FailsIn P (l.foldlM f a) := by
  induction l generalizing a with
  | nil => exact ok a
  | cons b l ih =>
    rw [List.foldlM_cons]
    refine bind (h a b List.mem_cons_self) fun a' _ => ih fun a b hb => ?_
    exact h a b (List.mem_cons_of_mem _ hb)

end FailsIn

/-- Both computations succeed, with related results, or both fail, with related failures. -/
def Relates {α' : Type} (E : ε → ε' → Prop) (R : α → α' → Prop) :
    Except ε α → Except ε' α' → Prop
  | .ok a, .ok a' => R a a'
  | .error e, .error e' => E e e'
  | .ok _, .error _ => False
  | .error _, .ok _ => False

namespace Relates

variable {α' β' : Type} {E : ε → ε' → Prop} {R : α → α' → Prop} {S : β → β' → Prop}

theorem of_eq {R : α → α → Prop} {E : ε → ε → Prop} {x y : Except ε α} (h : x = y)
    (hR : ∀ a, R a a) (hE : ∀ e, E e e) : Relates E R x y := by
  subst h
  cases x with
  | ok a => exact hR a
  | error e => exact hE e

theorem bind {x : Except ε α} {y : Except ε' α'} {f : α → Except ε β} {g : α' → Except ε' β'}
    (h : Relates E R x y) (hf : ∀ a a', R a a' → Relates E S (f a) (g a')) :
    Relates E S (x >>= f) (y >>= g) := by
  cases x with
  | ok a =>
    cases y with
    | ok a' => exact hf a a' h
    | error e' => exact h.elim
  | error e =>
    cases y with
    | ok a' => exact h.elim
    | error e' => exact h

/-- The two ways in which related computations end. -/
theorem ends {x : Except ε α} {y : Except ε' α'} (h : Relates E R x y) :
    (∃ a a', x = .ok a ∧ y = .ok a' ∧ R a a') ∨ ∃ e e', x = .error e ∧ y = .error e' ∧ E e e' := by
  cases x with
  | ok a =>
    cases y with
    | ok a' => exact .inl ⟨a, a', rfl, rfl, h⟩
    | error e' => exact h.elim
  | error e =>
    cases y with
    | ok a' => exact h.elim
    | error e' => exact .inr ⟨e, e', rfl, rfl, h⟩

/-- Computations whose failures are alike succeed together and fail together in that way. -/
theorem agree {P : ε → Prop} {P' : ε' → Prop} {x : Except ε α} {y : Except ε' α'}
    (h : Relates (fun e e' => P e ↔ P' e') R x y) :
    ((∃ a, x = .ok a) ↔ ∃ a', y = .ok a') ∧
      ((∃ e, x = .error e ∧ P e) ↔ ∃ e', y = .error e' ∧ P' e') := by
  rcases h.ends with ⟨a, a', rfl, rfl, -⟩ | ⟨e, e', rfl, rfl, hiff⟩
  · exact ⟨iff_of_true ⟨a, rfl⟩ ⟨a', rfl⟩, iff_of_false nofun nofun⟩
  · refine ⟨iff_of_false nofun nofun, ?_, ?_⟩
    · rintro ⟨_, ⟨⟩, he⟩
      exact ⟨e', rfl, hiff.mp he⟩
    · rintro ⟨_, ⟨⟩, he⟩
      exact ⟨e, rfl, hiff.mpr he⟩

/-- A step that a condition forbids on either side. -/
theorem forbid {c c' : Prop} [Decidable c] [Decidable c'] {e : ε} {e' : ε'}
    {k : Unit → Except ε β} {k' : Unit → Except ε' β'} (hc : c ↔ c') (he : E e e')
    (hk : Relates E S (k ()) (k' ())) :
    Relates E S (if c then (throw e : Except ε Unit) >>= k else k ())
      (if c' then (throw e' : Except ε' Unit) >>= k' else k' ()) := by
  by_cases h : c
  · rw [if_pos h, if_pos (hc.mp h)]
    exact he
  · rw [if_neg h, if_neg (fun h' => h (hc.mpr h'))]
    exact hk

end Relates

/-- Whenever the one computation succeeds, so does the other, with a related result. -/
def Follows {α' : Type} (R : α → α' → Prop) (x : Except ε α) (y : Except ε' α') : Prop :=
  ∀ a, x = .ok a → ∃ a', y = .ok a' ∧ R a a'

namespace Follows

variable {α' β' : Type} {R : α → α' → Prop} {S : β → β' → Prop}

theorem ok {a : α} {a' : α'} (h : R a a') :
    Follows R (.ok a : Except ε α) (.ok a' : Except ε' α') := by
  intro b hb
  cases hb
  exact ⟨a', rfl, h⟩

theorem of_eq {x y : Except ε α} (h : y = x) : Follows (· = ·) x y := by
  intro a ha
  exact ⟨a, h.trans ha, rfl⟩

theorem mono {R' : α → α' → Prop} {x : Except ε α} {y : Except ε' α'} (h : Follows R x y)
    (hR : ∀ a a', R a a' → R' a a') : Follows R' x y := by
  intro a ha
  obtain ⟨a', ha', hr⟩ := h a ha
  exact ⟨a', ha', hR a a' hr⟩

theorem bind {x : Except ε α} {y : Except ε' α'} {f : α → Except ε β} {g : α' → Except ε' β'}
    (h : Follows R x y) (hf : ∀ a a', R a a' → Follows S (f a) (g a')) :
    Follows S (x >>= f) (y >>= g) := by
  intro b hb
  obtain ⟨a, ha, hb⟩ := bind_eq_ok_iff.mp hb
  obtain ⟨a', ha', hr⟩ := h a ha
  obtain ⟨b', hb', hs⟩ := hf a a' hr b hb
  exact ⟨b', bind_eq_ok_iff.mpr ⟨a', ha', hb'⟩, hs⟩

theorem ok_bind {a : α} {a' : α'} {f : α → Except ε β} {g : α' → Except ε' β'}
    (h : Follows S (f a) (g a')) :
    Follows S ((.ok a : Except ε α) >>= f) ((.ok a' : Except ε' α') >>= g) := h

theorem mapError {η η' : Type} {x : Except ε α} {y : Except ε' α'} (h : Follows R x y)
    (f : ε → η) (f' : ε' → η') : Follows R (x.mapError f) (y.mapError f') := by
  intro a ha
  obtain ⟨a', ha', hr⟩ := h a (mapError_eq_ok_iff.mp ha)
  exact ⟨a', mapError_eq_ok_iff.mpr ha', hr⟩

theorem foldlM {l : List β} {f : α → β → Except ε α} {g : α' → β → Except ε' α'}
    (h : ∀ b ∈ l, ∀ a a', R a a' → Follows R (f a b) (g a' b)) {a : α} {a' : α'} (ha : R a a') :
    Follows R (l.foldlM f a) (l.foldlM g a') := by
  induction l generalizing a a' with
  | nil => exact ok ha
  | cons b l ih =>
    rw [List.foldlM_cons, List.foldlM_cons]
    refine bind (h b List.mem_cons_self a a' ha) fun c c' hc => ?_
    exact ih (fun b hb => h b (List.mem_cons_of_mem _ hb)) hc

/-- If each follows the other, they succeed together. -/
theorem relates {x : Except ε α} {y : Except ε' α'} (h : Follows R x y)
    (h' : Follows (fun a' a => R a a') y x) : Relates (fun _ _ => True) R x y := by
  cases x with
  | ok a =>
    obtain ⟨a', rfl, hr⟩ := h a rfl
    exact hr
  | error e =>
    cases y with
    | ok a' =>
      obtain ⟨a, ha, -⟩ := h' a' rfl
      cases ha
    | error e' => trivial

end Follows

/-! ### Refused memory -/

section Refusal

variable [MemoryFailure ε] [MemoryFailure ε']

/-- The result is that a device refused memory. -/
def Refused : Except ε α → Prop
  | .ok _ => False
  | .error e => MemoryFailure.refuses e = true

theorem Refused.mapError {x : Except ε α} (h : Refused x) {f : ε → ε'}
    (hf : ∀ e, MemoryFailure.refuses e = true → MemoryFailure.refuses (f e) = true) :
    Refused (x.mapError f) := by
  cases x with
  | ok a => exact h
  | error e => exact hf e h

theorem Refused.of_mapError {x : Except ε α} {f : ε → ε'} (h : Refused (x.mapError f))
    (hf : ∀ e, MemoryFailure.refuses (f e) = true → MemoryFailure.refuses e = true) :
    Refused x := by
  cases x with
  | ok a => exact h
  | error e => exact hf e h

theorem Refused.of_bind {β : Type} {x : Except ε β} {f : β → Except ε α} (h : Refused (x >>= f)) :
    Refused x ∨ ∃ b, x = .ok b ∧ Refused (f b) := by
  cases x with
  | ok b => exact .inr ⟨b, rfl, h⟩
  | error e => exact .inl h

theorem Refused.exists_error {x : Except ε α} (h : Refused x) : ∃ e, x = .error e := by
  cases x with
  | ok a => exact h.elim
  | error e => exact ⟨e, rfl⟩

theorem Refused.failsIn {x : Except ε α} (h : Refused x) {P : ε → Prop}
    (hP : ∀ e, MemoryFailure.refuses e = true → P e) : FailsIn P x := by
  rintro e rfl
  exact hP e h

end Refusal

end Except

namespace Action

variable {ε ε' α β : Type}

/-! ## Laws -/

theorem bind_assoc {γ : Type} (x : Action ε α) (f : α → Action ε β) (g : β → Action ε γ) :
    x >>= f >>= g = x >>= fun a => f a >>= g := by
  funext s
  simp only [bind_apply]
  cases x s with
  | mk r s' => cases r <;> rfl

theorem bind_apply_of_ok {x : Action ε α} {s s' : Store} {a : α} (h : x s = (.ok a, s'))
    (next : α → Action ε β) : (x >>= next) s = next a s' := by
  rw [bind_apply, h]

theorem not_refused_of_bind [MemoryFailure ε] {x : Action ε α} {next : α → Action ε β} {s : Store}
    (h : ¬Except.Refused ((x >>= next) s).1) : ¬Except.Refused (x s).1 := by
  rw [bind_apply] at h
  cases hx : x s with
  | mk r s' =>
    cases r with
    | ok a => exact id
    | error e =>
      rw [hx] at h
      exact h

theorem bind_apply_of_error {x : Action ε α} {s s' : Store} {e : ε} (h : x s = (.error e, s'))
    (next : α → Action ε β) : (x >>= next) s = (.error e, s') := by
  rw [bind_apply, h]

/-- Only what follows a result matters. -/
theorem bind_congr_of_ok {x : Action ε α} {next next' : α → Action ε β}
    (h : ∀ a s s', x s = (.ok a, s') → next a s' = next' a s') : x >>= next = x >>= next' := by
  funext s
  rw [bind_apply, bind_apply]
  cases hx : x s with
  | mk r s' =>
    cases r with
    | ok a => exact h a s s' hx
    | error e => rfl

theorem inspect_bind_apply (f : Store → α) (next : α → Action ε β) (s : Store) :
    (inspect f >>= next) s = next (f s) s := rfl

theorem changing_bind_apply (f : Store → α × Store) (next : α → Action ε β) (s : Store) :
    (changing f >>= next) s = next (f s).1 (f s).2 := rfl

theorem examine_bind_apply {f : Store → Except ε α} {s : Store} {a : α} (h : f s = .ok a)
    (next : α → Action ε β) : (examine f >>= next) s = next a s :=
  bind_apply_of_ok (by rw [examine, h]) next

theorem ofExcept_bind_apply {x : Except ε α} {a : α} (h : x = .ok a) (next : α → Action ε β)
    (s : Store) : (ofExcept x >>= next) s = next a s :=
  bind_apply_of_ok (by rw [ofExcept, h]) next

/-! ## Endings -/

/-- The action succeeds on `s` with `Q`, or fails with `E`. -/
def Ends (x : Action ε α) (s : Store) (Q : α → Store → Prop) (E : ε → Store → Prop) : Prop :=
  match x s with
  | (.ok a, s') => Q a s'
  | (.error e, s') => E e s'

section Rules

variable {s : Store} {Q : α → Store → Prop} {E : ε → Store → Prop}

@[simp] theorem ends_pure {a : α} : (Pure.pure a : Action ε α).Ends s Q E ↔ Q a s := Iff.rfl

@[simp] theorem ends_fail {e : ε} : (Action.fail e : Action ε α).Ends s Q E ↔ E e s := Iff.rfl

@[simp] theorem ends_inspect {f : Store → α} :
    (Action.inspect f : Action ε α).Ends s Q E ↔ Q (f s) s := Iff.rfl

@[simp] theorem ends_changing {f : Store → α × Store} :
    (Action.changing f : Action ε α).Ends s Q E ↔ Q (f s).1 (f s).2 := Iff.rfl

@[simp] theorem ends_change {f : Store → Store} {Q : Unit → Store → Prop} :
    (Action.change f : Action ε Unit).Ends s Q E ↔ Q () (f s) := Iff.rfl

/-- A device that is asked answers, and remembers the question. -/
theorem ends_request {d : DeviceId} {r : Request} {fault : DeviceFailure → Fault}
    {Q : Unit → Store → Prop} {E : Fault → Store → Prop}
    (hok : (s.device d).answer r = .ok () → Q () (s.modifyDevice d (·.after r)))
    (herror : ∀ e, (s.device d).answer r = .error e →
      E (fault e) (s.modifyDevice d (·.after r))) : (request d r fault).Ends s Q E := by
  unfold Ends request
  cases h : (s.device d).answer r with
  | ok u => exact hok h
  | error e => exact herror e h

theorem ends_examine {f : Store → Except ε α} :
    (Action.examine f).Ends s Q E ↔
      (∀ a, f s = .ok a → Q a s) ∧ ∀ e, f s = .error e → E e s := by
  simp only [Ends, Action.examine]
  cases f s <;> simp

theorem ends_ofExcept {x : Except ε α} :
    (Action.ofExcept x).Ends s Q E ↔ (∀ a, x = .ok a → Q a s) ∧ ∀ e, x = .error e → E e s := by
  simp only [Ends, Action.ofExcept]
  cases x <;> simp

@[simp] theorem ends_bind {x : Action ε β} {next : β → Action ε α} :
    (x >>= next).Ends s Q E ↔ x.Ends s (fun b s' => (next b).Ends s' Q E) E := by
  simp only [Ends, bind_apply]
  cases h : x s with
  | mk r s' => cases r <;> rfl

@[simp] theorem ends_mapError {f : ε' → ε} {x : Action ε' α} :
    (x.mapError f).Ends s Q E ↔ x.Ends s Q (fun e s' => E (f e) s') := by
  simp only [Ends, Action.mapError]
  cases h : x s with
  | mk r s' => cases r <;> rfl

@[simp] theorem ends_thenTidy {f : Store → Store} {x : Action ε α} :
    (x.thenTidy f).Ends s Q E ↔ x.Ends s (fun a s' => Q a (f s')) (fun e s' => E e (f s')) := by
  simp only [Ends, Action.thenTidy]
  cases h : x s with
  | mk r s' => cases r <;> rfl

@[simp] theorem ends_onFailure {f : Store → Store} {x : Action ε α} :
    (x.onFailure f).Ends s Q E ↔ x.Ends s Q (fun e s' => E e (f s')) := by
  simp only [Ends, Action.onFailure]
  cases h : x s with
  | mk r s' => cases r <;> rfl

theorem Ends.mono {x : Action ε α} {Q' : α → Store → Prop} {E' : ε → Store → Prop}
    (h : x.Ends s Q E) (hQ : ∀ a s', Q a s' → Q' a s') (hE : ∀ e s', E e s' → E' e s') :
    x.Ends s Q' E' := by
  unfold Ends at *
  cases hx : x s with
  | mk r s' =>
    rw [hx] at h
    cases r with
    | ok a => exact hQ a s' h
    | error e => exact hE e s' h

/-- What holds however the action ends. -/
theorem Ends.of_forall {x : Action ε α} (hQ : ∀ a s', Q a s') (hE : ∀ e s', E e s') :
    x.Ends s Q E := by
  unfold Ends
  split
  · exact hQ _ _
  · exact hE _ _

/-- What two readings say of how the action ends. -/
theorem Ends.and {x : Action ε α} {Q' : α → Store → Prop} {E' : ε → Store → Prop}
    (h : x.Ends s Q E) (h' : x.Ends s Q' E') :
    x.Ends s (fun a s' => Q a s' ∧ Q' a s') fun e s' => E e s' ∧ E' e s' := by
  unfold Ends at *
  cases hx : x s with
  | mk r s' =>
    rw [hx] at h h'
    cases r <;> exact ⟨h, h'⟩

/-- How the action ends under a condition that its reading needs. -/
theorem Ends.imp {x : Action ε α} {p : Prop} (h : p → x.Ends s Q E) :
    x.Ends s (fun a s' => p → Q a s') fun e s' => p → E e s' := by
  unfold Ends at *
  cases hx : x s with
  | mk r s' =>
    rw [hx] at h
    cases r <;> exact h

theorem Ends.ok {x : Action ε α} {a : α} {s' : Store} (h : x.Ends s Q E)
    (hx : x s = (.ok a, s')) : Q a s' := by
  simpa [Ends, hx] using h

theorem Ends.error {x : Action ε α} {e : ε} {s' : Store} (h : x.Ends s Q E)
    (hx : x s = (.error e, s')) : E e s' := by
  simpa [Ends, hx] using h

end Rules

/-! ## Successful steps -/

theorem bind_eq_ok_iff {x : Action ε β} {next : β → Action ε α} {s s' : Store} {a : α} :
    (x >>= next) s = (.ok a, s') ↔ ∃ b s₁, x s = (.ok b, s₁) ∧ next b s₁ = (.ok a, s') := by
  rw [bind_apply]
  cases x s with
  | mk r s₁ =>
    cases r with
    | ok b =>
      constructor
      · intro h
        exact ⟨b, s₁, rfl, h⟩
      · rintro ⟨_, _, h, h'⟩
        cases h
        exact h'
    | error e =>
      constructor
      · intro h
        cases h
      · rintro ⟨_, _, h, -⟩
        cases h

theorem examine_eq_ok_iff {f : Store → Except ε α} {s s' : Store} {a : α} :
    examine f s = (.ok a, s') ↔ f s = .ok a ∧ s = s' := by
  rw [examine, Prod.mk.injEq]

theorem onFailure_eq_ok_iff {f : Store → Store} {x : Action ε α} {s s' : Store} {a : α} :
    x.onFailure f s = (.ok a, s') ↔ x s = (.ok a, s') := by
  unfold onFailure
  cases x s with
  | mk r s₁ =>
    cases r with
    | ok b => rfl
    | error e =>
      constructor <;> intro h <;> cases h

/-! ## Refused memory -/

section Refusal

variable [MemoryFailure ε]

/-- What is refused memory goes no further. -/
theorem refused_bind {x : Action ε β} {next : β → Action ε α} {s : Store}
    (h : Except.Refused (x s).1) : Except.Refused ((x >>= next) s).1 := by
  rw [bind_apply]
  cases hx : x s with
  | mk r s' =>
    rw [hx] at h
    cases r with
    | ok b => exact h.elim
    | error e => exact h

end Refusal

theorem onFailure_fst (f : Store → Store) (x : Action ε α) (s : Store) :
    (x.onFailure f s).1 = (x s).1 := by
  unfold onFailure
  cases x s with
  | mk r s' => cases r <;> rfl

/-! ## Actions that succeed together -/

section Succession

variable [MemoryFailure ε']

/-- Whenever `x` succeeds on `s`, so does `x'` on `s'`, with related results and stores, unless it
is refused memory. -/
def Follows {α' : Type} (R : α → Store → α' → Store → Prop) (x : Action ε α) (s : Store)
    (x' : Action ε' α') (s' : Store) : Prop :=
  ∀ a s₁, x s = (.ok a, s₁) →
    (∃ a' s₁', x' s' = (.ok a', s₁') ∧ R a s₁ a' s₁') ∨ Except.Refused (x' s').1

namespace Follows

variable {α' β' : Type} {R : α → Store → α' → Store → Prop} {S : β → Store → β' → Store → Prop}
  {s s' : Store}

theorem pure {a : α} {a' : α'} (h : R a s a' s') :
    Follows R (Pure.pure a : Action ε α) s (Pure.pure a' : Action ε' α') s' := by
  intro b s₁ hb
  cases hb
  exact .inl ⟨a', s', rfl, h⟩

theorem ofExcept {x : Except ε α} {x' : Except ε' α'}
    (h : Except.Follows (fun a a' => R a s a' s') x x') :
    Follows R (Action.ofExcept x) s (Action.ofExcept x') s' := by
  intro a s₁ ha
  obtain ⟨rfl, rfl⟩ := Prod.mk.inj ha
  obtain ⟨a', rfl, hr⟩ := h a rfl
  exact .inl ⟨a', s', rfl, hr⟩

theorem examine {f : Store → Except ε α} {f' : Store → Except ε' α'}
    (h : Except.Follows (fun a a' => R a s a' s') (f s) (f' s')) :
    Follows R (Action.examine f) s (Action.examine f') s' := by
  intro a s₁ hrun
  obtain ⟨ha, rfl⟩ := Action.examine_eq_ok_iff.mp hrun
  obtain ⟨a', ha', hr⟩ := h a ha
  exact .inl ⟨a', s', Action.examine_eq_ok_iff.mpr ⟨ha', rfl⟩, hr⟩

theorem bind {x : Action ε α} {x' : Action ε' α'} {next : α → Action ε β}
    {next' : α' → Action ε' β'} (hx : Follows R x s x' s')
    (hn : ∀ a s₁ a' s₁', R a s₁ a' s₁' → Follows S (next a) s₁ (next' a') s₁') :
    Follows S (x >>= next) s (x' >>= next') s' := by
  intro b s₂ hb
  obtain ⟨a, s₁, ha, hb⟩ := bind_eq_ok_iff.mp hb
  rcases hx a s₁ ha with ⟨a', s₁', ha', hr⟩ | hrefused
  · rw [bind_apply_of_ok ha']
    exact hn a s₁ a' s₁' hr b s₂ hb
  · exact .inr (refused_bind hrefused)

theorem onFailure {x : Action ε α} {x' : Action ε' α'} (hx : Follows R x s x' s')
    (f f' : Store → Store) : Follows R (x.onFailure f) s (x'.onFailure f') s' := by
  intro a s₁ ha
  rcases hx a s₁ (onFailure_eq_ok_iff.mp ha) with ⟨a', s₁', ha', hr⟩ | hrefused
  · exact .inl ⟨a', s₁', onFailure_eq_ok_iff.mpr ha', hr⟩
  · exact .inr (by rwa [onFailure_fst])

end Follows

end Succession

/-! ## Frames -/

/-- A relation between the stores before and after some steps. -/
class Frame (R : Store → Store → Prop) : Prop where
  refl : ∀ s, R s s
  trans : ∀ {s t u}, R s t → R t u → R s u

/-- The action moves the store within `R`. -/
def Within (R : Store → Store → Prop) (x : Action ε α) : Prop := ∀ s, R s (x s).2

namespace Within

variable {R : Store → Store → Prop}

theorem ends {x : Action ε α} (h : x.Within R) (s : Store) :
    x.Ends s (fun _ s' => R s s') (fun _ s' => R s s') := by
  have hs := h s
  unfold Ends
  cases hx : x s with
  | mk r s' =>
    rw [hx] at hs
    cases r <;> exact hs

variable [Frame R]

theorem pure (a : α) : (Pure.pure a : Action ε α).Within R := fun s => Frame.refl s

theorem fail (e : ε) : (Action.fail e : Action ε α).Within R := fun s => Frame.refl s

theorem inspect (f : Store → α) : (Action.inspect f : Action ε α).Within R :=
  fun s => Frame.refl s

theorem examine (f : Store → Except ε α) : (Action.examine f).Within R := fun s => Frame.refl s

theorem ofExcept (x : Except ε α) : (Action.ofExcept x).Within R := fun s => Frame.refl s

theorem bind {x : Action ε β} {next : β → Action ε α} (hx : x.Within R)
    (hn : ∀ b, (next b).Within R) : (x >>= next).Within R := by
  intro s
  have h := hx s
  rw [bind_apply]
  cases hs : x s with
  | mk r s' =>
    rw [hs] at h
    cases r with
    | ok b => exact Frame.trans h (hn b s')
    | error e => exact h

/-- A step that only a result of `x` can take. -/
theorem ofExcept_bind {x : Except ε β} {next : β → Action ε α}
    (h : ∀ b, x = .ok b → (next b).Within R) : (Action.ofExcept x >>= next).Within R := by
  cases x with
  | ok b => exact h b rfl
  | error e => exact fun s => Frame.refl s

omit [Frame R] in
theorem ite {c : Prop} [Decidable c] {x y : Action ε α} (hx : x.Within R) (hy : y.Within R) :
    (if c then x else y).Within R := by
  split
  · exact hx
  · exact hy

omit [Frame R] in
theorem change {f : Store → Store} (h : ∀ s, R s (f s)) :
    (Action.change f : Action ε Unit).Within R := h

omit [Frame R] in
theorem mapError {f : ε' → ε} {x : Action ε' α} (h : x.Within R) :
    (x.mapError f).Within R := by
  intro s
  have hs := h s
  unfold Action.mapError
  cases hx : x s with
  | mk r s' =>
    rw [hx] at hs
    cases r <;> exact hs

end Within

end Action

end DeviceTensor
