import Mathlib.Logic.Function.Iterate
import DeviceTensor.Proofs.Kernel.Admissible
set_option autoImplicit false

/-!
# What a random fill draws

A fill takes one sample after the other from its stream, up to the first one without a cast, or none
if its parameters are refused.  `drawn` is what it takes, whatever buffer it fills:
`fillSamples_eq`.  Two fills one after the other take what one fill of both lengths takes.
-/

namespace DeviceTensor.Kernel

variable {σ α β : Type}

/-- What a random fill takes from a stream. -/
structure Drawn (σ α : Type) where
  /-- The elements that it stores, from the start of the buffer on. -/
  values : List α
  /-- Why it ends before it has filled the buffer. -/
  refused : Option Refusal
  /-- What it leaves of the stream. -/
  state : σ
  deriving DecidableEq, Repr

namespace Drawn

/-- How the kernel ends. -/
def result (o : Drawn σ α) : Except Halt Unit :=
  match o.refused with
  | none => .ok ()
  | some e => .error (.refused e)

end Drawn

variable (draw : σ → β × σ) (convert : β → Option α)

/-- What is left of a stream after `n` samples. -/
def after (n : Nat) (s : σ) : σ := (fun s => (draw s).2)^[n] s

/-- Sample `i` of a stream. -/
def sampleAt (s : σ) (i : Nat) : β := (draw (after draw i s)).1

/-- At most `n` samples, for the elements from index `i` on, up to the first one without a cast. -/
def draws (i : Nat) : Nat → σ → Drawn σ α
  | 0, s => ⟨[], none, s⟩
  | n + 1, s =>
    match convert (draw s).1 with
    | some y =>
      let rest := draws (i + 1) n (draw s).2
      { rest with values := y :: rest.values }
    | none => ⟨[], some (.castOutOfRange i), (draw s).2⟩

/-- What a fill of `n` elements takes. -/
def drawn (D : Distribution) (n : Nat) (s : σ) : Drawn σ α :=
  match D.check with
  | .error e => ⟨[], some (.invalidDistribution e), s⟩
  | .ok () => draws draw convert 0 n s

section Samples

variable {draw} {convert}

theorem after_succ (n : Nat) (s : σ) : after draw (n + 1) s = after draw n (draw s).2 :=
  Function.iterate_succ_apply _ n s

theorem sampleAt_succ (s : σ) (i : Nat) : sampleAt draw s (i + 1) = sampleAt draw (draw s).2 i := by
  unfold sampleAt
  rw [after_succ]

/-! ## The buffer -/

/-- The samples go one behind the other into the buffer, which stays as it was behind them. -/
theorem drawInto_range' (n : Nat) (filled left : List α) (s : σ) (hn : n ≤ left.length) :
    drawInto draw convert (List.range' filled.length n) (filled ++ left).toArray s =
      let o := draws draw convert filled.length n s
      (((filled ++ o.values ++ left.drop o.values.length).toArray, o.result), o.state) := by
  induction n generalizing filled left s with
  | zero => simp [drawInto, draws, Drawn.result]
  | succ n ih =>
    obtain ⟨x, left, rfl⟩ : ∃ x rest, left = x :: rest :=
      List.exists_cons_of_length_pos (Nat.lt_of_lt_of_le n.succ_pos hn)
    simp only [List.range'_succ, drawInto, draws]
    cases convert (draw s).1 with
    | none => simp [Drawn.result]
    | some y =>
      have hstore : Buffer.store (filled ++ x :: left).toArray filled.length y =
          .ok ((filled ++ [y]) ++ left).toArray := by
        rw [Buffer.store_of_lt (by simp)]
        simp
      have hrest := ih (filled ++ [y]) left (draw s).2 (Nat.le_of_succ_le_succ hn)
      rw [List.length_append, List.length_singleton] at hrest
      simp only [hstore, hrest]
      simp [Drawn.result]

/-- A fill stores what it draws, and the buffer stays as it was behind that. -/
theorem fillSamples_eq (D : Distribution) (dst : Array α) (s : σ) :
    fillSamples D draw convert dst s =
      let o := drawn draw convert D dst.size s
      (((o.values ++ dst.toList.drop o.values.length).toArray, o.result), o.state) := by
  unfold fillSamples drawn
  cases D.check with
  | error e => rfl
  | ok u =>
    rw [List.range_eq_range']
    exact drawInto_range' dst.size [] dst.toList s (Nat.le_of_eq (Array.length_toList).symm)

/-! ## The samples -/

/-- As long as there are casts, the samples are stored in order. -/
theorem draws_of_forall (i : Nat) {n : Nat} {s : σ}
    (h : ∀ k < n, (convert (sampleAt draw s k)).isSome) :
    let o := draws draw convert i n s
    o.refused = none ∧ o.values.length = n ∧ o.state = after draw n s ∧
      ∀ k < n, o.values[k]? = convert (sampleAt draw s k) := by
  induction n generalizing i s with
  | zero => exact ⟨rfl, rfl, rfl, fun k hk => absurd hk (Nat.not_lt_zero k)⟩
  | succ n ih =>
    obtain ⟨y, hy⟩ := Option.isSome_iff_exists.mp (h 0 n.succ_pos)
    have hfirst : convert (draw s).1 = some y := hy
    have hlater (k : Nat) (hk : k < n) : (convert (sampleAt draw (draw s).2 k)).isSome :=
      sampleAt_succ s k ▸ h (k + 1) (Nat.succ_lt_succ hk)
    obtain ⟨hrefused, hlength, hstate, hvalues⟩ := ih (i + 1) hlater
    simp only [draws, hfirst]
    refine ⟨hrefused, congrArg Nat.succ hlength, hstate.trans (after_succ n s).symm, fun k hk => ?_⟩
    cases k with
    | zero => exact hy.symm
    | succ k =>
      rw [List.getElem?_cons_succ, sampleAt_succ]
      exact hvalues k (Nat.lt_of_succ_lt_succ hk)

/-- The first sample without a cast is drawn, and ends the fill. -/
theorem draws_of_first (i : Nat) {n k : Nat} {s : σ} (hk : k < n)
    (h : ∀ j < k, (convert (sampleAt draw s j)).isSome)
    (hnone : convert (sampleAt draw s k) = none) :
    let o := draws draw convert i n s
    o.refused = some (.castOutOfRange (i + k)) ∧ o.values.length = k ∧
      o.state = after draw (k + 1) s ∧ ∀ j < k, o.values[j]? = convert (sampleAt draw s j) := by
  induction k generalizing i n s with
  | zero =>
    obtain ⟨n, rfl⟩ := Nat.exists_eq_succ_of_ne_zero (Nat.ne_of_gt hk)
    have hfirst : convert (draw s).1 = none := hnone
    simp only [draws, hfirst]
    exact ⟨rfl, rfl, rfl, fun j hj => absurd hj (Nat.not_lt_zero j)⟩
  | succ k ih =>
    obtain ⟨n, rfl⟩ := Nat.exists_eq_succ_of_ne_zero (Nat.ne_of_gt (Nat.zero_lt_of_lt hk))
    obtain ⟨y, hy⟩ := Option.isSome_iff_exists.mp (h 0 k.succ_pos)
    have hfirst : convert (draw s).1 = some y := hy
    have hlater (j : Nat) (hj : j < k) : (convert (sampleAt draw (draw s).2 j)).isSome :=
      sampleAt_succ s j ▸ h (j + 1) (Nat.succ_lt_succ hj)
    rw [sampleAt_succ] at hnone
    obtain ⟨hrefused, hlength, hstate, hvalues⟩ :=
      ih (i + 1) (Nat.lt_of_succ_lt_succ hk) hlater hnone
    simp only [draws, hfirst]
    refine ⟨?_, congrArg Nat.succ hlength, hstate.trans (after_succ (k + 1) s).symm,
      fun j hj => ?_⟩
    · rw [hrefused, Nat.add_assoc, Nat.add_comm 1 k]
    · cases j with
      | zero => exact hy.symm
      | succ j =>
        rw [List.getElem?_cons_succ, sampleAt_succ]
        exact hvalues j (Nat.lt_of_succ_lt_succ hj)

/-- Samples end at the last one, or at one without a cast. -/
theorem draws_refused (i n : Nat) (s : σ) :
    let o := draws draw convert i n s
    o.refused = none ∧ o.values.length = n ∨
      o.refused = some (.castOutOfRange (i + o.values.length)) ∧ o.values.length < n := by
  induction n generalizing i s with
  | zero => exact .inl ⟨rfl, rfl⟩
  | succ n ih =>
    unfold draws
    cases convert (draw s).1 with
    | none => exact .inr ⟨rfl, n.succ_pos⟩
    | some y =>
      rcases ih (i + 1) (draw s).2 with ⟨hrefused, hlength⟩ | ⟨hrefused, hlt⟩
      · exact .inl ⟨hrefused, congrArg Nat.succ hlength⟩
      · refine .inr ⟨hrefused.trans ?_, Nat.succ_lt_succ hlt⟩
        rw [Nat.add_assoc, Nat.add_comm 1, List.length_cons]

/-- Where the elements stand has no part in a fill that succeeds. -/
theorem draws_shift (i j : Nat) {n : Nat} {s : σ} (h : (draws draw convert i n s).refused = none) :
    draws draw convert j n s = draws draw convert i n s := by
  induction n generalizing i j s with
  | zero => rfl
  | succ n ih =>
    unfold draws at h ⊢
    cases hy : convert (draw s).1 with
    | none =>
      rw [hy] at h
      cases h
    | some y =>
      rw [hy] at h
      simp only [ih (i + 1) (j + 1) h]

/-- Samples taken in two parts. -/
theorem draws_add (i n m : Nat) {s : σ} (h : (draws draw convert i n s).refused = none) :
    draws draw convert i (n + m) s =
      let o := draws draw convert i n s
      let o' := draws draw convert (i + n) m o.state
      { o' with values := o.values ++ o'.values } := by
  induction n generalizing i s with
  | zero =>
    rw [Nat.zero_add]
    rfl
  | succ n ih =>
    rw [Nat.succ_add]
    unfold draws at h ⊢
    cases hy : convert (draw s).1 with
    | none =>
      rw [hy] at h
      cases h
    | some y =>
      rw [hy] at h
      simp only [ih (i + 1) h, Nat.add_assoc, Nat.add_comm 1 n]
      cases m with
      | zero => rfl
      | succ m => rfl

end Samples

/-! ## The fill -/

/-- Refused parameters leave the stream. -/
theorem drawn_of_error {D : Distribution} {e : DistributionError} (h : D.check = .error e) (n : Nat)
    (s : σ) : drawn draw convert D n s = ⟨[], some (.invalidDistribution e), s⟩ := by
  unfold drawn
  rw [h]

theorem drawn_of_ok {D : Distribution} (h : D.check = .ok ()) (n : Nat) (s : σ) :
    drawn draw convert D n s = draws draw convert 0 n s := by
  unfold drawn
  rw [h]

section Casts

variable {draw} {convert} {D : Distribution} {n : Nat} {s : σ}

/-- A fill stores the samples up to the first one without a cast, which is drawn too. -/
theorem drawn_of_first (h : D.check = .ok ()) {k : Nat} (hk : k < n)
    (hbefore : ∀ j < k, (convert (sampleAt draw s j)).isSome)
    (hnone : convert (sampleAt draw s k) = none) :
    let o := drawn draw convert D n s
    o.refused = some (.castOutOfRange k) ∧ o.values.length = k ∧
      (∀ j < k, o.values[j]? = convert (sampleAt draw s j)) ∧ o.state = after draw (k + 1) s := by
  obtain ⟨hrefused, hlength, hstate, hvalues⟩ := draws_of_first 0 hk hbefore hnone
  rw [Nat.zero_add] at hrefused
  rw [drawn_of_ok draw convert h]
  exact ⟨hrefused, hlength, hvalues, hstate⟩

/-- A fill whose samples have casts stores all of them. -/
theorem drawn_of_forall (h : D.check = .ok ())
    (hall : ∀ j < n, (convert (sampleAt draw s j)).isSome) :
    let o := drawn draw convert D n s
    o.refused = none ∧ o.values.length = n ∧
      (∀ j < n, o.values[j]? = convert (sampleAt draw s j)) ∧ o.state = after draw n s := by
  obtain ⟨hrefused, hlength, hstate, hvalues⟩ := draws_of_forall 0 hall
  rw [drawn_of_ok draw convert h]
  exact ⟨hrefused, hlength, hvalues, hstate⟩

end Casts

/-- Two fills that succeed one after the other draw what one fill of both lengths draws. -/
theorem drawn_add {D : Distribution} {n m : Nat} {s : σ}
    (h : (drawn draw convert D n s).refused = none)
    (h' : (drawn draw convert D m (drawn draw convert D n s).state).refused = none) :
    drawn draw convert D (n + m) s =
      let o := drawn draw convert D n s
      let o' := drawn draw convert D m o.state
      { o' with values := o.values ++ o'.values } := by
  cases hD : D.check with
  | error e =>
    rw [drawn_of_error draw convert hD] at h
    cases h
  | ok u =>
    simp only [drawn_of_ok draw convert hD] at h h' ⊢
    rw [draws_add 0 n m h]
    simp only [draws_shift 0 (0 + n) h']

/-- How many of `n` elements a fill stores, by how it ends. -/
def stored (n : Nat) : Option Refusal → Nat
  | none => n
  | some (.castOutOfRange i) => i
  | some _ => 0

/-- How far a fill comes shows in its refusal. -/
theorem length_values_drawn (D : Distribution) (n : Nat) (s : σ) :
    let o := drawn draw convert D n s
    o.values.length = stored n o.refused ∧ o.values.length ≤ n := by
  cases hD : D.check with
  | error e =>
    rw [drawn_of_error draw convert hD]
    exact ⟨rfl, Nat.zero_le n⟩
  | ok u =>
    rw [drawn_of_ok draw convert hD]
    rcases draws_refused 0 n s with ⟨hrefused, hlength⟩ | ⟨hrefused, hlt⟩
    · exact ⟨hlength.trans (congrArg (stored n) hrefused).symm, Nat.le_of_eq hlength⟩
    · refine ⟨?_, Nat.le_of_lt hlt⟩
      exact (Nat.zero_add _).symm.trans (congrArg (stored n) hrefused).symm

end DeviceTensor.Kernel
