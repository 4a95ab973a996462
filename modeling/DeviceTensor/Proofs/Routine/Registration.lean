import Mathlib.Data.Finset.Card
import DeviceTensor.Proofs.Routine.Catalog
set_option autoImplicit false

/-!
# Registries and their histories

A registry is made by registrations, of single routines and of whole catalogs.  What it finds for a
key is what was registered last for the key, and it counts the keys that were registered.  The host
catalog can be laid over any registry; laid over it twice, it changes nothing more.
-/

namespace DeviceTensor

namespace Registry

variable {κ : Type}

/-! ## Finding entries -/

section Entries

variable {key key' : RoutineKey} {v w : κ} {es es' : List (RoutineKey × κ)}

theorem find?_append (key : RoutineKey) (es es' : List (RoutineKey × κ)) :
    find? key (es ++ es') = (find? key es).or (find? key es') := by
  induction es with
  | nil => rfl
  | cons e es ih =>
    obtain ⟨k, v⟩ := e
    by_cases hk : k = key
    · simp [find?, hk]
    · simp [find?, hk, ih]

theorem find?_eq_none_iff : find? key es = none ↔ ∀ e ∈ es, e.1 ≠ key := by
  induction es with
  | nil => simp [find?]
  | cons e es ih =>
    obtain ⟨k, v⟩ := e
    by_cases hk : k = key
    · simp [find?, hk]
    · simp [find?, hk, ih]

theorem find?_eq_some_iff :
    find? key es = some v ↔
      ∃ before after, es = before ++ (key, v) :: after ∧ ∀ e ∈ before, e.1 ≠ key := by
  constructor
  · intro h
    induction es with
    | nil => cases h
    | cons e es ih =>
      obtain ⟨k, w⟩ := e
      by_cases hk : k = key
      · simp only [find?, hk, if_true, Option.some.injEq] at h
        exact ⟨[], es, by rw [hk, h]; rfl, fun e he => by cases he⟩
      · simp only [find?, hk, if_false] at h
        obtain ⟨before, after, rfl, hb⟩ := ih h
        refine ⟨(k, w) :: before, after, rfl, fun e he => ?_⟩
        cases he with
        | head => exact hk
        | tail _ he => exact hb e he
  · rintro ⟨before, after, rfl, hb⟩
    rw [find?_append, find?_eq_none_iff.mpr hb]
    simp [find?]

/-- All entries for the key have the same value. -/
theorem find?_eq_some_of_forall (hkey : ∃ e ∈ es, e.1 = key)
    (hv : ∀ e ∈ es, e.1 = key → e.2 = v) : find? key es = some v := by
  cases h : find? key es with
  | none =>
    obtain ⟨e, he, hk⟩ := hkey
    exact absurd hk (find?_eq_none_iff.mp h e he)
  | some w =>
    obtain ⟨before, after, rfl, -⟩ := find?_eq_some_iff.mp h
    exact congrArg some (hv (key, w) (by simp) rfl)

/-- The value that the last entry for the key has. -/
def last? (key : RoutineKey) (es : List (RoutineKey × κ)) : Option κ := find? key es.reverse

theorem last?_cons (key : RoutineKey) (e : RoutineKey × κ) (es : List (RoutineKey × κ)) :
    last? key (e :: es) = (last? key es).or (if e.1 = key then some e.2 else none) := by
  unfold last?
  rw [List.reverse_cons, find?_append]
  rfl

theorem last?_append (key : RoutineKey) (es es' : List (RoutineKey × κ)) :
    last? key (es ++ es') = (last? key es').or (last? key es) := by
  unfold last?
  rw [List.reverse_append, find?_append]

theorem last?_eq_none_iff : last? key es = none ↔ ∀ e ∈ es, e.1 ≠ key := by
  unfold last?
  simp only [find?_eq_none_iff, List.mem_reverse]

theorem last?_eq_some_iff :
    last? key es = some v ↔
      ∃ before after, es = before ++ (key, v) :: after ∧ ∀ e ∈ after, e.1 ≠ key := by
  unfold last?
  rw [find?_eq_some_iff]
  constructor
  · rintro ⟨before, after, h, hb⟩
    refine ⟨after.reverse, before.reverse, ?_, fun e he => hb e (List.mem_reverse.mp he)⟩
    rw [← es.reverse_reverse, h]
    simp
  · rintro ⟨before, after, rfl, ha⟩
    refine ⟨after.reverse, before.reverse, by simp, fun e he => ha e (List.mem_reverse.mp he)⟩

theorem isSome_last?_iff : (last? key es).isSome = true ↔ key ∈ es.map (·.1) := by
  rw [← not_iff_not, Bool.not_eq_true, Option.isSome_eq_false_iff, Option.isNone_iff_eq_none,
    last?_eq_none_iff, List.mem_map]
  constructor
  · rintro h ⟨e, he, hk⟩
    exact h e he hk
  · intro h e he hk
    exact h ⟨e, he, hk⟩

theorem last?_eq_some_of_forall (hkey : ∃ e ∈ es, e.1 = key)
    (hv : ∀ e ∈ es, e.1 = key → e.2 = v) : last? key es = some v := by
  refine find?_eq_some_of_forall ?_ fun e he => hv e (List.mem_reverse.mp he)
  obtain ⟨e, he, hk⟩ := hkey
  exact ⟨e, List.mem_reverse.mpr he, hk⟩

/-! ## Putting entries -/

theorem swap_eq (key : RoutineKey) (v : κ) (es : List (RoutineKey × κ)) :
    swap key v es = (find? key es, put key v es) := by
  induction es with
  | nil => rfl
  | cons e es ih =>
    obtain ⟨k, w⟩ := e
    by_cases hk : k = key
    · simp [swap, find?, put, hk]
    · simp [swap, find?, put, hk, ih]

theorem mem_keys_put : key' ∈ (put key v es).map (·.1) ↔ key' = key ∨ key' ∈ es.map (·.1) := by
  induction es with
  | nil => simp [put]
  | cons e es ih =>
    obtain ⟨k, w⟩ := e
    by_cases hk : k = key
    · simp [put, hk]
    · simp only [put, hk, if_false, List.map_cons, List.mem_cons, ih]
      exact or_left_comm

theorem nodup_keys_put (h : (es.map (·.1)).Nodup) : ((put key v es).map (·.1)).Nodup := by
  induction es with
  | nil => simp [put]
  | cons e es ih =>
    obtain ⟨k, w⟩ := e
    obtain ⟨hnot, hrest⟩ := List.nodup_cons.mp h
    by_cases hk : k = key
    · subst hk
      simpa [put] using h
    · simp only [put, hk, if_false, List.map_cons, List.nodup_cons]
      refine ⟨fun hm => ?_, ih hrest⟩
      rcases mem_keys_put.mp hm with heq | hm
      · exact hk heq
      · exact hnot hm

theorem put_put (key : RoutineKey) (v w : κ) (es : List (RoutineKey × κ)) :
    put key v (put key w es) = put key v es := by
  induction es with
  | nil => simp [put]
  | cons e es ih =>
    obtain ⟨k, u⟩ := e
    by_cases hk : k = key
    · simp [put, hk]
    · simp [put, hk, ih]

theorem put_of_find? (h : find? key es = some v) : put key v es = es := by
  induction es with
  | nil => cases h
  | cons e es ih =>
    obtain ⟨k, w⟩ := e
    by_cases hk : k = key
    · simp only [find?, hk, if_true, Option.some.injEq] at h
      simp [put, hk, h]
    · simp only [find?, hk, if_false] at h
      simp [put, hk, ih h]

/-- Entries for two keys can be put in either order, if one of the keys has its place already. -/
theorem put_comm (hne : key ≠ key') (h : key ∈ es.map (·.1)) :
    put key' w (put key v es) = put key v (put key' w es) := by
  induction es with
  | nil => cases h
  | cons e es ih =>
    obtain ⟨k, u⟩ := e
    by_cases hk : k = key
    · subst hk
      simp [put, hne]
    · have hm : key ∈ es.map (·.1) := by
        rcases List.mem_cons.mp h with heq | hm
        · exact absurd heq.symm hk
        · exact hm
      by_cases hk' : k = key'
      · subst hk'
        simp [put, hk]
      · simp [put, hk, hk', ih hm]

end Entries

/-! ## Registering many entries -/

/-- Registers entries one after the other. -/
def registerAll (r : Registry κ) (es : List (RoutineKey × κ)) : Registry κ :=
  es.foldl (fun r e => r.register e.1 e.2) r

section All

variable {r : Registry κ} {key : RoutineKey} {v : κ} {es es' : List (RoutineKey × κ)}

theorem registerAll_append (r : Registry κ) (es es' : List (RoutineKey × κ)) :
    r.registerAll (es ++ es') = (r.registerAll es).registerAll es' :=
  List.foldl_append

/-- The last entry for a key counts, or what the registry had before. -/
theorem get?_registerAll (r : Registry κ) (es : List (RoutineKey × κ)) (key : RoutineKey) :
    (r.registerAll es).get? key = (last? key es).or (r.get? key) := by
  induction es generalizing r with
  | nil => rfl
  | cons e es ih =>
    change ((r.register e.1 e.2).registerAll es).get? key = _
    rw [ih, get?_register, last?_cons]
    cases last? key es with
    | some v => rfl
    | none => by_cases hk : e.1 = key <;> simp [hk]

theorem mem_keys_registerAll :
    key ∈ (r.registerAll es).entries.map (·.1) ↔
      key ∈ es.map (·.1) ∨ key ∈ r.entries.map (·.1) := by
  induction es generalizing r with
  | nil => simp [registerAll]
  | cons e es ih =>
    change key ∈ ((r.register e.1 e.2).registerAll es).entries.map (·.1) ↔ _
    rw [ih, List.map_cons, List.mem_cons, register, mem_keys_put, or_assoc]
    exact or_left_comm

theorem nodup_keys_registerAll (h : (r.entries.map (·.1)).Nodup) :
    ((r.registerAll es).entries.map (·.1)).Nodup := by
  induction es generalizing r with
  | nil => exact h
  | cons e es ih => exact ih (r := r.register e.1 e.2) (nodup_keys_put h)

/-- A registry that was empty at first counts the keys that were registered. -/
theorem size_registerAll_empty (es : List (RoutineKey × κ)) :
    (empty.registerAll es).size = (es.map (·.1)).toFinset.card := by
  have hnodup : ((empty.registerAll es).entries.map (·.1)).Nodup :=
    nodup_keys_registerAll List.nodup_nil
  have hkeys : ((empty.registerAll es).entries.map (·.1)).toFinset = (es.map (·.1)).toFinset := by
    ext key
    rw [List.mem_toFinset, List.mem_toFinset, mem_keys_registerAll]
    simp [empty]
  rw [← hkeys, List.toFinset_card_of_nodup hnodup, List.length_map]
  rfl

/-- A registration that comes before another one for the same key is lost, if the key had its
place before. -/
theorem registerAll_register (hkey : key ∈ es.map (·.1)) (hr : key ∈ r.entries.map (·.1)) :
    (r.register key v).registerAll es = r.registerAll es := by
  induction es generalizing r with
  | nil => cases hkey
  | cons e es ih =>
    change ((r.register key v).register e.1 e.2).registerAll es =
      (r.register e.1 e.2).registerAll es
    by_cases hk : e.1 = key
    · have hput : (r.register key v).register e.1 e.2 = r.register e.1 e.2 := by
        subst hk
        exact congrArg Registry.mk (put_put _ _ _ _)
      rw [hput]
    · have hcomm : (r.register key v).register e.1 e.2 = (r.register e.1 e.2).register key v :=
        congrArg Registry.mk (put_comm (Ne.symm hk) hr)
      have hm : key ∈ es.map (·.1) := by
        rcases List.mem_cons.mp hkey with heq | hm
        · exact absurd heq.symm hk
        · exact hm
      rw [hcomm]
      exact ih hm (mem_keys_put.mpr (.inr hr))

theorem mem_keys_of_get? (h : r.get? key = some v) : key ∈ r.entries.map (·.1) := by
  obtain ⟨before, after, heq, -⟩ := find?_eq_some_iff.mp h
  rw [heq]
  simp

/-- Entries change nothing in a registry that finds their last values already. -/
theorem registerAll_of_get? (h : ∀ key v, last? key es = some v → r.get? key = some v) :
    r.registerAll es = r := by
  induction es with
  | nil => rfl
  | cons e es ih =>
    change (r.register e.1 e.2).registerAll es = r
    have hrest : r.registerAll es = r := by
      refine ih fun key v hv => h key v ?_
      rw [last?_cons, hv]
      rfl
    cases hlater : last? e.1 es with
    | some w =>
      -- The entry is replaced by a later one, so it is lost.
      obtain ⟨before, after, heq, -⟩ := last?_eq_some_iff.mp hlater
      have hr : r.get? e.1 = some w := h e.1 w (by rw [last?_cons, hlater]; rfl)
      rw [registerAll_register (by rw [heq]; simp) (mem_keys_of_get? hr), hrest]
    | none =>
      have hr : r.get? e.1 = some e.2 := h e.1 e.2 (by rw [last?_cons, hlater]; simp)
      have hsame : r.register e.1 e.2 = r := congrArg Registry.mk (put_of_find? hr)
      rw [hsame, hrest]

theorem registerAll_registerAll (r : Registry κ) (es : List (RoutineKey × κ)) :
    (r.registerAll es).registerAll es = r.registerAll es := by
  refine registerAll_of_get? fun key v h => ?_
  rw [get?_registerAll, h]
  rfl

end All

end Registry

/-! ## The host catalog -/

namespace Routine

/-- The host routine of an element type for an operation. -/
def host : ElemType → Operation → Routine
  | .float32, .gemm => .singleProduct
  | .float64, .gemm => .doubleProduct
  | d, op => .catalog d op

theorem mem_operations_iff {d : ElemType} {op : Operation} :
    op ∈ operations d ↔ d.isFloat = true ∨ op ∉ Operation.floating := by
  unfold operations
  cases hd : d.isFloat with
  | true =>
    simp only [if_true, true_or, iff_true]
    exact op.mem_all
  | false =>
    simp only [Bool.false_eq_true, if_false, false_or]
    cases op <;> decide

/-- The host routine of an element type that has the operation follows a recipe for it. -/
theorem run_host {d : ElemType} {op : Operation} (h : op ∈ operations d) :
    ∃ recipe : Recipe d, recipe.Does op ∧ ∀ inv, (host d op).run inv = recipe.run inv := by
  obtain ⟨recipe, hrecipe⟩ := Recipe.exists_of_mem_operations h
  have hgeneral : ∀ inv, (catalog d op).run inv = recipe.run inv := by
    intro inv
    simp only [run, hrecipe]
  unfold host
  split
  · exact ⟨.wideProduct, .wideProduct, fun _ => rfl⟩
  · exact ⟨.wideProduct, .wideProduct, fun _ => rfl⟩
  · exact ⟨recipe, .catalog hrecipe, hgeneral⟩

/-- The keys of the general part of the catalog have the routines of the general part. -/
theorem last?_general (b backend : Backend) (d : ElemType) (op : Operation) :
    Registry.last? ⟨d, b, op⟩
        (ElemType.all.flatMap fun d =>
          (operations d).map fun op => (⟨d, backend, op⟩, catalog d op)) =
      if b = backend ∧ op ∈ operations d then some (catalog d op) else none := by
  split
  · rename_i h
    obtain ⟨rfl, hop⟩ := h
    refine Registry.last?_eq_some_of_forall ?_ fun e he hkey => ?_
    · exact ⟨_, List.mem_flatMap.mpr ⟨d, d.mem_all, List.mem_map_of_mem hop⟩, rfl⟩
    · obtain ⟨d', -, he⟩ := List.mem_flatMap.mp he
      obtain ⟨op', -, rfl⟩ := List.mem_map.mp he
      cases hkey
      rfl
  · rename_i h
    refine Registry.last?_eq_none_iff.mpr fun e he hkey => h ?_
    obtain ⟨d', -, he⟩ := List.mem_flatMap.mp he
    obtain ⟨op', hop, rfl⟩ := List.mem_map.mp he
    cases hkey
    exact ⟨rfl, hop⟩

/-- What the host catalog has for a key. -/
theorem last?_hostCatalog (b backend : Backend) (d : ElemType) (op : Operation) :
    Registry.last? ⟨d, b, op⟩ (hostCatalog backend) =
      if b = backend ∧ op ∈ operations d then some (host d op) else none := by
  unfold hostCatalog
  rw [Registry.last?_append, last?_general]
  by_cases hb : b = backend
  · subst hb
    by_cases hgemm : op = .gemm
    · subst hgemm
      have hop : Operation.gemm ∈ operations d := by
        cases d <;> decide
      rw [if_pos ⟨rfl, hop⟩, if_pos ⟨rfl, hop⟩]
      cases d <;> simp [Registry.last?, Registry.find?, host]
    · have hhost : host d op = catalog d op := by
        unfold host
        split
        · exact absurd rfl hgemm
        · exact absurd rfl hgemm
        · rfl
      have hgemm' : ¬Operation.gemm = op := Ne.symm hgemm
      simp [Registry.last?, Registry.find?, hgemm', hhost]
  · have hb' : ¬backend = b := Ne.symm hb
    simp [Registry.last?, Registry.find?, hb, hb']

end Routine

namespace Registry

theorem registerCatalog_eq (r : Registry Routine) (backend : Backend) :
    r.registerCatalog backend = r.registerAll (Routine.hostCatalog backend) := rfl

/-- The catalog covers what host routines there are for its backend. -/
theorem get?_registerCatalog (r : Registry Routine) (backend : Backend) (d : ElemType)
    (b : Backend) (op : Operation) :
    (r.registerCatalog backend).get? ⟨d, b, op⟩ =
      if b = backend ∧ op ∈ Routine.operations d then some (Routine.host d op)
      else r.get? ⟨d, b, op⟩ := by
  rw [registerCatalog_eq, get?_registerAll, Routine.last?_hostCatalog]
  split <;> rfl

theorem lookup_eq_ok_iff {κ : Type} {r : Registry κ} {key : RoutineKey} {v : κ} :
    r.lookup key = .ok v ↔ r.get? key = some v := by
  unfold lookup
  cases r.get? key with
  | none =>
    constructor <;> intro h <;> cases h
  | some w =>
    constructor <;> intro h <;> cases h <;> rfl

theorem lookup_eq_error_iff {κ : Type} {r : Registry κ} {key : RoutineKey} {e : LaunchError} :
    r.lookup key = .error e ↔ e = .missingRoutine key ∧ r.get? key = none := by
  unfold lookup
  cases r.get? key with
  | none =>
    simp only [and_true]
    constructor
    · intro h
      cases h
      rfl
    · rintro rfl
      rfl
  | some w =>
    constructor
    · intro h
      cases h
    · rintro ⟨-, h⟩
      cases h

theorem lookup_congr {κ : Type} {r r' : Registry κ} {key : RoutineKey}
    (h : r'.get? key = r.get? key) : r'.lookup key = r.lookup key := by
  unfold lookup
  rw [h]

theorem exchange_eq {κ : Type} (r : Registry κ) (key : RoutineKey) (v : κ) :
    r.exchange key v = (r.get? key, r.register key v) := by
  unfold exchange
  rw [swap_eq]
  rfl

/-! ## Regular registries -/

/-- Every routine of the registry is a host routine for its key, or a probe. -/
def Regular (r : Registry Routine) : Prop :=
  ∀ key routine, r.get? key = some routine → routine.Serves key ∨ ∃ p, routine = .probe p

theorem regular_of_onHost {r : Registry Routine} (h : r.OnHost) : r.Regular :=
  fun key routine hget => .inl (h key routine hget)

theorem Regular.register {r : Registry Routine} (h : r.Regular) (key : RoutineKey) (p : Probe) :
    (r.register key (.probe p)).Regular := by
  intro key' routine hget
  rw [get?_register] at hget
  split at hget
  · cases hget
    exact .inr ⟨p, rfl⟩
  · exact h key' routine hget

theorem Regular.registerCatalog {r : Registry Routine} (h : r.Regular) (backend : Backend) :
    (r.registerCatalog backend).Regular := by
  rintro key routine hget
  rw [registerCatalog_eq, get?_registerAll] at hget
  rcases Option.or_eq_some_iff.mp hget with hlast | ⟨-, hold⟩
  · obtain ⟨before, after, heq, -⟩ := last?_eq_some_iff.mp hlast
    have hmem : (key, routine) ∈ Routine.hostCatalog backend := by
      rw [heq]
      simp
    exact .inl (Routine.serves_of_mem_hostCatalog hmem)
  · exact h key routine hold

/-! ## Histories -/

/-- What a registry is made by. -/
inductive Registration where
  /-- One routine for one key. -/
  | single (key : RoutineKey) (routine : Routine)
  /-- The host catalog for one backend. -/
  | catalog (backend : Backend)

namespace Registration

/-- The registry after a registration. -/
def apply (r : Registry Routine) : Registration → Registry Routine
  | .single key routine => (r.exchange key routine).2
  | .catalog backend => r.registerCatalog backend

/-- The keys and routines that a registration registers, in order. -/
def entries : Registration → List (RoutineKey × Routine)
  | .single key routine => [(key, routine)]
  | .catalog backend => Routine.hostCatalog backend

theorem apply_eq (r : Registry Routine) (g : Registration) :
    apply r g = r.registerAll g.entries := by
  cases g with
  | single key routine => exact congrArg Prod.snd (r.exchange_eq key routine)
  | catalog backend => rfl

end Registration

/-- The registry that registrations make of the empty one. -/
def ofHistory (history : List Registration) : Registry Routine :=
  history.foldl Registration.apply .empty

/-- The keys and routines that were registered, in order. -/
def registered (history : List Registration) : List (RoutineKey × Routine) :=
  history.flatMap Registration.entries

theorem foldl_apply (history : List Registration) (r : Registry Routine) :
    history.foldl Registration.apply r = r.registerAll (registered history) := by
  induction history generalizing r with
  | nil => rfl
  | cons g history ih =>
    rw [List.foldl_cons, ih, Registration.apply_eq, ← registerAll_append]
    rfl

theorem get?_ofHistory (history : List Registration) (key : RoutineKey) :
    (ofHistory history).get? key = last? key (registered history) := by
  unfold ofHistory
  rw [foldl_apply, get?_registerAll]
  exact Option.or_none

/-- A registry is its history: it finds for a key what was registered last for it, and counts the
keys.  The host catalog, laid over any registry, takes over the keys that it has routines for, and
leaves all others. -/
theorem registry_is_its_history :
    (∀ (history : List Registration) (key : RoutineKey),
      (∀ routine, (ofHistory history).lookup key = .ok routine ↔
        ∃ before after, registered history = before ++ (key, routine) :: after ∧
          ∀ e ∈ after, e.1 ≠ key) ∧
      (∀ e, (ofHistory history).lookup key = .error e ↔
        e = .missingRoutine key ∧ ∀ e ∈ registered history, e.1 ≠ key) ∧
      ((ofHistory history).contains key = true ↔
        ∃ routine, (ofHistory history).lookup key = .ok routine) ∧
      (∀ routine old, ((ofHistory history).exchange key routine).1 = some old ↔
        (ofHistory history).lookup key = .ok old) ∧
      (∀ routine, ((ofHistory history).exchange key routine).1.isSome = true ↔
        key ∈ (registered history).map (·.1)) ∧
      (ofHistory history).size = ((registered history).map (·.1)).toFinset.card) ∧
    ∀ (r : Registry Routine) (backend : Backend),
      (∀ key, key.backend ≠ backend → (r.registerCatalog backend).lookup key = r.lookup key) ∧
      (∀ d op, (d.isFloat = true ∨ op ∉ Operation.floating) →
        (r.registerCatalog backend).lookup ⟨d, backend, op⟩ = .ok (Routine.host d op) ∧
        ∃ recipe : Recipe d, recipe.Does op ∧
          ∀ inv, (Routine.host d op).run inv = recipe.run inv) ∧
      (∀ d op, d.isFloat = false → op ∈ Operation.floating →
        (r.registerCatalog backend).lookup ⟨d, backend, op⟩ = r.lookup ⟨d, backend, op⟩) ∧
      (r.registerCatalog backend).lookup ⟨.float32, backend, .gemm⟩ = .ok .singleProduct ∧
      (r.registerCatalog backend).lookup ⟨.float64, backend, .gemm⟩ = .ok .doubleProduct ∧
      (r.registerCatalog backend).registerCatalog backend = r.registerCatalog backend := by
  constructor
  · intro history key
    have hget := get?_ofHistory history key
    refine ⟨fun routine => ?_, fun e => ?_, ?_, fun routine old => ?_, fun routine => ?_, ?_⟩
    · rw [lookup_eq_ok_iff, hget, last?_eq_some_iff]
    · rw [lookup_eq_error_iff, hget, last?_eq_none_iff]
    · simp only [lookup_eq_ok_iff]
      exact Option.isSome_iff_exists
    · rw [exchange_eq, lookup_eq_ok_iff]
    · rw [exchange_eq, hget, isSome_last?_iff]
    · unfold ofHistory
      rw [foldl_apply, size_registerAll_empty]
  · intro r backend
    have hcovered (d : ElemType) (op : Operation)
        (h : d.isFloat = true ∨ op ∉ Operation.floating) :
        (r.registerCatalog backend).lookup ⟨d, backend, op⟩ = .ok (Routine.host d op) := by
      rw [lookup_eq_ok_iff, get?_registerCatalog,
        if_pos ⟨rfl, Routine.mem_operations_iff.mpr h⟩]
    refine ⟨fun key hkey => ?_, fun d op h => ?_, fun d op hd hop => ?_, ?_, ?_, ?_⟩
    · obtain ⟨d, b, op⟩ := key
      refine lookup_congr ?_
      rw [get?_registerCatalog, if_neg fun h => hkey h.1]
    · exact ⟨hcovered d op h, Routine.run_host (Routine.mem_operations_iff.mpr h)⟩
    · refine lookup_congr ?_
      rw [get?_registerCatalog, if_neg fun h => ?_]
      rcases Routine.mem_operations_iff.mp h.2 with hfloat | hgeneral
      · rw [hd] at hfloat
        cases hfloat
      · exact hgeneral hop
    · exact hcovered .float32 .gemm (.inl rfl)
    · exact hcovered .float64 .gemm (.inl rfl)
    · exact registerAll_registerAll r _

/-- The host catalog over two probes, of which it replaces one. -/
theorem catalog_over_probes :
    let exp : RoutineKey := ⟨.int32, .cuda, .exp⟩
    let gemm : RoutineKey := ⟨.float32, .cuda, .gemm⟩
    let r := ofHistory [.single exp (.probe .idle), .single gemm (.probe .ramp)]
    (r.registerCatalog .cuda).lookup exp = .ok (.probe .idle) ∧
      (r.registerCatalog .cuda).lookup gemm = .ok .singleProduct ∧
      (r.registerCatalog .cuda).lookup ⟨.float64, .cuda, .exp⟩ = .ok (.catalog .float64 .exp) ∧
      (r.registerCatalog .cuda).lookup ⟨.float64, .cpp, .exp⟩ =
        .error (.missingRoutine ⟨.float64, .cpp, .exp⟩) := by
  intro exp gemm r
  obtain ⟨hother, hcovered, hkept, hgemm, -, -⟩ := registry_is_its_history.2 r .cuda
  refine ⟨?_, hgemm, (hcovered .float64 .exp (.inl rfl)).1, ?_⟩
  · exact (hkept .int32 .exp rfl (by decide)).trans (lookup_eq_ok_iff.mpr (by decide))
  · exact (hother ⟨.float64, .cpp, .exp⟩ (by decide)).trans
      (lookup_eq_error_iff.mpr ⟨rfl, by decide⟩)

end Registry

end DeviceTensor
