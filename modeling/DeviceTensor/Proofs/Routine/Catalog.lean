import DeviceTensor.Proofs.Routine.Launch
import DeviceTensor.Tensor.Broadcast
set_option autoImplicit false

/-!
# Registries of host routines

A registry is on the host if every routine it finds is a host routine for the key it is found by.
Registering the host catalog keeps a registry on the host, for any backend.  A launch has then the
effect of a recipe for its operation: `launchSeen_of_onHost`.
-/

namespace DeviceTensor

/-! ## Host routines -/

/-- The recipe does the work of an operation.  The wide floating point types have a product of
their own. -/
inductive Recipe.Does {d : ElemType} : Recipe d → Operation → Prop where
  | catalog {recipe : Recipe d} {op : Operation} (h : Recipe.ofOperation? d op = some recipe) :
      Does recipe op
  | wideProduct : Does .wideProduct .gemm

/-- The floating point types have their functions. -/
theorem exists_analysis {d : ElemType} (hf : d.isFloat = true) : ∃ F, analysis? d = some F := by
  cases d with
  | float32 => exact ⟨_, rfl⟩
  | float16 => exact ⟨_, rfl⟩
  | float64 => exact ⟨_, rfl⟩
  | int32 => cases hf
  | char => cases hf

/-- Every element type has the general operations. -/
theorem Routine.mem_operations_of_general {op : Operation} (h : op ∈ Operation.general)
    (d : ElemType) : op ∈ operations d := by
  unfold operations
  split
  · exact List.mem_append_left _ h
  · exact h

/-- Every operation of the catalog has a recipe. -/
theorem Recipe.exists_of_mem_operations {d : ElemType} {op : Operation}
    (h : op ∈ Routine.operations d) : ∃ recipe, Recipe.ofOperation? d op = some recipe := by
  by_cases hf : d.isFloat = true
  · obtain ⟨F, hF⟩ := exists_analysis hf
    cases op <;> simp [Recipe.ofOperation?, hF]
  · rw [Routine.operations, if_neg hf] at h
    cases op <;> simp_all [Recipe.ofOperation?, Operation.general]

/-! ## Families of operations -/

namespace Operation

/-- The operations on one tensor, with or without a scalar. -/
def pointwise : List Operation :=
  [.abs, .exp, .log, .relu, .sigmoid, .sign, .sqrt, .square, .tanh, .powScalar, .addScalar,
    .subScalar, .mulScalar, .divScalar, .scalarDiv, .lt, .le, .gt, .ge]

/-- The operations on two tensors. -/
def pairwise : List Operation := [.pow, .add, .sub, .mul, .div]

/-- The operations on a vector and the rows or columns of a matrix. -/
def broadcasting : List Operation :=
  [.addRow, .addColumn, .subRow, .subColumn, .multRow, .multColumn, .divRow, .divColumn]

end Operation

namespace Recipe.Does

variable {d : ElemType} {recipe : Recipe d} {op : Operation}

theorem pointwise (h : recipe.Does op) (hop : op ∈ Operation.pointwise) :
    (∃ f, recipe = .map f) ∨ ∃ f, recipe = .mapScalar f := by
  cases h with
  | wideProduct => simp [Operation.pointwise] at hop
  | catalog h =>
    cases op
    all_goals simp [Operation.pointwise] at hop
    all_goals simp only [ofOperation?, Option.some.injEq, Option.map_eq_some_iff] at h
    all_goals first | subst h | obtain ⟨F, -, rfl⟩ := h
    all_goals first | exact .inl ⟨_, rfl⟩ | exact .inr ⟨_, rfl⟩

theorem pairwise (h : recipe.Does op) (hop : op ∈ Operation.pairwise) : ∃ f, recipe = .zip f := by
  cases h with
  | wideProduct => simp [Operation.pairwise] at hop
  | catalog h =>
    simp only [Operation.pairwise, List.mem_cons, List.not_mem_nil, or_false] at hop
    rcases hop with rfl | rfl | rfl | rfl | rfl
    all_goals simp only [ofOperation?, Option.some.injEq, Option.map_eq_some_iff] at h
    all_goals first | subst h | obtain ⟨F, -, rfl⟩ := h
    all_goals exact ⟨_, rfl⟩

theorem overRows (h : recipe.Does op) (hop : op ∈ Operation.broadcasting)
    (hover : Tensor.overColumns op = false) : (∃ f, recipe = .row f) ∨ recipe = .scaledRow := by
  cases h with
  | wideProduct => simp [Operation.broadcasting] at hop
  | catalog h =>
    simp only [Operation.broadcasting, List.mem_cons, List.not_mem_nil, or_false] at hop
    rcases hop with rfl | rfl | rfl | rfl | rfl | rfl | rfl | rfl
    all_goals cases hover
    all_goals cases h
    · exact .inr rfl
    all_goals exact .inl ⟨_, rfl⟩

theorem overColumns (h : recipe.Does op) (hop : op ∈ Operation.broadcasting)
    (hover : Tensor.overColumns op = true) :
    (∃ f, recipe = .column f) ∨ recipe = .scaledColumn := by
  cases h with
  | wideProduct => simp [Operation.broadcasting] at hop
  | catalog h =>
    simp only [Operation.broadcasting, List.mem_cons, List.not_mem_nil, or_false] at hop
    rcases hop with rfl | rfl | rfl | rfl | rfl | rfl | rfl | rfl
    all_goals cases hover
    all_goals cases h
    · exact .inr rfl
    all_goals exact .inl ⟨_, rfl⟩

theorem sumRows (h : recipe.Does .sumRows) : recipe = .sumRows := by
  cases h with
  | catalog h => cases h; rfl

theorem sumColumns (h : recipe.Does .sumColumns) : recipe = .sumColumns := by
  cases h with
  | catalog h => cases h; rfl

theorem softMax (h : recipe.Does .softMax) : ∃ F, recipe = .softmax F := by
  cases h with
  | catalog h =>
    obtain ⟨F, -, rfl⟩ := Option.map_eq_some_iff.mp h
    exact ⟨F, rfl⟩

theorem gemm (h : recipe.Does .gemm) : recipe = .product ∨ recipe = .wideProduct := by
  cases h with
  | catalog h =>
    cases h
    exact .inl rfl
  | wideProduct => exact .inr rfl

theorem axpy (h : recipe.Does .axpy) : recipe = .addScaled := by
  cases h with
  | catalog h => cases h; rfl

theorem fill (h : recipe.Does .fill) : recipe = .fill := by
  cases h with
  | catalog h => cases h; rfl

theorem cast (h : recipe.Does .cast) : recipe = .cast := by
  cases h with
  | catalog h => cases h; rfl

theorem reduce (h : recipe.Does op) (hop : op = .sum ∨ op = .nrm2) : ∃ f, recipe = .reduce f := by
  rcases hop with rfl | rfl
  · cases h with
    | catalog h => exact ⟨_, (Option.some.inj h).symm⟩
  · cases h with
    | catalog h => exact ⟨_, (Option.some.inj h).symm⟩

theorem random (h : recipe.Does op) (hop : op = .bernoulli ∨ op = .gaussian ∨ op = .uniform) :
    ∃ D, recipe = .random D := by
  rcases hop with rfl | rfl | rfl
  · cases h with
    | catalog h => exact ⟨_, (Option.some.inj h).symm⟩
  · cases h with
    | catalog h =>
      obtain ⟨F, -, rfl⟩ := Option.map_eq_some_iff.mp h
      exact ⟨_, rfl⟩
  · cases h with
    | catalog h => exact ⟨_, (Option.some.inj h).symm⟩

end Recipe.Does

/-! ## Routines of the catalog -/

namespace Routine

/-- The routine is a host routine for the key. -/
def Serves (key : RoutineKey) : Routine → Prop
  | .catalog d op => key.dtype = d ∧ key.op = op ∧ op ∈ operations d
  | .singleProduct => key.dtype = .float32 ∧ key.op = .gemm
  | .doubleProduct => key.dtype = .float64 ∧ key.op = .gemm
  | .probe _ => False

theorem serves_of_mem_hostCatalog {backend : Backend} {e : RoutineKey × Routine}
    (h : e ∈ hostCatalog backend) : e.2.Serves e.1 := by
  rcases List.mem_append.mp h with h | h
  · obtain ⟨d, -, hd⟩ := List.mem_flatMap.mp h
    obtain ⟨op, hop, rfl⟩ := List.mem_map.mp hd
    exact ⟨rfl, rfl, hop⟩
  · simp only [List.mem_cons, List.not_mem_nil, or_false] at h
    rcases h with rfl | rfl
    · exact ⟨rfl, rfl⟩
    · exact ⟨rfl, rfl⟩

/-- The routine does the work of the recipe, and has its effect. -/
structure Follows {d : ElemType} (routine : Routine) (recipe : Recipe d) : Prop where
  run : ∀ inv, routine.run inv = recipe.run inv
  effect : ∀ inv s, routine.effect inv s = recipe.effect inv s

theorem follows_catalog {d : ElemType} {op : Operation} {recipe : Recipe d}
    (h : Recipe.ofOperation? d op = some recipe) : (Routine.catalog d op).Follows recipe where
  run inv := by
    unfold run
    dsimp only
    rw [h]
  effect inv s := by
    unfold effect
    dsimp only
    rw [h]

/-- A host routine follows a recipe for the operation of its key. -/
theorem Serves.recipe {key : RoutineKey} {routine : Routine} (h : routine.Serves key) :
    ∃ recipe : Recipe key.dtype, recipe.Does key.op ∧ routine.Follows recipe := by
  obtain ⟨dtype, backend, op⟩ := key
  cases routine with
  | catalog d op' =>
    obtain ⟨rfl, rfl, hop⟩ := h
    obtain ⟨recipe, hrecipe⟩ := Recipe.exists_of_mem_operations hop
    exact ⟨recipe, .catalog hrecipe, follows_catalog hrecipe⟩
  | singleProduct =>
    obtain ⟨rfl, rfl⟩ := h
    exact ⟨.wideProduct, .wideProduct, fun _ => rfl, fun _ _ => rfl⟩
  | doubleProduct =>
    obtain ⟨rfl, rfl⟩ := h
    exact ⟨.wideProduct, .wideProduct, fun _ => rfl, fun _ _ => rfl⟩
  | probe p => exact h.elim

end Routine

/-! ## Registries -/

namespace Registry

/-- Every routine of the registry is a host routine for its key. -/
def OnHost (r : Registry Routine) : Prop :=
  ∀ key routine, r.get? key = some routine → routine.Serves key

theorem OnHost.register {r : Registry Routine} (h : r.OnHost) {key : RoutineKey}
    {routine : Routine} (hs : routine.Serves key) : (r.register key routine).OnHost := by
  intro key' routine' hget
  rw [get?_register] at hget
  split at hget
  · rename_i hkey
    cases hget
    exact hkey ▸ hs
  · exact h key' routine' hget

theorem OnHost.registerCatalog {r : Registry Routine} (h : r.OnHost) (backend : Backend) :
    (r.registerCatalog backend).OnHost := by
  have hfold (es : List (RoutineKey × Routine)) :
      ∀ r : Registry Routine, r.OnHost → (∀ e ∈ es, e.2.Serves e.1) →
        (es.foldl (fun r e => r.register e.1 e.2) r).OnHost := by
    induction es with
    | nil => exact fun r hr _ => hr
    | cons e es ih =>
      intro r hr hes
      refine ih _ (hr.register (hes e List.mem_cons_self)) fun e' he' => ?_
      exact hes e' (List.mem_cons_of_mem e he')
  exact hfold _ r h fun e he => Routine.serves_of_mem_hostCatalog he

theorem onHost_hostRegistry : hostRegistry.OnHost := by
  have hempty : (empty : Registry Routine).OnHost := fun key routine h => by cases h
  exact hempty.registerCatalog .cpp

end Registry

/-- On a registry of host routines a launch has the effect of a recipe for its operation, if it
finds a routine. -/
theorem launchSeen_of_onHost {s : Store} (h : s.registry.OnHost) (op : Operation)
    (dtype : ElemType) (inv : Invocation) :
    let key := RoutineKey.onDevice dtype op inv.device s
    launchSeen op dtype inv s = .error (.launch (.missingRoutine key)) ∨
      ∃ recipe : Recipe dtype, recipe.Does op ∧
        launchSeen op dtype inv s =
          (recipe.effect inv s).mapError (RoutineFailure.toFault key) := by
  intro key
  unfold launchSeen Registry.lookup
  cases hget : s.registry.get? key with
  | none =>
    left
    simp only [key] at hget
    simp only [hget]
    rfl
  | some routine =>
    right
    obtain ⟨recipe, hdoes, hfollows⟩ := (h key routine hget).recipe
    refine ⟨recipe, hdoes, ?_⟩
    simp only [key] at hget
    simp only [hget, hfollows.effect]
    rfl

end DeviceTensor
