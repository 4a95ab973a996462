import DeviceTensor.Proofs.Routine.Launch
import DeviceTensor.Proofs.Routine.Registration
import DeviceTensor.Proofs.Routine.Views
set_option autoImplicit false

/-!
# Recipes that a device provides

A device provides a recipe for an operation if the routine that is registered there for the
operation follows the recipe.  What such a launch sees is what the recipe sees of the blocks.  On a
registry with the host catalog for a backend, the devices of the backend provide the recipes of the
catalog.
-/

namespace DeviceTensor

/-! ## Registries with the host catalog -/

namespace Registry

/-- The registry has the routines of the host catalog for a backend. -/
def Stocks (r : Registry Routine) (backend : Backend) : Prop :=
  ∀ d op, op ∈ Routine.operations d → r.get? ⟨d, backend, op⟩ = some (Routine.host d op)

theorem stocks_registerCatalog (r : Registry Routine) (backend : Backend) :
    (r.registerCatalog backend).Stocks backend := by
  intro d op hop
  rw [get?_registerCatalog, if_pos ⟨rfl, hop⟩]

/-- A catalog for another backend adds to what there is. -/
theorem Stocks.registerCatalog {r : Registry Routine} {backend : Backend} (h : r.Stocks backend)
    (backend' : Backend) : (r.registerCatalog backend').Stocks backend := by
  intro d op hop
  rw [get?_registerCatalog, h d op hop, ite_self]

end Registry

/-! ## Provided recipes -/

/-- The routine that is registered on the device for the operation follows the recipe. -/
def Store.Provides (s : Store) (op : Operation) (device : DeviceId) {d : ElemType}
    (recipe : Recipe d) : Prop :=
  ∃ routine, s.registry.get? (.onDevice d op device s) = some routine ∧ routine.Follows recipe

section Provides

variable {s s' : Store} {op : Operation} {device : DeviceId} {d : ElemType} {recipe : Recipe d}
  {inv : Invocation}

theorem Store.Provides.congr (h : s.Provides op device recipe)
    (hregistry : s'.registry = s.registry) (hbackend : s'.backend device = s.backend device) :
    s'.Provides op device recipe := by
  unfold Store.Provides RoutineKey.onDevice at h ⊢
  rw [hregistry, hbackend]
  exact h

/-- A launch of a provided recipe sees what the recipe sees. -/
theorem Store.Provides.launchSeen (inv : Invocation) (h : s.Provides op inv.device recipe) :
    launchSeen op d inv s = (recipe.effect inv s).mapError
      (RoutineFailure.toFault (.onDevice d op inv.device s)) := by
  obtain ⟨routine, hget, hfollows⟩ := h
  unfold DeviceTensor.launchSeen Registry.lookup
  dsimp only
  rw [hget, ← hfollows.effect]

/-- A launch of a provided recipe is a run of the recipe. -/
theorem Store.Provides.launch (inv : Invocation) (h : s.Provides op inv.device recipe) :
    launch op d inv s = (recipe.run inv).mapError
      (RoutineFailure.toFault (.onDevice d op inv.device s)) s := by
  obtain ⟨routine, hget, hfollows⟩ := h
  rw [launch_eq]
  unfold Registry.lookup
  rw [hget, ← hfollows.run]

/-- The host catalog provides its recipes; products of floating point numbers have their own. -/
theorem Registry.Stocks.provides (h : s.registry.Stocks (s.backend device)) (hgemm : op ≠ .gemm)
    (hop : op ∈ Routine.operations d) (hrecipe : Recipe.ofOperation? d op = some recipe) :
    s.Provides op device recipe := by
  have hhost : Routine.host d op = .catalog d op := by
    unfold Routine.host
    split
    · exact absurd rfl hgemm
    · exact absurd rfl hgemm
    · rfl
  refine ⟨.catalog d op, ?_, Routine.follows_catalog hrecipe⟩
  rw [← hhost]
  exact h d op hop

/-- On a registry of host routines, the recipe of a launch that sees its blocks is provided. -/
theorem Registry.OnHost.provides (h : s.registry.OnHost) {e : Effect}
    (he : launchSeen op d inv s = .ok e) :
    ∃ recipe : Recipe d, recipe.Does op ∧ s.Provides op inv.device recipe := by
  unfold launchSeen at he
  dsimp only at he
  cases hget : s.registry.get? (.onDevice d op inv.device s) with
  | none =>
    unfold Registry.lookup at he
    rw [hget] at he
    cases he
  | some routine =>
    obtain ⟨recipe, hdoes, hfollows⟩ := (h _ routine hget).recipe
    exact ⟨recipe, hdoes, routine, hget, hfollows⟩

end Provides

/-! ## Sums of rows and columns -/

namespace Tensor.Summation

/-- The recipe that sums. -/
def recipe {d : ElemType} : Summation → Recipe d
  | .rows => .sumRows
  | .columns => .sumColumns

/-- The kernel that sums. -/
def kernel {α : Type} (which : Summation) (A : Arithmetic α) (m : Array α) (g : Grid)
    (dst : Array α) : Outcome α :=
  match which with
  | .rows => Kernel.sumRows A m g dst
  | .columns => Kernel.sumColumns A m g dst

theorem ofOperation?_op (d : ElemType) (which : Summation) :
    Recipe.ofOperation? d which.op = some which.recipe := by
  cases which <;> rfl

end Tensor.Summation

/-! ## What the recipes see -/

namespace Recipe

open Invocation

variable {d : ElemType} (inv : Invocation) {s : Store} {src : BlockId} {n : Nat}
  {xs ys : Array (Elem d)}

theorem ok_bind {ε α β : Type} (x : α) (next : α → Except ε β) :
    ((.ok x : Except ε α) >>= next) = next x := rfl

theorem outputSeen_of_seen (hdst : Block.seen inv.output d n s = .ok ys) :
    inv.outputSeen d n s = .ok ys := by
  unfold outputSeen
  rw [hdst]
  rfl

section

variable (hinputs : inv.inputs = [src])

include hinputs

theorem inputSeen_of_seen (hsrc : Block.seen src d n s = .ok xs) :
    inv.inputSeen d 0 n s = .ok xs := by
  unfold inputSeen
  rw [hinputs]
  dsimp only [List.getElem?_cons_zero]
  rw [hsrc]
  rfl

/-- A map with a scalar needs the scalar as an element. -/
theorem effect_mapScalar {f : Elem d → Elem d → Except Trap (Elem d)}
    (hsrc : Block.seen src d inv.count s = .ok xs)
    (hdst : Block.seen inv.output d inv.count s = .ok ys) :
    (Recipe.mapScalar f).effect inv s = scalarSeen d inv.alpha >>= fun v =>
      .ok (.ofOutcome (Kernel.map (f · v) xs ys)) := by
  simp only [effect, inputSeen_of_seen inv hinputs hsrc, outputSeen_of_seen inv hdst, ok_bind]
  rfl

theorem effect_softmax {F : Analysis (Elem d)} (hsize : inv.extents.grid.size < Size.limit)
    (hsrc : Block.seen src d inv.extents.grid.size s = .ok xs)
    (hdst : Block.seen inv.output d inv.extents.grid.size s = .ok ys) :
    (Recipe.softmax F).effect inv s =
      .ok (.ofOutcome (Kernel.softmax (arithmetic d) F xs inv.extents.grid ys)) := by
  have hcount : sizeSeen inv.extents.grid.checkedSize = .ok inv.extents.grid.size :=
    sizeSeen_eq_ok_iff.mpr (Size.mul_of_lt hsize)
  simp only [effect, hcount, inputSeen_of_seen inv hinputs hsrc, outputSeen_of_seen inv hdst,
    ok_bind]
  rfl

end

end Recipe

end DeviceTensor
