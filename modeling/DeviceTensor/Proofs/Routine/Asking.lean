import DeviceTensor.Proofs.Routine.Overwriting
import DeviceTensor.Proofs.Store.Sight
set_option autoImplicit false

/-!
# Memory that launches ask for

Two launches of one routine on the same inputs and on outputs of their own ask for the memory of the
inputs alike, if the devices were asked for the same before.  All that the one may be refused and the
other not is the memory of its output: `launch_asks`.
-/

namespace DeviceTensor

open DeviceTensor.Except DeviceTensor.Action

/-! ## A block that is refused memory -/

/-- The fault is that the device of an unbound block refuses its memory, as it does after some
requests. -/
def Fault.RefusesBlock (b : BlockId) (s : Store) (f : Fault) : Prop :=
  (s.block b).memory = .unbound ∧ ∃ earlier e,
    (s.owner b).answers earlier (.allocate (s.block b).size) = .error e ∧
      f = .allocationFailed (s.block b).size (s.owner b).backend (s.owner b).name e

namespace Fault.RefusesBlock

variable {b : BlockId} {s s' : Store} {f : Fault}

theorem not_supplies (h : f.RefusesBlock b s) : ¬s.Supplies b := by
  obtain ⟨hu, earlier, e, he, -⟩ := h
  intro hsupplies
  exact nomatch (hsupplies hu earlier).symm.trans he

theorem of_binds (h : f.RefusesBlock b s') (hs : s.Binds s') : f.RefusesBlock b s := by
  obtain ⟨hu, earlier, e, he, rfl⟩ := h
  have howner := hs.description b
  rw [Device.answers_of_description howner, hs.size] at he
  refine ⟨?_, earlier, e, he, ?_⟩
  · rcases hs.memory b with hm | ⟨hold, -⟩
    · rw [← hm]
      exact hu
    · exact hold
  · rw [hs.size, Device.backend_of_description howner, Device.name_of_description howner]

end Fault.RefusesBlock

/-! ## Stores that are the same on some blocks -/

/-- The devices are the same in every way, and so are the blocks `bs`, which are in both stores. -/
structure Store.SameOn (bs : List BlockId) (s s' : Store) : Prop where
  devices : s'.devices = s.devices
  library : s'.library = s.library
  block : ∀ b ∈ bs, s'.block b = s.block b
  lt : ∀ b ∈ bs, b < s.blocks.size
  lt' : ∀ b ∈ bs, b < s'.blocks.size

namespace Store.SameOn

variable {bs : List BlockId} {s s' : Store} {b : BlockId}

theorem symm (h : s.SameOn bs s') : s'.SameOn bs s :=
  ⟨h.devices.symm, h.library.symm, fun b hb => (h.block b hb).symm, h.lt', h.lt⟩

theorem mono {cs : List BlockId} (h : s.SameOn bs s') (hcs : cs ⊆ bs) : s.SameOn cs s' :=
  ⟨h.devices, h.library, fun b hb => h.block b (hcs hb), fun b hb => h.lt b (hcs hb),
    fun b hb => h.lt' b (hcs hb)⟩

theorem device (h : s.SameOn bs s') (d : DeviceId) : s'.device d = s.device d := by
  unfold Store.device
  rw [h.devices]

theorem owner (h : s.SameOn bs s') (hb : b ∈ bs) : s'.owner b = s.owner b := by
  unfold Store.owner
  rw [h.block b hb, h.device]

theorem modifyDevice (h : s.SameOn bs s') (d : DeviceId) (f : Device → Device) :
    (s.modifyDevice d f).SameOn bs (s'.modifyDevice d f) := by
  refine ⟨?_, h.library, h.block, h.lt, h.lt'⟩
  unfold Store.modifyDevice
  rw [h.devices]

theorem modifyBlock (h : s.SameOn bs s') (b : BlockId) (f : Block → Block) :
    (s.modifyBlock b f).SameOn bs (s'.modifyBlock b f) := by
  refine ⟨h.devices, h.library, fun c hc => ?_, fun c hc => ?_, fun c hc => ?_⟩
  · by_cases hbc : b = c
    · subst hbc
      rw [Store.block_modifyBlock_self _ (h.lt b hc), Store.block_modifyBlock_self _ (h.lt' b hc),
        h.block b hc]
    · rw [Store.block_modifyBlock_of_ne _ hbc, Store.block_modifyBlock_of_ne _ hbc, h.block c hc]
  · rw [Store.size_blocks_modifyBlock]
    exact h.lt c hc
  · rw [Store.size_blocks_modifyBlock]
    exact h.lt' c hc

end Store.SameOn

/-! ## Looks at some blocks -/

namespace Action

variable {ε ε' α β : Type} {bs : List BlockId}

/-- The action binds memory at most, and does the same on stores that are the same on the blocks
`bs`. -/
structure LooksAt (bs : List BlockId) (x : Action ε α) : Prop where
  binds : x.Within Store.Binds
  same : ∀ {s s' : Store}, s.SameOn bs s' → (x s').1 = (x s).1 ∧ (x s).2.SameOn bs (x s').2

namespace LooksAt

theorem pure (a : α) : LooksAt bs (Pure.pure a : Action ε α) := ⟨.pure a, fun h => ⟨rfl, h⟩⟩

theorem fail (e : ε) : LooksAt bs (Action.fail e : Action ε α) := ⟨.fail e, fun h => ⟨rfl, h⟩⟩

theorem ofExcept (x : Except ε α) : LooksAt bs (Action.ofExcept x) :=
  ⟨.ofExcept x, fun h => ⟨rfl, h⟩⟩

theorem examine {f : Store → Except ε α} (hf : ∀ {s s' : Store}, s.SameOn bs s' → f s' = f s) :
    LooksAt bs (Action.examine f) := ⟨.examine f, fun h => ⟨hf h, h⟩⟩

theorem inspect {f : Store → α} (hf : ∀ {s s' : Store}, s.SameOn bs s' → f s' = f s) :
    LooksAt bs (Action.inspect f : Action ε α) :=
  ⟨.inspect f, fun h => ⟨congrArg Except.ok (hf h), h⟩⟩

theorem bind {x : Action ε β} {next : β → Action ε α} (hx : LooksAt bs x)
    (hn : ∀ b, LooksAt bs (next b)) : LooksAt bs (x >>= next) where
  binds := .bind hx.binds fun b => (hn b).binds
  same {s s'} h := by
    obtain ⟨hresult, hstore⟩ := hx.same h
    rw [bind_apply, bind_apply]
    cases hs : x s with
    | mk r t =>
      cases hs' : x s' with
      | mk r' t' =>
        rw [hs, hs'] at hresult hstore
        obtain rfl : r' = r := hresult
        cases r' with
        | ok b => exact (hn b).same hstore
        | error e => exact ⟨rfl, hstore⟩

theorem mapError {f : ε' → ε} {x : Action ε' α} (hx : LooksAt bs x) : LooksAt bs (x.mapError f) where
  binds := .mapError hx.binds
  same {s s'} h := by
    obtain ⟨hresult, hstore⟩ := hx.same h
    rw [mapError_apply, mapError_apply, hresult]
    exact ⟨rfl, hstore⟩

end LooksAt

end Action

namespace Block

variable {bs : List BlockId} {b : BlockId}

theorem bindMemory_looksAt (hb : b ∈ bs) : LooksAt bs (bindMemory b) where
  binds := bindMemory_binds b
  same {s s'} h := by
    unfold bindMemory
    dsimp only
    rw [h.block b hb, h.device]
    cases (s.block b).memory with
    | bound bytes => exact ⟨rfl, h⟩
    | released => exact ⟨rfl, h⟩
    | unbound =>
      dsimp only
      cases (s.device (s.block b).device).allocate (s.block b).size with
      | error e => exact ⟨rfl, h.modifyDevice _ _⟩
      | ok owner => exact ⟨rfl, (h.modifyDevice _ _).modifyBlock b _⟩

theorem view_looksAt (hb : b ∈ bs) (d : ElemType) (count : Nat) : LooksAt bs (view b d count) := by
  refine .bind (.examine fun h => ?_) fun _ => .bind (bindMemory_looksAt hb) fun _ => ?_
  · rename_i s s'
    have hsight : Block.sight b s' = Block.sight b s := by
      unfold Block.sight
      rw [h.block b hb, h.owner hb]
    exact checkView_congr hsight d count
  · exact .inspect fun h => by rw [h.block b hb]

/-- A view is refused memory only because the block is. -/
theorem refusesBlock_of_view {d : ElemType} {count : Nat} {s : Store} {f : Fault}
    (h : (view b d count s).1 = .error f) (hf : MemoryFailure.refuses f = true) :
    f.RefusesBlock b s := by
  unfold view at h
  rw [bind_apply, Action.examine] at h
  cases hcheck : checkView b d count s with
  | error f' =>
    rw [hcheck] at h
    cases h
    have hcalm := checkView_calm b d count s
    rw [hcheck] at hcalm
    exact absurd hf hcalm
  | ok u =>
    rw [hcheck] at h
    dsimp only at h
    rw [bind_apply] at h
    rcases bindMemory_cases b s with ⟨-, hrun⟩ | ⟨hu, ⟨-, hrun⟩ | ⟨e, he, hrun⟩⟩
    · rw [hrun] at h
      cases h
    · rw [hrun] at h
      cases h
    · rw [hrun] at h
      cases h
      exact ⟨hu, _, e, he, rfl⟩

end Block

/-! ## Work on an output of its own -/

namespace Invocation

variable {inv inv' : Invocation} {d : ElemType} {α : Type}

theorem input_looksAt (index count : Nat) : LooksAt inv.inputs (inv.input d index count) := by
  unfold input
  cases hb : inv.inputs[index]? with
  | none => exact .fail _
  | some b => exact .mapError (Block.view_looksAt (List.mem_of_getElem? hb) d count)

theorem scalar_looksAt (x : Double) : LooksAt inv.inputs (scalar d x) := by
  unfold scalar
  cases Elem.cast .float64 d x with
  | none => exact .fail _
  | some y => exact .pure y

/-- A scalar asks for no memory. -/
theorem scalar_bind_not_refused (x : Double) {next : Elem d → Work Unit}
    (hn : ∀ y s, ¬Refused (next y s).1) (s : Store) :
    ¬Refused ((Invocation.scalar d x >>= next) s).1 := by
  unfold Invocation.scalar
  cases Elem.cast .float64 d x with
  | none => exact Bool.false_ne_true
  | some y => exact hn y s

theorem size_looksAt (x : Except Trap Nat) : LooksAt inv.inputs (size x) := .ofExcept _

/-- If the work `x'` on `inv'` is refused memory, then so is the work `x` on `inv`, or it is the
memory of the output of `inv'` that is refused. -/
def AsksAlike (inv inv' : Invocation) (x x' : Work Unit) : Prop :=
  ∀ s s' : Store, s.SameOn inv.inputs s' → ∀ e, (x' s').1 = .error e →
    MemoryFailure.refuses e = true →
      Refused (x s).1 ∨ ∃ f, e = .fault f ∧ f.RefusesBlock inv'.output s'

namespace AsksAlike

/-- Both works look at inputs first. -/
theorem look {y : Work α} {next next' : α → Work Unit} (hy : LooksAt inv.inputs y)
    (hn : ∀ a, inv.AsksAlike inv' (next a) (next' a)) :
    inv.AsksAlike inv' (y >>= next) (y >>= next') := by
  intro s s' h e he hrefuses
  obtain ⟨hresult, hstore⟩ := hy.same h
  have hbinds := hy.binds s'
  rw [bind_apply] at he ⊢
  cases hs : y s with
  | mk r t =>
    cases hs' : y s' with
    | mk r' t' =>
      rw [hs, hs'] at hresult hstore
      rw [hs'] at he hbinds
      obtain rfl : r' = r := hresult
      cases r' with
      | error e' =>
        cases he
        exact .inl hrefuses
      | ok a =>
        rcases hn a t t' hstore e he hrefuses with hrefused | ⟨f, hf, hblock⟩
        · exact .inl hrefused
        · exact .inr ⟨f, hf, hblock.of_binds hbinds⟩

/-- The work views its output, and asks for no memory after that. -/
theorem output {x : Work Unit} {count : Nat} {next' : Array (Elem d) → Work Unit}
    (hn : ∀ dst s, ¬Refused (next' dst s).1) :
    inv.AsksAlike inv' x (inv'.output? d count >>= next') := by
  intro s s' _ e he hrefuses
  right
  rw [bind_apply] at he
  cases hview : Block.view inv'.output d count s' with
  | mk r t =>
    have hout : inv'.output? d count s' = (r.mapError .fault, t) := by
      unfold output? perform
      rw [mapError_apply, hview]
    rw [hout] at he
    cases r with
    | error f =>
      cases he
      exact ⟨f, rfl, Block.refusesBlock_of_view (congrArg Prod.fst hview) hrefuses⟩
    | ok dst =>
      have hnot := hn dst t
      have hrun : (next' dst t).1 = .error e := he
      rw [hrun] at hnot
      exact absurd hrefuses hnot

end AsksAlike

theorem run_asksAlike {x : Work Unit} (count : Nat)
    (kernel : Array (Elem d) → Outcome (Elem d)) :
    inv.AsksAlike inv' x (inv'.run d count kernel) :=
  .output fun _ => inv'.settle_not_refused _

end Invocation

/-! ## Routines that overwrite their output -/

namespace Recipe

open Invocation

variable {d : ElemType} {inv : Invocation}

theorem runProduct_asksAlike (device : DeviceId) (b : BlockId)
    (kernel : Elem d → Array (Elem d) → Array (Elem d) → Elem d → Array (Elem d) →
      Outcome (Elem d)) :
    inv.AsksAlike { inv with device := device, output := b } (runProduct inv kernel)
      (runProduct { inv with device := device, output := b } kernel) := by
  refine .look (size_looksAt _) fun _ => .look (input_looksAt 0 _) fun a => ?_
  refine .look (size_looksAt _) fun _ => .look (input_looksAt 1 _) fun b => ?_
  refine .look (size_looksAt _) fun _ => .output fun c s => ?_
  refine scalar_bind_not_refused _ (fun alpha => ?_) s
  exact scalar_bind_not_refused _ fun beta => settle_not_refused _ _

/-- A recipe that overwrites its output asks for the memory of its inputs alike, wherever the output
is. -/
theorem Overwrites.asksAlike {recipe : Recipe d} (h : recipe.Overwrites inv) (device : DeviceId)
    (b : BlockId) : inv.AsksAlike { inv with device := device, output := b } (recipe.run inv)
      (recipe.run { inv with device := device, output := b }) := by
  cases recipe with
  | map f => exact .look (input_looksAt 0 _) fun src => run_asksAlike _ _
  | mapScalar f =>
    exact .look (scalar_looksAt _) fun v => .look (input_looksAt 0 _) fun src => run_asksAlike _ _
  | zip f =>
    exact .look (input_looksAt 0 _) fun lhs => .look (input_looksAt 1 _) fun rhs =>
      run_asksAlike _ _
  | softmax F =>
    exact .look (size_looksAt _) fun count => .look (input_looksAt 0 _) fun src => run_asksAlike _ _
  | sumRows =>
    exact .look (size_looksAt _) fun count => .look (input_looksAt 0 _) fun m => run_asksAlike _ _
  | sumColumns =>
    exact .look (size_looksAt _) fun count => .look (input_looksAt 0 _) fun m => run_asksAlike _ _
  | product => exact runProduct_asksAlike device b _
  | wideProduct =>
    have hlibrary : LooksAt inv.inputs
        (Action.inspect fun s => s.library d : Work (Kernel.WideProduct _)) :=
      .inspect fun h => by rw [h.library]
    exact .look hlibrary fun P => runProduct_asksAlike device b _
  | _ => exact h.elim

end Recipe

/-- A launch that overwrites its output is refused memory only where the same launch on another
output is refused it too, or because its output is. -/
theorem launch_asks {op : Operation} {dtype : ElemType} {inv : Invocation} {s s' : Store}
    {device : DeviceId} {b : BlockId} (hhost : s.registry.OnHost)
    (hregistry : s'.registry = s.registry) (hbackend : s'.backend device = s.backend inv.device)
    (hrecipe : ∀ recipe : Recipe dtype, recipe.Does op → recipe.Overwrites inv)
    (h : s.SameOn inv.inputs s') {f : Fault}
    (hf : (launch op dtype { inv with device := device, output := b } s').1 = .error f)
    (hrefuses : MemoryFailure.refuses f = true) :
    Refused (launch op dtype inv s).1 ∨ f.RefusesBlock b s' := by
  have hkey : RoutineKey.onDevice dtype op device s' = RoutineKey.onDevice dtype op inv.device s := by
    unfold RoutineKey.onDevice
    rw [hbackend]
  rw [launch_eq] at hf ⊢
  dsimp only at hf
  unfold Registry.lookup at hf ⊢
  rw [hkey, hregistry] at hf
  cases hget : s.registry.get? (RoutineKey.onDevice dtype op inv.device s) with
  | none =>
    rw [hget] at hf
    cases hf
    cases hrefuses
  | some routine =>
    obtain ⟨recipe, hdoes, hfollows⟩ := (hhost _ routine hget).recipe
    rw [hget] at hf
    dsimp only at hf ⊢
    rw [mapError_apply] at hf ⊢
    rw [hfollows.run] at hf ⊢
    obtain ⟨e, he, rfl⟩ := mapError_eq_error_iff.mp hf
    rw [RoutineFailure.refuses_toFault] at hrefuses
    have hasks := (hrecipe recipe hdoes).asksAlike device b s s' h e he hrefuses
    rcases hasks with hrefused | ⟨f, rfl, hblock⟩
    · left
      refine hrefused.mapError fun e he => ?_
      rwa [RoutineFailure.refuses_toFault]
    · exact .inr hblock

/-- A launch on a new output is not refused memory that is supplied to its inputs and to as many bytes
as the output has. -/
theorem launch_supplied {op : Operation} {dtype : ElemType} {inv : Invocation} {s : Store}
    {d : DeviceId} {n : Nat} (hinputs : ∀ b ∈ inv.inputs, b < s.blocks.size ∧ s.Supplies b)
    (houtput : inv.output = s.blocks.size) (h : (s.device d).Supplies n) :
    ¬Refused (launch op dtype inv (s.acquire d n).2).1 := by
  intro hrefused
  obtain ⟨b, hb, hshort⟩ := not_supplied_of_refused hrefused
  rcases List.mem_cons.mp hb with rfl | hb
  · rw [houtput, Store.supplies_acquire_self] at hshort
    exact hshort h
  · obtain ⟨hlt, hsupplies⟩ := hinputs b hb
    exact hshort ((Store.supplies_acquire_of_lt hlt).mpr hsupplies)

end DeviceTensor
