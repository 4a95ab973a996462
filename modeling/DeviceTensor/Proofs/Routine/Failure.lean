import DeviceTensor.Proofs.Fault
import DeviceTensor.Proofs.Kernel.Refusal
import DeviceTensor.Proofs.Element.Bytes
import DeviceTensor.Proofs.Routine.Catalog
import DeviceTensor.Proofs.Store.Preservation
set_option autoImplicit false

/-!
# How routines fail

A routine that fails has not rejected its operands; that is done before it is launched.  A host
routine that fails late has written nothing and drawn nothing.  A launch changes at most the bytes
of its output, and if it finds no routine it changes nothing at all.
-/

namespace DeviceTensor

open DeviceTensor.Except

/-! ## Failures by their names -/

theorem RoutineFailure.late_toFault (key : RoutineKey) (e : RoutineFailure) :
    (e.toFault key).Late ↔ e.Late key.op := by
  cases e <;> rfl

theorem RoutineFailure.rejects_toFault (key : RoutineKey) (e : RoutineFailure) :
    (e.toFault key).Rejects ↔ e.Rejects := by
  cases e <;> rfl

namespace RoutineFailure

theorem ofHalt_accepts (h : Halt) : ¬(ofHalt h).Rejects := by
  cases h <;> exact False.elim

theorem not_late_of_ofBuffers {h : Halt} (hh : h.OfBuffers) (op : Operation) :
    ¬(ofHalt h).Late op := by
  cases h with
  | trap t => exact False.elim
  | refused e => cases e <;> first | exact False.elim | exact hh.elim

/-- Elements are refused by casts and random fills, whose refusals of elements are not late. -/
theorem not_late_of_ofElements {h : Halt} (hh : h.OfElements) {op : Operation}
    (hop : op ∈ Operation.cast :: Operation.sampling) : ¬(ofHalt h).Late op := by
  rcases hh with hh | ⟨i, rfl⟩
  · exact not_late_of_ofBuffers hh op
  · exact fun hl => hl hop

end RoutineFailure

/-! ## Gentle effects -/

namespace Effect

/-- The effect changes neither the bytes of the output nor the stream of the device. -/
structure Idle (e : Effect) (inv : Invocation) (s : Store) : Prop where
  change : e.change (s.block inv.output).contents = (s.block inv.output).contents
  stream : (e.restream (s.device inv.device)).stream = (s.device inv.device).stream

/-- The effect does not end with a rejection, and is idle if it ends with a late failure of an
operation that the routine does.  Samples are drawn by random fills only. -/
structure Gentle (e : Effect) (does : Operation → Prop) (inv : Invocation) (s : Store) : Prop where
  result : FailsIn (fun f => ¬f.Rejects ∧ ∀ op, does op → f.Late op → e.Idle inv s) e.result
  stream : ∀ op, does op → op ∉ Operation.sampling → e.stream = none

variable {does : Operation → Prop} {inv : Invocation} {s : Store} {d : ElemType}

theorem gentle_of_ofBuffers {o : Outcome (Elem d)} (h : FailsIn Halt.OfBuffers o.2) :
    (ofOutcome o).Gentle does inv s where
  result := .mapError h fun _ hh => ⟨RoutineFailure.ofHalt_accepts _, fun op _ hl =>
    absurd hl (RoutineFailure.not_late_of_ofBuffers hh op)⟩
  stream _ _ _ := rfl

theorem gentle_of_ofElements {o : Outcome (Elem d)} (h : FailsIn Halt.OfElements o.2)
    (hop : ∀ op, does op → op ∈ Operation.cast :: Operation.sampling) :
    (ofOutcome o).Gentle does inv s where
  result := .mapError h fun _ hh => ⟨RoutineFailure.ofHalt_accepts _, fun op hdoes hl =>
    absurd hl (RoutineFailure.not_late_of_ofElements hh (hop op hdoes))⟩
  stream _ _ _ := rfl

end Effect

/-- What is seen is no rejection, and an effect that is seen is gentle. -/
def EffectGentle (does : Operation → Prop) (inv : Invocation) (s : Store)
    (x : Except RoutineFailure Effect) : Prop :=
  FailsIn (fun f => ¬f.Rejects) x ∧ ∀ e, x = .ok e → e.Gentle does inv s

namespace EffectGentle

variable {does : Operation → Prop} {inv : Invocation} {s : Store} {d : ElemType}

theorem bind {α : Type} {x : Except RoutineFailure α} {f : α → Except RoutineFailure Effect}
    (hx : FailsIn (fun f => ¬f.Rejects) x) (hf : ∀ a, x = .ok a → EffectGentle does inv s (f a)) :
    EffectGentle does inv s (x >>= f) := by
  refine ⟨hx.bind fun a ha => (hf a ha).1, fun e he => ?_⟩
  obtain ⟨a, ha, he⟩ := bind_eq_ok_iff.mp he
  exact (hf a ha).2 e he

theorem ok {e : Effect} (h : e.Gentle does inv s) : EffectGentle does inv s (.ok e) := by
  refine ⟨.ok _, fun e' he' => ?_⟩
  cases he'
  exact h

end EffectGentle

/-- A view of a block is refused by the device, or does not fit. -/
theorem Block.seen_accepts (b : BlockId) (d : ElemType) (count : Nat) (s : Store) :
    FailsIn (fun f => ¬f.Rejects) (Block.seen b d count s) := by
  have hcheck : FailsIn (fun f : Fault => ¬f.Rejects) (Block.checkView b d count s) := by
    refine .ite (fun _ => .error False.elim) fun _ => ?_
    split
    · exact .error False.elim
    · exact .ite (fun _ => .ok ()) fun _ => .error False.elim
  exact .bind hcheck fun _ _ => .ok _

namespace Invocation

variable (inv : Invocation) (d : ElemType) (s : Store)

theorem inputSeen_accepts (index count : Nat) :
    FailsIn (fun f => ¬f.Rejects) (inv.inputSeen d index count s) := by
  unfold inputSeen
  split
  · exact .error False.elim
  · exact .mapError (Block.seen_accepts _ d count s) fun _ h => h

theorem outputSeen_accepts (count : Nat) :
    FailsIn (fun f => ¬f.Rejects) (inv.outputSeen d count s) :=
  .mapError (Block.seen_accepts _ d count s) fun _ h => h

theorem scalarSeen_accepts (x : Double) : FailsIn (fun f => ¬f.Rejects) (scalarSeen d x) := by
  unfold scalarSeen
  split
  · exact .ok _
  · exact .error False.elim

theorem sizeSeen_accepts (x : Except Trap Nat) :
    FailsIn (fun f => ¬f.Rejects) (sizeSeen x) := by
  cases x with
  | ok n => exact .ok n
  | error t => exact .error False.elim

end Invocation

/-! ## Recipes -/

namespace Recipe

open Invocation

variable {d : ElemType} {inv : Invocation} {s : Store}

/-- Only a cast follows the recipe of a cast. -/
theorem Does.of_cast {op : Operation} (h : (Recipe.cast : Recipe d).Does op) : op = .cast := by
  cases h with
  | catalog h => cases op <;> simp [ofOperation?] at h ⊢

/-- Only random fills follow the recipe of a random fill. -/
theorem Does.of_random {D : Double → Double → Distribution} {op : Operation}
    (h : (Recipe.random D : Recipe d).Does op) : op ∈ Operation.sampling := by
  cases h with
  | catalog h => cases op <;> simp [ofOperation?, Operation.sampling] at h ⊢

section Steps

variable {does : Operation → Prop}

private theorem input {index count : Nat} {f : Array (Elem d) → Except RoutineFailure Effect}
    (hf : ∀ xs, EffectGentle does inv s (f xs)) :
    EffectGentle does inv s (inv.inputSeen d index count s >>= f) :=
  .bind (inputSeen_accepts inv d s index count) fun xs _ => hf xs

private theorem output {count : Nat} {f : Array (Elem d) → Except RoutineFailure Effect}
    (hf : ∀ xs, EffectGentle does inv s (f xs)) :
    EffectGentle does inv s (inv.outputSeen d count s >>= f) :=
  .bind (outputSeen_accepts inv d s count) fun xs _ => hf xs

private theorem scalar {x : Double} {f : Elem d → Except RoutineFailure Effect}
    (hf : ∀ y, EffectGentle does inv s (f y)) : EffectGentle does inv s (scalarSeen d x >>= f) :=
  .bind (scalarSeen_accepts d x) fun y _ => hf y

private theorem size {x : Except Trap Nat} {f : Nat → Except RoutineFailure Effect}
    (hf : ∀ n, EffectGentle does inv s (f n)) : EffectGentle does inv s (sizeSeen x >>= f) :=
  .bind (sizeSeen_accepts x) fun n _ => hf n

private theorem outcome {o : Outcome (Elem d)} (h : FailsIn Halt.OfBuffers o.2) :
    EffectGentle does inv s (.ok (.ofOutcome o)) :=
  .ok (Effect.gentle_of_ofBuffers h)

theorem rowEffect_gentle (f : Elem d → Elem d → Except Trap (Elem d)) :
    EffectGentle does inv s (rowEffect inv f s) :=
  input fun _ => size fun _ => output fun _ => outcome (Kernel.broadcastRow_ofBuffers _ _ _ _)

theorem columnEffect_gentle (f : Elem d → Elem d → Except Trap (Elem d)) :
    EffectGentle does inv s (columnEffect inv f s) :=
  input fun _ => size fun _ => output fun _ => outcome (Kernel.broadcastColumn_ofBuffers _ _ _ _)

theorem productEffect_gentle
    {kernel : Elem d → Array (Elem d) → Array (Elem d) → Elem d → Array (Elem d) →
      Outcome (Elem d)}
    (hkernel : ∀ alpha a b beta c, FailsIn Halt.OfBuffers (kernel alpha a b beta c).2) :
    EffectGentle does inv s (productEffect inv kernel s) :=
  size fun _ => input fun _ => size fun _ => input fun _ => size fun _ => output fun _ =>
    scalar fun _ => scalar fun _ => outcome (hkernel _ _ _ _ _)

/-- A random fill that refuses its parameters writes back what it has read. -/
theorem samplesEffect_gentle (D : Distribution) {count : Nat} {dst : Array (Elem d)}
    (hdst : inv.outputSeen d count s = .ok dst)
    (hop : ∀ op, does op → op ∈ Operation.sampling) :
    (samplesEffect D dst (s.device inv.device)).Gentle does inv s := by
  have hread : dst = Elem.decode d count (s.block inv.output).contents := by
    obtain ⟨_, -, hread⟩ := bind_eq_ok_iff.mp (mapError_eq_ok_iff.mp hdst)
    exact (pure_eq_ok_iff.mp hread).symm
  have hhalt : FailsIn
      (fun h => h.OfElements ∨ (samplesEffect D dst (s.device inv.device)).Idle inv s)
      (Kernel.fillSamples D ((s.device inv.device).draws D) (Elem.cast .float64 d) dst
        (s.device inv.device).stream).1.2 := by
    intro h hh
    rcases Kernel.fillSamples_of_invalid hh with helements | ⟨hsame, hstream⟩
    · exact .inl helements
    · have hwritten := congrArg (Elem.overlay · (s.block inv.output).contents) hsame
      refine .inr ⟨hwritten.trans ?_, hstream⟩
      rw [hread, Elem.overlay_decode]
  refine ⟨FailsIn.mapError hhalt fun h hh => ?_, fun op hdoes hn => absurd (hop op hdoes) hn⟩
  refine ⟨RoutineFailure.ofHalt_accepts h, fun op hdoes hl => ?_⟩
  rcases hh with helements | hidle
  · have hmem := List.mem_cons_of_mem Operation.cast (hop op hdoes)
    exact absurd hl (RoutineFailure.not_late_of_ofElements helements hmem)
  · exact hidle

/-- The effect of a recipe on the operations that it does. -/
theorem effect_gentle (recipe : Recipe d) :
    EffectGentle recipe.Does inv s (recipe.effect inv s) := by
  cases recipe with
  | map f => exact input fun _ => output fun _ => outcome (Kernel.map_ofBuffers _ _ _)
  | mapScalar f =>
    exact scalar fun _ => input fun _ => output fun _ => outcome (Kernel.map_ofBuffers _ _ _)
  | zip f =>
    exact input fun _ => input fun _ => output fun _ => outcome (Kernel.zip_ofBuffers _ _ _ _)
  | fill => exact output fun _ => scalar fun _ => outcome (Kernel.fill_ofBuffers _ _)
  | cast =>
    refine input fun _ => output fun _ => .ok ?_
    refine Effect.gentle_of_ofElements (Kernel.cast_ofElements _ _ _) fun op hdoes => ?_
    rw [hdoes.of_cast]
    exact List.mem_cons_self
  | reduce f => exact input fun _ => output fun _ => outcome (Kernel.fill_ofBuffers _ _)
  | softmax F =>
    exact size fun _ => input fun _ => output fun _ =>
      outcome (Kernel.softmax_ofBuffers _ _ _ _ _)
  | row f => exact rowEffect_gentle f
  | column f => exact columnEffect_gentle f
  | scaledRow => exact scalar fun _ => scalar fun _ => rowEffect_gentle _
  | scaledColumn => exact scalar fun _ => scalar fun _ => columnEffect_gentle _
  | sumRows =>
    exact size fun _ => input fun _ => output fun _ =>
      outcome (Kernel.sumRows_ofBuffers _ _ _ _)
  | sumColumns =>
    exact size fun _ => input fun _ => output fun _ =>
      outcome (Kernel.sumColumns_ofBuffers _ _ _ _)
  | random D =>
    refine .bind (outputSeen_accepts inv d s _) fun dst hdst => .ok ?_
    exact samplesEffect_gentle _ hdst fun _ => Does.of_random
  | addScaled =>
    exact input fun _ => scalar fun _ => output fun _ =>
      outcome (Kernel.addScaled_ofBuffers _ _ _ _)
  | product => exact productEffect_gentle fun _ _ _ _ _ => Kernel.product_ofBuffers _ _ _ _ _ _ _
  | wideProduct =>
    exact productEffect_gentle fun _ _ _ _ _ => Kernel.wideProduct_ofBuffers _ _ _ _ _ _ _

end Steps

end Recipe

/-! ## Routines and launches -/

namespace Effect

variable {inv : Invocation} {s : Store}

/-- An effect changes the bytes of the output, and the stream of a device. -/
theorem leaves_store (e : Effect) : s.Leaves (some inv.output) (e.store inv s) :=
  (Store.Leaves.modifyDevice s inv.device e.restream).trans
    (Store.Leaves.modifyBytes _ inv.output e.change)

theorem Idle.of_binds {e : Effect} {s' : Store} (h : e.Idle inv s) (hs : s.Binds s') :
    e.Idle inv s' where
  change := by
    rw [hs.contents]
    exact h.change
  stream := by
    have hstream := h.stream
    unfold restream at hstream ⊢
    rw [hs.stream]
    split
    · rename_i stream hsome
      rw [hsome] at hstream
      exact hstream
    · exact hs.stream _

/-- An idle effect shows nothing. -/
theorem Idle.shows {e : Effect} (h : e.Idle inv s) : s.Shows (e.store inv s) := by
  have hmemory : (s.block inv.output).memory.map e.change = (s.block inv.output).memory := by
    have hchange := h.change
    unfold Block.contents at hchange
    cases hm : (s.block inv.output).memory with
    | unbound => rfl
    | released => rfl
    | bound bytes =>
      rw [hm] at hchange
      exact congrArg Memory.bound hchange
  have hblock (b : BlockId) : (e.store inv s).block b = s.block b := by
    unfold store
    rw [Block.modifyBytes_eq]
    refine Store.modifyBlock_keeps (fun k => k) ?_ b
    rw [Store.block_modifyDevice, hmemory]
  have hextend := (e.keeps_store inv s).extend
  refine ⟨hextend, fun d => ?_, fun b _ => Block.sight_of_eq (hblock b) hextend.device⟩
  exact Store.modifyDevice_keeps Device.stream h.stream d

end Effect

namespace Routine

/-- What is seen is no rejection, and neither is how an effect that is seen ends. -/
def Accepts (x : Except RoutineFailure Effect) : Prop :=
  FailsIn (fun f => ¬f.Rejects) x ∧ ∀ e, x = .ok e → FailsIn (fun f => ¬f.Rejects) e.result

theorem accepts_refused (r : Refusal) : Accepts (.error (.refused r)) := by
  refine ⟨.error False.elim, fun e he => ?_⟩
  cases he

theorem accepts_recipe {d : ElemType} (recipe : Recipe d) (inv : Invocation) (s : Store) :
    Accepts (recipe.effect inv s) := by
  refine ⟨recipe.effect_gentle.1, fun e he f hf => ?_⟩
  exact ((recipe.effect_gentle.2 e he).result f hf).1

/-- No routine rejects its operands. -/
theorem effect_accepts (inv : Invocation) (s : Store) (routine : Routine) :
    Accepts (routine.effect inv s) := by
  cases routine with
  | catalog d op =>
    unfold effect
    dsimp only
    split
    · exact accepts_recipe _ inv s
    · exact accepts_refused _
  | singleProduct => exact accepts_recipe (d := .float32) .wideProduct inv s
  | doubleProduct => exact accepts_recipe (d := .float64) .wideProduct inv s
  | probe p =>
    cases p with
    | idle =>
      refine ⟨.ok _, fun e he => ?_⟩
      cases he
      exact .ok ()
    | ramp =>
      refine ⟨.bind (Invocation.outputSeen_accepts inv _ s _) fun _ _ => .ok _, fun e he => ?_⟩
      obtain ⟨_, -, he⟩ := bind_eq_ok_iff.mp he
      cases he
      exact .ok ()
    | unsupported => exact accepts_refused _
    | mismatch => exact accepts_refused _
    | echo => exact accepts_refused _

/-- A host routine that ends with a late failure has had no effect. -/
theorem Serves.idle {key : RoutineKey} {routine : Routine} (h : routine.Serves key)
    {inv : Invocation} {s : Store} {e : Effect} {f : RoutineFailure}
    (he : routine.effect inv s = .ok e) (hf : e.result = .error f) (hl : f.Late key.op) :
    e.Idle inv s := by
  obtain ⟨recipe, hdoes, hfollows⟩ := h.recipe
  rw [hfollows.effect] at he
  exact ((recipe.effect_gentle.2 e he).result f hf).2 key.op hdoes hl

/-- A host routine for another operation draws no samples. -/
theorem Serves.stream {key : RoutineKey} {routine : Routine} (h : routine.Serves key)
    (hop : key.op ∉ Operation.sampling) {inv : Invocation} {s : Store} {e : Effect}
    (he : routine.effect inv s = .ok e) : e.stream = none := by
  obtain ⟨recipe, hdoes, hfollows⟩ := h.recipe
  rw [hfollows.effect] at he
  exact (recipe.effect_gentle.2 e he).stream key.op hdoes hop

/-- What a routine has changed when it ends.  It rejects nothing, and a host routine shows nothing
when it fails late. -/
theorem run_ends (inv : Invocation) (s : Store) (routine : Routine) :
    (routine.run inv).Ends s (fun _ s' => s.Leaves (some inv.output) s')
      (fun f s' => s.Leaves (some inv.output) s' ∧
        (∀ key, routine.Serves key → f.Late key.op → s.Shows s') ∧ ¬f.Rejects) := by
  obtain ⟨haccepts, hresult⟩ := routine.effect_accepts inv s
  unfold Action.Ends
  rcases (routine.run_settles inv).ends s False.elim with hstops | hyields
  · obtain ⟨hrefused, hbinds, -⟩ := hstops
    cases hx : routine.run inv s with
    | mk r s' =>
      rw [hx] at hrefused hbinds
      cases r with
      | ok u => exact hrefused.elim
      | error f =>
        exact ⟨.of_binds hbinds, fun _ _ _ => Store.shows_of_binds hbinds,
          RoutineFailure.accepts_of_refuses hrefused⟩
  cases he : routine.effect inv s with
  | error f =>
    rw [he] at hyields
    obtain ⟨s', hs', hx⟩ := hyields
    rw [hx]
    exact ⟨.of_binds hs', fun _ _ _ => Store.shows_of_binds hs', haccepts f he⟩
  | ok e =>
    rw [he] at hyields
    obtain ⟨s', hs', -, hx⟩ := hyields
    have hleaves : s.Leaves (some inv.output) (e.store inv s') :=
      (Store.Leaves.of_binds hs').trans (e.leaves_store)
    rw [hx]
    cases hf : e.result with
    | ok u => exact hleaves
    | error f =>
      refine ⟨hleaves, fun key hserves hl => ?_, hresult e he f hf⟩
      exact (Store.shows_of_binds hs').trans ((hserves.idle he hf hl).of_binds hs').shows

end Routine

end DeviceTensor
