import Mathlib.Data.List.Forall2
import DeviceTensor.Proofs.Session.Tracking
set_option autoImplicit false

/-!
# Lazy memory is not observed

Memory is bound when it is first needed.  A program cannot tell this from memory that is bound as
soon as a block is made, except by asking whether it is bound or what devices account for.  On
devices at service its replies are alike, whatever memory is bound between its commands, as long as
no memory is refused.
-/

namespace DeviceTensor

open DeviceTensor.Action

/-! ## Memory that is bound early -/

namespace Store

variable {s : Store} {b : BlockId}

/-- The store after memory was asked for, for the blocks below `n` that have a holder. -/
def bindBelow : Nat → Store → Store
  | 0, s => s
  | n + 1, s =>
    let s := bindBelow n s
    if (s.block n).handles = 0 then s else (Block.bindMemory n s).2

/-- The store after memory was asked for, for every block that has a holder. -/
def bindHeld (s : Store) : Store := bindBelow s.blocks.size s

theorem binds_bindBelow (n : Nat) (s : Store) : s.Binds (bindBelow n s) := by
  induction n with
  | zero => exact .refl s
  | succ n ih =>
    unfold bindBelow
    dsimp only
    split
    · exact ih
    · exact ih.trans (Block.bindMemory_binds n _)

theorem binds_bindHeld (s : Store) : s.Binds s.bindHeld := binds_bindBelow _ s

theorem bindBelow_memory {n : Nat} (hb : b < n) (hpos : 0 < (s.block b).handles)
    (h : s.Supplies b) : ((bindBelow n s).block b).memory ≠ .unbound := by
  induction n with
  | zero => exact absurd hb (Nat.not_lt_zero b)
  | succ n ih =>
    have hbinds := binds_bindBelow n s
    unfold bindBelow
    dsimp only
    rcases Nat.lt_succ_iff_lt_or_eq.mp hb with hlt | rfl
    · split
      · exact ih hlt
      · rw [(Block.bindMemory_binds n _).memory_of_ne (ih hlt)]
        exact ih hlt
    · have hheld : ((bindBelow b s).block b).handles ≠ 0 := by
        rw [hbinds.handles]
        exact Nat.ne_of_gt hpos
      rw [if_neg hheld]
      obtain ⟨t, hbound, -⟩ := Block.bindMemory_of_supplies (h.of_binds hbinds)
      rw [hbound]
      refine Block.bindMemory_memory ?_ hbound
      rw [hbinds.blocks]
      exact lt_of_handles hpos

/-- Where the devices supply it, every block that has a holder has memory afterwards. -/
theorem bindHeld_memory (hpos : 0 < (s.block b).handles) (h : s.Supplies b) :
    (s.bindHeld.block b).memory ≠ .unbound :=
  bindBelow_memory (lt_of_handles hpos) hpos h

end Store

/-! ## Devices at service -/

/-- The command puts no routine in the place of a cast of the host catalog. -/
def Command.KeepsCasts : Command → Prop
  | .registerProbe key _ => key.op ≠ .cast
  | _ => True

namespace Session

variable {σ σ' : Session} {P : Registry Routine → Prop}

/-- Devices at service stay at service. -/
theorem step_serviceable (hσ : σ.Sound P []) (hserve : σ.store.Serviceable) {c : Command}
    (hc : c.KeepsCasts)
    (hd : ∀ d, ((step c σ).2.store.device d).description = (σ.store.device d).description) :
    (step c σ).2.store.Serviceable := by
  have hcasting : σ.Sound (fun r => ∀ d, r.Casts (σ.store.backend d)) [] :=
    { hσ with registry := hserve.casts }
  refine hserve.of_description hd (step_sound hcasting c fun hr d => ?_).registry
  cases c with
  | registerCatalog backend => exact (hr d).registerCatalog backend
  | registerProbe key p => exact (hr d).register hc (.probe p)
  | _ => exact hr d

/-- A session on hosts is at service. -/
theorem serviceable_start {specs : List DeviceSpec}
    (h : ∀ spec ∈ specs, ∃ name seed limit, spec = .host name seed limit) :
    (start specs).store.Serviceable := by
  have hhost (d : DeviceId) :
      ∃ name limit stream, (start specs).store.device d = .host name limit stream := by
    unfold Store.device start
    rw [Array.getD_eq_getD_getElem?, List.getElem?_toArray, List.getElem?_mapIdx]
    cases hspec : (DeviceSpec.host "default" none none :: specs)[d]? with
    | none => exact ⟨_, _, _, rfl⟩
    | some spec =>
      obtain ⟨name, seed, limit, rfl⟩ : ∃ name seed limit, spec = .host name seed limit := by
        rcases List.mem_cons.mp (List.mem_of_getElem? hspec) with rfl | hmem
        · exact ⟨_, _, _, rfl⟩
        · exact h spec hmem
      exact ⟨_, _, _, rfl⟩
  choose name limit stream hd using hhost
  have hbackend (d : DeviceId) : (start specs).store.backend d = .cpp := by
    unfold Store.backend
    rw [hd]
    rfl
  refine ⟨⟨fun dst src n earlier => ?_, fun d earlier => ?_⟩, fun d => ?_, fun d => ?_⟩
  · rw [hbackend dst, hbackend src, if_pos rfl, hd]
    rfl
  · rw [hd]
    rfl
  · rw [hd]
    rfl
  · rw [hbackend]
    exact Registry.casts_registerCatalog .empty .cpp

/-! ## Programs -/

/-- Runs a program, where `bind` may bind memory after each command. -/
def runBinding (bind : Store → Store) : List Command → Session → List Reply × Session
  | [], σ => ([], σ)
  | c :: cs, σ =>
    let (reply, σ) := step c σ
    let (replies, σ) := runBinding bind cs { σ with store := bind σ.store }
    (reply :: replies, σ)

/-- The replies to a program are alike if memory is bound early in one of its runs. -/
theorem run_tracks {bind : Store → Store} (hbind : ∀ s : Store, s.Binds (bind s))
    {cs : List Command} (hcs : ∀ c ∈ cs, c.KeepsCasts) (h : σ.Resembles σ')
    (hσ : σ.Sound (fun _ => True) []) (hserve : σ.store.Serviceable)
    (hr : ∀ r ∈ (run cs σ).1, r.refusesMemory = false)
    (hr' : ∀ r ∈ (runBinding bind cs σ').1, r.refusesMemory = false) :
    List.Forall₂ Reply.Alike (run cs σ).1 (runBinding bind cs σ').1 ∧
      (run cs σ).2.Resembles (runBinding bind cs σ').2 := by
  induction cs generalizing σ σ' with
  | nil => exact ⟨.nil, h⟩
  | cons c cs ih =>
    have hreply := hr (step c σ).1 List.mem_cons_self
    have hreply' := hr' (step c σ').1 List.mem_cons_self
    obtain ⟨halike, hnext, hdevice⟩ := step_agrees h hσ hserve c hreply hreply'
    have hbound := hnext.binds (.refl _) (hbind (step c σ').2.store)
    obtain ⟨hreplies, hend⟩ := ih (fun c' hc' => hcs c' (List.mem_cons_of_mem c hc')) hbound
      (step_sound hσ c fun _ => trivial)
      (step_serviceable hσ hserve (hcs c List.mem_cons_self) hdevice)
      (fun r hm => hr r (List.mem_cons_of_mem _ hm))
      (fun r hm => hr' r (List.mem_cons_of_mem _ hm))
    exact ⟨.cons halike hreplies, hend⟩

/-- Lazy memory is not observed.  On sessions that differ only in the memory of blank blocks, every
command gives replies that are alike and leaves such sessions, as long as no memory is refused; and
so does every program, whatever memory is bound between its commands. -/
theorem lazy_memory_is_not_observed (hσ : σ.Sound (fun _ => True) []) (h : σ.Resembles σ')
    (hserve : σ.store.Serviceable) :
    (∀ c, (step c σ).1.refusesMemory = false → (step c σ').1.refusesMemory = false →
      (step c σ).1.Alike (step c σ').1 ∧ (step c σ).2.Resembles (step c σ').2) ∧
    ∀ (bind : Store → Store) (cs : List Command), (∀ s : Store, s.Binds (bind s)) →
      (∀ c ∈ cs, c.KeepsCasts) →
      (∀ r ∈ (run cs σ).1, r.refusesMemory = false) →
      (∀ r ∈ (runBinding bind cs σ').1, r.refusesMemory = false) →
      List.Forall₂ Reply.Alike (run cs σ).1 (runBinding bind cs σ').1 ∧
        (run cs σ).2.Resembles (runBinding bind cs σ').2 := by
  refine ⟨fun c hr hr' => ?_, fun bind cs hbind hcs hr hr' => ?_⟩
  · obtain ⟨halike, hnext, -⟩ := step_agrees h hσ hserve c hr hr'
    exact ⟨halike, hnext⟩
  · exact run_tracks hbind hcs h hσ hserve hr hr'

/-- A tensor is converted, copied, moved and read, with memory bound lazily and at once. -/
theorem program_on_lazy_and_bound_memory :
    ∃ (σ σ' : Session) (cs : List Command),
      (σ.Sound (fun _ => True) [] ∧ σ.Resembles σ' ∧ σ.store.Serviceable) ∧
      (σ.store.block 0).memory = .unbound ∧
      (σ'.store.block 0).memory = .bound (Array.replicate 8 0) ∧
      ((step (.duplicate "a" "b") σ).1.Alike (step (.duplicate "a" "b") σ').1 ∧
        (step (.duplicate "a" "b") σ).2.Resembles (step (.duplicate "a" "b") σ').2) ∧
      (List.Forall₂ Reply.Alike (run cs σ).1 (runBinding Store.bindHeld cs σ').1 ∧
        (run cs σ).2.Resembles (runBinding Store.bindHeld cs σ').2) := by
  let σ₀ := start [.host "other" none none]
  let create := Command.create "a" [2] "default" .float32
  let σ := (step create σ₀).2
  let σ' : Session := { σ with store := σ.store.bindHeld }
  let cs : List Command := [.convert "a" .float64, .duplicate "a" "b", .moveTo "b" "other",
    .read "b" (some .float64), .state "a"]
  have hsound₀ : σ₀.Sound (fun _ => True) [] := onDevices_sound _ _ trivial
  have hserve₀ : σ₀.store.Serviceable :=
    serviceable_start fun spec hspec => ⟨_, _, _, List.mem_singleton.mp hspec⟩
  have hsound : σ.Sound (fun _ => True) [] := step_sound hsound₀ create fun _ => trivial
  have hserve : σ.store.Serviceable := by
    have hmade : (step create σ₀).1.refusesMemory = false := by decide +kernel
    have hagrees := step_agrees (.refl σ₀) hsound₀ hserve₀ create hmade hmade
    exact step_serviceable hsound₀ hserve₀ trivial hagrees.device
  have hlike : σ.Resembles σ' := (Resembles.refl σ).binds (.refl _) σ.store.binds_bindHeld
  have hcs : ∀ c ∈ cs, c.KeepsCasts := by
    intro c hc
    simp only [cs, List.mem_cons, List.not_mem_nil, or_false] at hc
    rcases hc with rfl | rfl | rfl | rfl | rfl <;> trivial
  obtain ⟨hunbound, hbound, hone, hone', hall, hall'⟩ :
      (σ.store.block 0).memory = .unbound ∧
      (σ'.store.block 0).memory = .bound (Array.replicate 8 0) ∧
      (step (.duplicate "a" "b") σ).1.refusesMemory = false ∧
      (step (.duplicate "a" "b") σ').1.refusesMemory = false ∧
      (∀ r ∈ (run cs σ).1, r.refusesMemory = false) ∧
      (∀ r ∈ (runBinding Store.bindHeld cs σ').1, r.refusesMemory = false) := by
    decide +kernel
  obtain ⟨hstep, hrun⟩ := lazy_memory_is_not_observed hsound hlike hserve
  exact ⟨σ, σ', cs, ⟨hsound, hlike, hserve⟩, hunbound, hbound,
    hstep _ hone hone', hrun Store.bindHeld cs Store.binds_bindHeld hcs hall hall'⟩

end Session

end DeviceTensor
