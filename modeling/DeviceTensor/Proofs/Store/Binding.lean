import DeviceTensor.Proofs.Fault
import DeviceTensor.Proofs.Store.Evolution
set_option autoImplicit false

/-!
# Binding memory shows nothing

Taking a view of a block may bind its memory.  `Store.Binds` relates the stores before and after:
blocks read as before, and devices differ only in the bytes they hold and in what they were asked
for.  An action that does no more than that is a function of what it sees, `Action.Reads`, and what
it sees is the same before and after.  Only a device that refuses memory keeps it from seeing, and
no device does that to a block that the store supplies.
-/

namespace DeviceTensor

open DeviceTensor.Except DeviceTensor.Action

/-- The device, but for the bytes it holds and for what it was asked for. -/
def Device.emptied (d : Device) : Device := { d with asked := [], held := 0 }

theorem Device.description_of_emptied {d d' : Device} (h : d'.emptied = d.emptied) :
    d'.description = d.description := by
  have hd := congrArg Device.description h
  exact hd

/-- The block, but for its memory. -/
def Block.bare (b : Block) : Block := { b with memory := .unbound }

namespace Store

/-- Memory was asked for, and bound where it was granted, and nothing else happened. -/
structure Binds (s s' : Store) : Prop where
  devices : s'.devices.size = s.devices.size
  device : ∀ d, (s'.device d).emptied = (s.device d).emptied
  registry : s'.registry = s.registry
  library : s'.library = s.library
  blocks : s'.blocks.size = s.blocks.size
  block : ∀ b, (s'.block b).bare = (s.block b).bare
  memory : ∀ b, (s'.block b).memory = (s.block b).memory ∨
    (s.block b).memory = .unbound ∧
      (s'.block b).memory = .bound (Array.replicate (s.block b).size 0)

namespace Binds

variable {s s' : Store}

theorem refl (s : Store) : s.Binds s :=
  ⟨rfl, fun _ => rfl, rfl, rfl, rfl, fun _ => rfl, fun _ => .inl rfl⟩

theorem place (h : s.Binds s') (b : BlockId) : (s'.block b).device = (s.block b).device :=
  (Block.mk.inj (h.block b)).1

theorem size (h : s.Binds s') (b : BlockId) : (s'.block b).size = (s.block b).size :=
  (Block.mk.inj (h.block b)).2.1

theorem handles (h : s.Binds s') (b : BlockId) : (s'.block b).handles = (s.block b).handles :=
  (Block.mk.inj (h.block b)).2.2.1

/-- The device that owns a block is as before, but for the bytes it holds and for what it was asked
for. -/
theorem owner (h : s.Binds s') (b : BlockId) :
    (s'.owner b).emptied = (s.owner b).emptied := by
  unfold Store.owner
  rw [h.place, h.device]

theorem description (h : s.Binds s') (b : BlockId) :
    (s'.owner b).description = (s.owner b).description :=
  Device.description_of_emptied (h.owner b)

theorem stream (h : s.Binds s') (d : DeviceId) : (s'.device d).stream = (s.device d).stream :=
  (Device.mk.inj (h.device d)).2.2.2.2.2.2.2.2

theorem draws (h : s.Binds s') (d : DeviceId) : (s'.device d).draws = (s.device d).draws :=
  Device.draws_of_description (Device.description_of_emptied (h.device d))

/-- Every block reads as before. -/
theorem contents (h : s.Binds s') (b : BlockId) :
    (s'.block b).contents = (s.block b).contents := by
  unfold Block.contents
  rcases h.memory b with hm | ⟨hu, hz⟩
  · rw [hm, h.size]
  · rw [hu, hz]

theorem trans {t u : Store} (h : s.Binds t) (h' : t.Binds u) : s.Binds u where
  devices := h'.devices.trans h.devices
  device d := (h'.device d).trans (h.device d)
  registry := h'.registry.trans h.registry
  library := h'.library.trans h.library
  blocks := h'.blocks.trans h.blocks
  block b := (h'.block b).trans (h.block b)
  memory b := by
    rcases h.memory b with hm | ⟨hu, hz⟩
    · rcases h'.memory b with hm' | ⟨hu', hz'⟩
      · exact .inl (hm'.trans hm)
      · refine .inr ⟨hm ▸ hu', ?_⟩
        rw [hz', h.size]
    · rcases h'.memory b with hm' | ⟨hu', -⟩
      · exact .inr ⟨hu, hm'.trans hz⟩
      · rw [hz] at hu'
        cases hu'

theorem evolves (h : s.Binds s') : s.Extends s' where
  device d := Device.description_of_emptied (h.device d)
  registry := h.registry
  library := h.library
  blocks_le := Nat.le_of_eq h.blocks.symm
  place b _ := h.place b
  size b _ := h.size b

/-- Bound memory stays bound, and released memory released. -/
theorem memory_of_ne (h : s.Binds s') {b : BlockId} (hb : (s.block b).memory ≠ .unbound) :
    (s'.block b).memory = (s.block b).memory := by
  rcases h.memory b with hm | ⟨hu, -⟩
  · exact hm
  · exact absurd hu hb

theorem keeps (h : s.Binds s') : s.Keeps s' where
  extend := h.evolves
  holds hs hh := by
    constructor
    · intro b hb
      rw [h.blocks]
      exact hh.lt b hb
    · intro b hb
      rw [h.blocks] at hb
      rw [h.handles]
      exact hh.handles b hb
    · intro b bytes hm
      rw [h.size]
      rcases h.memory b with hold | ⟨-, hz⟩
      · exact hh.bound b bytes (hold ▸ hm)
      · rw [hz] at hm
        cases hm
        exact Array.size_replicate
    · intro b hm
      rcases h.memory b with hold | ⟨-, hz⟩
      · exact hh.released b (hold ▸ hm)
      · rw [hz] at hm
        cases hm

end Binds

instance : Action.Frame Binds := ⟨Binds.refl, Binds.trans⟩

/-- The block has memory, or its device supplies it. -/
def Supplies (s : Store) (b : BlockId) : Prop :=
  (s.block b).memory = .unbound → (s.owner b).Supplies (s.block b).size

theorem Supplies.of_binds {s s' : Store} {b : BlockId} (h : s.Supplies b) (hs : s.Binds s') :
    s'.Supplies b := by
  intro hu
  rw [Device.supplies_of_description (hs.description b), hs.size]
  rcases hs.memory b with hm | ⟨hold, -⟩
  · exact h (hm ▸ hu)
  · exact h hold

end Store

/-! ## Actions that only look -/

namespace Action

variable {ε ε' α β : Type} [MemoryFailure ε] [MemoryFailure ε'] {bs : List BlockId}

/-- The action gives what `p` sees in the store, unless one of the blocks `bs` is refused memory.  It
changes nothing that `p` could see. -/
structure Reads (bs : List BlockId) (x : Action ε α) (p : Store → Except ε α) : Prop where
  result : ∀ s, (x s).1 = p s ∨ Refused (x s).1 ∧ ∃ b ∈ bs, ¬s.Supplies b
  binds : x.Within Store.Binds
  stable : ∀ s s', s.Binds s' → p s' = p s
  calm : ∀ s, ¬Refused (p s)

namespace Reads

theorem pure (a : α) : Reads bs (Pure.pure a : Action ε α) fun _ => .ok a :=
  ⟨fun _ => .inl rfl, .pure a, fun _ _ _ => rfl, fun _ => id⟩

theorem fail {e : ε} (he : ¬MemoryFailure.refuses e = true) :
    Reads bs (Action.fail e : Action ε α) fun _ => .error e :=
  ⟨fun _ => .inl rfl, .fail e, fun _ _ _ => rfl, fun _ => he⟩

theorem ofExcept {x : Except ε α} (hx : ¬Refused x) : Reads bs (Action.ofExcept x) fun _ => x :=
  ⟨fun _ => .inl rfl, .ofExcept x, fun _ _ _ => rfl, fun _ => hx⟩

theorem examine {f : Store → Except ε α} (h : ∀ s s', s.Binds s' → f s' = f s)
    (hf : ∀ s, ¬Refused (f s)) : Reads bs (Action.examine f) f :=
  ⟨fun _ => .inl rfl, .examine f, h, hf⟩

theorem inspect {f : Store → α} (h : ∀ s s', s.Binds s' → f s' = f s) :
    Reads bs (Action.inspect f : Action ε α) fun s => .ok (f s) :=
  ⟨fun _ => .inl rfl, .inspect f, fun s s' hs => congrArg Except.ok (h s s' hs), fun _ => id⟩

theorem bind {x : Action ε β} {next : β → Action ε α} {p : Store → Except ε β}
    {q : β → Store → Except ε α} (hx : Reads bs x p) (hn : ∀ b, Reads bs (next b) (q b)) :
    Reads bs (x >>= next) fun s => p s >>= fun b => q b s where
  result s := by
    have hr := hx.result s
    have hb := hx.binds s
    rw [bind_apply]
    cases hs : x s with
    | mk r s' =>
      rw [hs] at hr hb
      rcases hr with rfl | ⟨hrefused, hshort⟩
      · cases hp : p s with
        | ok b =>
          rcases (hn b).result s' with hr' | ⟨hrefused, c, hc, hshort⟩
          · exact .inl (hr'.trans ((hn b).stable s s' hb))
          · exact .inr ⟨hrefused, c, hc, fun h => hshort (h.of_binds hb)⟩
        | error e => exact .inl rfl
      · cases r with
        | ok b => exact hrefused.elim
        | error e => exact .inr ⟨hrefused, hshort⟩
  binds := .bind hx.binds fun b => (hn b).binds
  stable s s' h := by
    rw [hx.stable s s' h]
    cases p s with
    | ok b => exact (hn b).stable s s' h
    | error e => rfl
  calm s h := by
    rcases h.of_bind with h | ⟨b, -, h⟩
    · exact hx.calm s h
    · exact (hn b).calm s h

theorem mapError {f : ε' → ε} {x : Action ε' α} {p : Store → Except ε' α} (hx : Reads bs x p)
    (hf : ∀ e, MemoryFailure.refuses (f e) = MemoryFailure.refuses e) :
    Reads bs (x.mapError f) fun s => (p s).mapError f where
  result s := by
    rw [mapError_apply]
    rcases hx.result s with hr | ⟨hrefused, hshort⟩
    · exact .inl (congrArg (Except.mapError f) hr)
    · exact .inr ⟨hrefused.mapError fun e he => (hf e).trans he, hshort⟩
  binds := .mapError hx.binds
  stable s s' h := by rw [hx.stable s s' h]
  calm s h := hx.calm s (h.of_mapError fun e he => (hf e).symm.trans he)

end Reads

end Action

/-! ## Binding and viewing -/

namespace Block

/-- What a view of a block shows. -/
def seen (b : BlockId) (d : ElemType) (count : Nat) (s : Store) : Except Fault (Array (Elem d)) :=
  do
    checkView b d count s
    return Elem.decode d count (s.block b).contents

theorem checkView_eq_ok_iff {b : BlockId} {d : ElemType} {n : Nat} {s : Store} {u : Unit} :
    checkView b d n s = .ok u ↔ (s.owner b).addressable = true ∧ n * d.width < Size.limit ∧
      n * d.width ≤ (s.block b).size := by
  unfold checkView
  dsimp only
  rw [show s.device (s.block b).device = s.owner b from rfl]
  cases haddressable : (s.owner b).addressable with
  | false => simp
  | true =>
    simp only [Bool.not_true, Bool.false_eq_true, if_false, true_and]
    by_cases hlt : n * d.width < Size.limit
    · rw [Size.mul_of_lt hlt]
      by_cases hle : n * d.width ≤ (s.block b).size <;> simp [hlt, hle]
    · simp [Size.mul, hlt]

theorem checkView_of_binds {s s' : Store} (h : s.Binds s') (b : BlockId) (d : ElemType)
    (count : Nat) : checkView b d count s' = checkView b d count s := by
  have howner : (s'.device (s'.block b).device).description =
      (s.device (s.block b).device).description := h.description b
  unfold checkView
  dsimp only
  rw [Device.addressable_of_description howner, Device.backend_of_description howner,
    Device.name_of_description howner, h.size]

/-- No device is asked for memory to check a view. -/
theorem checkView_calm (b : BlockId) (d : ElemType) (count : Nat) (s : Store) :
    ¬Refused (checkView b d count s) := by
  unfold checkView
  dsimp only
  split
  · exact Bool.false_ne_true
  · split
    · exact Bool.false_ne_true
    · split
      · exact id
      · exact Bool.false_ne_true

/-- Memory is there, or the device grants it or refuses it. -/
theorem bindMemory_cases (b : BlockId) (s : Store) :
    (s.block b).memory ≠ .unbound ∧ bindMemory b s = (.ok (), s) ∨
    (s.block b).memory = .unbound ∧
      ((s.owner b).answer (.allocate (s.block b).size) = .ok () ∧
        bindMemory b s = (.ok (), (s.modifyDevice (s.block b).device fun _ =>
          { (s.owner b).after (.allocate (s.block b).size) with
            held := (s.owner b).held + (s.block b).size }).modifyBlock b fun k =>
          { k with memory := .bound (Array.replicate (s.block b).size 0) }) ∨
      ∃ e, (s.owner b).answer (.allocate (s.block b).size) = .error e ∧
        bindMemory b s =
          (.error (.allocationFailed (s.block b).size (s.owner b).backend (s.owner b).name e),
            s.modifyDevice (s.block b).device (·.after (.allocate (s.block b).size)))) := by
  unfold bindMemory Device.allocate Store.owner
  dsimp only
  cases hm : (s.block b).memory with
  | bound bytes => exact .inl ⟨nofun, rfl⟩
  | released => exact .inl ⟨nofun, rfl⟩
  | unbound =>
    refine .inr ⟨rfl, ?_⟩
    cases (s.device (s.block b).device).answer (.allocate (s.block b).size) with
    | ok u => exact .inl ⟨rfl, rfl⟩
    | error e => exact .inr ⟨e, rfl, rfl⟩

theorem bindMemory_binds (b : BlockId) : (bindMemory b).Within Store.Binds := by
  intro s
  rcases bindMemory_cases b s with ⟨-, hrun⟩ | ⟨hu, ⟨-, hrun⟩ | ⟨e, -, hrun⟩⟩
  · rw [hrun]
    exact .refl s
  · rw [hrun]
    constructor
    · exact Array.size_modify
    · intro d
      exact Store.modifyDevice_keeps Device.emptied rfl d
    · rfl
    · rfl
    · simp
    · intro c
      exact Store.modifyBlock_keeps Block.bare rfl c
    · intro c
      rw [Store.block_modifyBlock]
      split
      · rename_i hc
        obtain ⟨rfl, -⟩ := hc
        exact .inr ⟨hu, rfl⟩
      · exact .inl rfl
  · rw [hrun]
    exact
      { devices := Array.size_modify
        device := Store.modifyDevice_keeps Device.emptied rfl
        registry := rfl
        library := rfl
        blocks := rfl
        block := fun _ => rfl
        memory := fun _ => .inl rfl }

/-- Memory is bound, or it was asked for in vain. -/
theorem bindMemory_ends (b : BlockId) (s : Store) :
    (bindMemory b).Ends s (fun _ s' => s.Binds s')
      (fun f s' => s.Binds s' ∧ MemoryFailure.refuses f = true) := by
  have hbinds := bindMemory_binds b s
  unfold Ends
  rcases bindMemory_cases b s with ⟨-, hrun⟩ | ⟨-, ⟨-, hrun⟩ | ⟨e, -, hrun⟩⟩
  · rw [hrun] at hbinds ⊢
    exact hbinds
  · rw [hrun] at hbinds ⊢
    exact hbinds
  · rw [hrun] at hbinds ⊢
    exact ⟨hbinds, rfl⟩

/-- Binding memory is a question to the device. -/
theorem bindMemory_reads {b : BlockId} {bs : List BlockId} (hb : b ∈ bs) :
    Reads bs (bindMemory b) fun _ => .ok () where
  result s := by
    rcases bindMemory_cases b s with ⟨-, hrun⟩ | ⟨hu, ⟨-, hrun⟩ | ⟨e, he, hrun⟩⟩
    · exact .inl (by rw [hrun])
    · exact .inl (by rw [hrun])
    · refine .inr ⟨by rw [hrun]; rfl, b, hb, fun hsupplies => ?_⟩
      exact nomatch (hsupplies hu _).symm.trans he
  binds := bindMemory_binds b
  stable _ _ _ := rfl
  calm _ := id

/-- Memory that is supplied is bound. -/
theorem bindMemory_of_supplies {b : BlockId} {s : Store} (h : s.Supplies b) :
    ∃ s', bindMemory b s = (.ok (), s') ∧ s.Binds s' := by
  have hbinds := bindMemory_binds b s
  rcases (bindMemory_reads (List.mem_singleton_self b)).result s with hok | ⟨-, c, hc, hshort⟩
  · exact ⟨_, Prod.ext hok rfl, hbinds⟩
  · rw [List.mem_singleton.mp hc] at hshort
    exact absurd h hshort

/-- A view is a look at the block. -/
theorem view_reads {b : BlockId} {bs : List BlockId} (hb : b ∈ bs) (d : ElemType) (count : Nat) :
    Reads bs (view b d count) (seen b d count) := by
  refine .bind (.examine (fun _ _ h => checkView_of_binds h b d count) (checkView_calm b d count))
    fun _ => ?_
  refine .bind (q := fun _ s => .ok (Elem.decode d count (s.block b).contents))
    (bindMemory_reads hb) fun _ => ?_
  exact .inspect fun s s' h => by rw [h.contents]

/-- A block whose memory could be bound has memory from then on. -/
theorem bindMemory_memory {b : BlockId} {s s' : Store} (hb : b < s.blocks.size)
    (h : bindMemory b s = (.ok (), s')) : (s'.block b).memory ≠ .unbound := by
  rcases bindMemory_cases b s with ⟨hm, hrun⟩ | ⟨-, ⟨-, hrun⟩ | ⟨e, -, hrun⟩⟩
  · cases h.symm.trans hrun
    exact hm
  · cases h.symm.trans hrun
    rw [Store.block_modifyBlock_self _ (by simpa using hb)]
    nofun
  · cases h.symm.trans hrun

end Block

end DeviceTensor
