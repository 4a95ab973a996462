import DeviceTensor.Proofs.Element.Bytes
import DeviceTensor.Proofs.Routine.Effect
set_option autoImplicit false

/-!
# What a launch does

A launch finds a routine and lets it have its effect on the output; `launchSeen` is that effect as a
function of the store.  Beside the output and the stream of the device, a launch only binds memory.
It stops before the effect if an operand is refused memory.
-/

namespace DeviceTensor

open DeviceTensor.Except DeviceTensor.Action

/-! ## Effects on the store -/

/-- The memory with its bytes changed. -/
def Memory.map (f : Array UInt8 → Array UInt8) : Memory → Memory
  | .unbound => .unbound
  | .bound bytes => .bound (f bytes)
  | .released => .released

namespace Block

theorem modifyBytes_eq (b : BlockId) (f : Array UInt8 → Array UInt8) (s : Store) :
    modifyBytes b f s = s.modifyBlock b fun k => { k with memory := k.memory.map f } := by
  unfold modifyBytes
  congr 1
  funext k
  obtain ⟨_, _, _, m⟩ := k
  cases m <;> rfl

theorem memory_modifyBytes_self {b : BlockId} (f : Array UInt8 → Array UInt8) {s : Store}
    (hb : b < s.blocks.size) :
    ((modifyBytes b f s).block b).memory = (s.block b).memory.map f := by
  rw [modifyBytes_eq, Store.block_modifyBlock_self _ hb]

theorem block_modifyBytes_of_ne {b c : BlockId} (f : Array UInt8 → Array UInt8) {s : Store}
    (h : b ≠ c) : (modifyBytes b f s).block c = s.block c := by
  rw [modifyBytes_eq, Store.block_modifyBlock_of_ne _ h]

/-- A change of the bytes of a block that keeps their number. -/
theorem keeps_modifyBytes (b : BlockId) {f : Array UInt8 → Array UInt8}
    (hf : ∀ bytes, (f bytes).size = bytes.size) (s : Store) :
    s.Keeps (modifyBytes b f s) := by
  have hconst : modifyBytes b f s =
      s.modifyBlock b fun k => { k with memory := (s.block b).memory.map f } := by
    rw [modifyBytes_eq]
    exact Store.modifyBlock_congr rfl
  rw [hconst]
  refine Store.keeps_modifyMemory s b ?_ ?_
  · intro bytes hm
    cases hold : (s.block b).memory with
    | bound old =>
      rw [hold] at hm
      cases hm
      exact .inl ⟨old, rfl, hf old⟩
    | unbound =>
      rw [hold] at hm
      cases hm
    | released =>
      rw [hold] at hm
      cases hm
  · intro hm
    cases hold : (s.block b).memory with
    | bound old =>
      rw [hold] at hm
      cases hm
    | unbound =>
      rw [hold] at hm
      cases hm
    | released => rfl

end Block

namespace Effect

theorem description_restream (e : Effect) (d : Device) :
    (e.restream d).description = d.description := by
  unfold restream
  split <;> rfl

theorem keeps_store (e : Effect) (inv : Invocation) (s : Store) : s.Keeps (e.store inv s) :=
  Action.Frame.trans (R := Store.Keeps)
    (Store.keeps_modifyDevice s inv.device (e.description_restream _))
    (Block.keeps_modifyBytes inv.output e.size_change _)

end Effect

/-- Work that looks and then has one effect makes and drops no handle. -/
theorem Invocation.Settles.keeps {inv : Invocation} {x : Work Unit}
    {p : Store → Except RoutineFailure Effect} (h : inv.Settles False x p) :
    x.Within Store.Keeps := by
  intro s
  rcases h.ends s False.elim with hstops | hyields
  · exact hstops.binds.keeps
  · cases hp : p s with
    | error e =>
      rw [hp] at hyields
      obtain ⟨s', hs', hx⟩ := hyields
      rw [hx]
      exact hs'.keeps
    | ok e =>
      rw [hp] at hyields
      obtain ⟨s', hs', -, hx⟩ := hyields
      rw [hx]
      exact Action.Frame.trans hs'.keeps (e.keeps_store inv s')

/-! ## Routines -/

namespace Probe

/-- The numbers that the ramp writes into `size` bytes. -/
def rampBytes (size : Nat) : Array (Elem .char) :=
  (Array.range size).map fun i => (BitVec.ofNat 8 i : Elem .char)

/-- The effect of a probe. -/
def effect (inv : Invocation) (s : Store) : Probe → Except RoutineFailure Effect
  | .idle => .ok .idle
  | .ramp => do
    let size := (s.block inv.output).size
    let _ ← inv.outputSeen .char size s
    return .ofOutcome (rampBytes size, .ok ())
  | .unsupported => .error (.refused (.unsupportedType customType))
  | .mismatch => .error (.refused (.lengthMismatch inv.count inv.inputs.length))
  | .echo => .error (.refused (.invalidDistribution (.other (echoText inv))))

/-- To write elements is to view as many and to put them there. -/
theorem perform_write (inv : Invocation) {d : ElemType} (xs : Array (Elem d)) :
    Invocation.perform (Block.write inv.output xs) =
      inv.output? d xs.size >>= fun _ => inv.settle (xs, .ok ()) := by
  funext s
  simp only [Invocation.perform, Invocation.output?, Invocation.settle, Block.write, Block.view,
    Action.mapError, Action.bind_apply, Action.examine, Action.inspect, Action.change,
    Action.ofExcept]
  cases Block.checkView inv.output d xs.size s with
  | error e => rfl
  | ok u =>
    simp only
    cases Block.bindMemory inv.output s with
    | mk r s' => cases r <;> rfl

theorem run_settles (inv : Invocation) (p : Probe) :
    inv.Settles False (p.run inv) fun s => p.effect inv s := by
  cases p with
  | idle =>
    constructor
    · intro s _
      refine .inr ⟨s, .refl s, .inr rfl, ?_⟩
      have hbytes : Block.modifyBytes inv.output id s = s := by
        rw [Block.modifyBytes_eq]
        have hid : (fun k : Block => { k with memory := k.memory.map id }) = id := by
          funext k
          obtain ⟨_, _, _, m⟩ := k
          cases m <;> rfl
        rw [hid, Store.modifyBlock_id]
      have hsame : Effect.idle.store inv s = s := by
        unfold Effect.store
        have hstream : s.modifyDevice inv.device Effect.idle.restream = s :=
          Store.modifyDevice_id inv.device
        rw [hstream]
        exact hbytes
      rw [hsame]
      rfl
    · intro _ _ _
      rfl
    · intro _
      exact id
  | ramp =>
    have hwrite (size : Nat) : inv.Settles False
        (Invocation.perform (Block.write inv.output (rampBytes size)))
        fun s => inv.outputSeen .char size s >>= fun _ =>
          .ok (.ofOutcome (rampBytes size, .ok ())) := by
      have hsize : (rampBytes size).size = size := Array.size_map.trans Array.size_range
      rw [perform_write, hsize]
      exact .output fun _ => .settle _
    have hramp := Invocation.Settles.bind
      (.inspect fun s s' h => (h.size inv.output : (s'.block inv.output).size = _)) hwrite
    exact hramp
  | unsupported => exact .fail Bool.false_ne_true
  | mismatch => exact .fail Bool.false_ne_true
  | echo => exact .fail Bool.false_ne_true

end Probe

namespace Routine

/-- The effect of a routine. -/
def effect (inv : Invocation) (s : Store) : Routine → Except RoutineFailure Effect
  | .catalog d op =>
    match Recipe.ofOperation? d op with
    | some recipe => recipe.effect inv s
    | none => .error (.refused (.unsupportedType d.name))
  | .singleProduct => Recipe.effect (d := .float32) inv s .wideProduct
  | .doubleProduct => Recipe.effect (d := .float64) inv s .wideProduct
  | .probe p => p.effect inv s

theorem run_settles (inv : Invocation) (routine : Routine) :
    inv.Settles False (routine.run inv) fun s => routine.effect inv s := by
  cases routine with
  | catalog d op =>
    unfold run effect
    dsimp only
    cases Recipe.ofOperation? d op with
    | some recipe => exact Recipe.run_settles inv recipe
    | none => exact .fail Bool.false_ne_true
  | singleProduct => exact Recipe.run_settles (d := .float32) inv .wideProduct
  | doubleProduct => exact Recipe.run_settles (d := .float64) inv .wideProduct
  | probe p => exact p.run_settles inv

end Routine

/-! ## Launches -/

/-- The fault by which the failure of a routine is known; a refusal names the key. -/
def RoutineFailure.toFault (key : RoutineKey) : RoutineFailure → Fault
  | .fault f => f
  | .refused e => .launch (.routineFailed key e)

/-- The effect of a launch. -/
def launchSeen (op : Operation) (dtype : ElemType) (inv : Invocation) (s : Store) :
    Except Fault Effect :=
  let key := RoutineKey.onDevice dtype op inv.device s
  match s.registry.lookup key with
  | .error e => .error (.launch e)
  | .ok routine => (routine.effect inv s).mapError (RoutineFailure.toFault key)

theorem launch_eq (op : Operation) (dtype : ElemType) (inv : Invocation) (s : Store) :
    launch op dtype inv s =
      match s.registry.lookup (RoutineKey.onDevice dtype op inv.device s) with
      | .error e => (.error (.launch e), s)
      | .ok routine =>
        (routine.run inv).mapError
          (RoutineFailure.toFault (RoutineKey.onDevice dtype op inv.device s)) s := by
  have hname : (fun e : RoutineFailure => match e with
      | .fault f => f
      | .refused e => .launch (.routineFailed (RoutineKey.onDevice dtype op inv.device s) e)) =
      RoutineFailure.toFault (RoutineKey.onDevice dtype op inv.device s) := by
    funext e
    cases e <;> rfl
  exact hname ▸ rfl

theorem RoutineFailure.refuses_toFault (key : RoutineKey) (e : RoutineFailure) :
    MemoryFailure.refuses (e.toFault key) = MemoryFailure.refuses e := by
  cases e <;> rfl

/-- A launch stops with its routine. -/
theorem Invocation.Stops.launch {op : Operation} {dtype : ElemType} {inv : Invocation} {s : Store}
    {routine : Routine} (h : inv.Stops (routine.run inv) s)
    (hlookup : s.registry.lookup (.onDevice dtype op inv.device s) = .ok routine) :
    inv.Stops (launch op dtype inv) s := by
  have hlaunch := launch_eq op dtype inv s
  rw [hlookup] at hlaunch
  dsimp only at hlaunch
  rw [mapError_apply] at hlaunch
  refine ⟨?_, ?_, h.short⟩ <;> rw [hlaunch]
  · refine h.refused.mapError fun e he => ?_
    rwa [RoutineFailure.refuses_toFault]
  · exact h.binds

/-- A launch stops, or it binds memory and then fails or has an effect, as it has seen. -/
theorem launch_cases (op : Operation) (dtype : ElemType) (inv : Invocation) (s : Store) :
    inv.Stops (launch op dtype inv) s ∨
      (∀ f, launchSeen op dtype inv s = .error f →
        ∃ s', s.Binds s' ∧ launch op dtype inv s = (.error f, s')) ∧
      ∀ e, launchSeen op dtype inv s = .ok e →
        ∃ s', s.Binds s' ∧ (inv.Ready s' ∨ e.change = id) ∧ launch op dtype inv s =
          (e.result.mapError (RoutineFailure.toFault (.onDevice dtype op inv.device s)),
            e.store inv s') := by
  have hlaunch := launch_eq op dtype inv s
  have hseen : launchSeen op dtype inv s =
      match s.registry.lookup (.onDevice dtype op inv.device s) with
      | .error e => .error (.launch e)
      | .ok routine =>
        (routine.effect inv s).mapError (RoutineFailure.toFault (.onDevice dtype op inv.device s)) :=
    rfl
  cases hlookup : s.registry.lookup (.onDevice dtype op inv.device s) with
  | error e =>
    rw [hlookup] at hlaunch hseen
    rw [hseen]
    refine .inr ⟨fun f hf => ?_, fun e he => by cases he⟩
    cases hf
    exact ⟨s, .refl s, hlaunch⟩
  | ok routine =>
    rw [hlookup] at hlaunch hseen
    dsimp only at hlaunch hseen
    rw [mapError_apply] at hlaunch
    rw [hseen]
    rcases (routine.run_settles inv).ends s False.elim with hstops | hyields
    · exact .inl (hstops.launch hlookup)
    · refine .inr ⟨fun f hf => ?_, fun e he => ?_⟩
      · cases heffect : routine.effect inv s with
        | ok e =>
          rw [heffect] at hf
          cases hf
        | error e =>
          rw [heffect] at hf hyields
          obtain ⟨s', hs', hx⟩ := hyields
          cases hf
          exact ⟨s', hs', by rw [hlaunch, hx]; rfl⟩
      · rw [mapError_eq_ok_iff.mp he] at hyields
        obtain ⟨s', hs', hready, hx⟩ := hyields
        exact ⟨s', hs', hready, by rw [hlaunch, hx]⟩

section

variable {op : Operation} {dtype : ElemType} {inv : Invocation} {s : Store} {f : Fault} {e : Effect}

/-- With memory for all operands, no launch stops. -/
theorem Invocation.not_stops {ε α : Type} [MemoryFailure ε] {x : Action ε α}
    (h : ∀ b ∈ inv.blocks, s.Supplies b) : ¬inv.Stops x s := by
  rintro ⟨-, -, b, hb, hshort⟩
  exact hshort (h b hb)

/-- No action stops that ends otherwise than for want of memory. -/
theorem Invocation.not_stops_of_not_refused {ε α : Type} [MemoryFailure ε] {x : Action ε α}
    (h : ¬Refused (x s).1) : ¬inv.Stops x s :=
  fun hstops => h hstops.refused

/-- A launch that does not stop is refused no memory. -/
theorem Invocation.stops_of_refused (h : Refused (launch op dtype inv s).1) :
    inv.Stops (launch op dtype inv) s := by
  have hlaunch := launch_eq op dtype inv s
  cases hlookup : s.registry.lookup (.onDevice dtype op inv.device s) with
  | error e =>
    rw [hlaunch, hlookup] at h
    exact absurd h Bool.false_ne_true
  | ok routine =>
    rw [hlookup] at hlaunch
    dsimp only at hlaunch
    rw [mapError_apply] at hlaunch
    rw [hlaunch] at h
    have hsettles := routine.run_settles inv
    rcases hsettles.ends s False.elim with hstops | hyields
    · exact hstops.launch hlookup
    · have hresult : (routine.run inv s).1 = routine.effect inv s >>= Effect.result := by
        cases heffect : routine.effect inv s with
        | error e =>
          rw [heffect] at hyields
          obtain ⟨s', -, hx⟩ := hyields
          rw [hx]
          rfl
        | ok e =>
          rw [heffect] at hyields
          obtain ⟨s', -, -, hx⟩ := hyields
          rw [hx]
          rfl
      refine absurd ?_ (hsettles.calm s)
      rw [← hresult]
      exact h.of_mapError fun e he => by rwa [RoutineFailure.refuses_toFault] at he

/-- A launch is refused memory only if it is not supplied to one of the operands. -/
theorem not_supplied_of_refused (h : Refused (launch op dtype inv s).1) :
    ∃ b ∈ inv.blocks, ¬s.Supplies b :=
  (Invocation.stops_of_refused h).short

/-- A launch that sees a fault only binds memory. -/
theorem launch_of_error (hn : ¬inv.Stops (launch op dtype inv) s)
    (h : launchSeen op dtype inv s = .error f) :
    ∃ s', s.Binds s' ∧ launch op dtype inv s = (.error f, s') :=
  ((launch_cases op dtype inv s).resolve_left hn).1 f h

/-- A launch that sees an effect binds memory and has the effect. -/
theorem launch_of_ok (hn : ¬inv.Stops (launch op dtype inv) s)
    (h : launchSeen op dtype inv s = .ok e) :
    ∃ s', s.Binds s' ∧ (inv.Ready s' ∨ e.change = id) ∧ launch op dtype inv s =
      (e.result.mapError (RoutineFailure.toFault (.onDevice dtype op inv.device s)),
        e.store inv s') :=
  ((launch_cases op dtype inv s).resolve_left hn).2 e h

/-- How a launch ends is what it sees. -/
theorem launch_result (hn : ¬inv.Stops (launch op dtype inv) s) :
    (launch op dtype inv s).1 = launchSeen op dtype inv s >>= fun e =>
      e.result.mapError (RoutineFailure.toFault (.onDevice dtype op inv.device s)) := by
  cases h : launchSeen op dtype inv s with
  | error f =>
    obtain ⟨s', -, hx⟩ := launch_of_error hn h
    rw [hx]
    rfl
  | ok e =>
    obtain ⟨s', -, -, hx⟩ := launch_of_ok hn h
    rw [hx]
    rfl

/-- A launch that sees a fault leaves the bytes of every block. -/
theorem contents_launch_of_error (h : launchSeen op dtype inv s = .error f) (b : BlockId) :
    ((launch op dtype inv s).2.block b).contents = (s.block b).contents := by
  by_cases hn : inv.Stops (launch op dtype inv) s
  · exact hn.binds.contents b
  · obtain ⟨s', hs', hx⟩ := launch_of_error hn h
    rw [hx]
    exact hs'.contents b

/-- A launch that sees an effect changes the bytes of the output by it. -/
theorem contents_launch_of_ok (hn : ¬inv.Stops (launch op dtype inv) s)
    (h : launchSeen op dtype inv s = .ok e) (hlt : inv.output < s.blocks.size)
    (hlive : (s.block inv.output).memory ≠ .released) :
    ((launch op dtype inv s).2.block inv.output).contents =
      e.change (s.block inv.output).contents := by
  obtain ⟨s', hs', hready, hx⟩ := launch_of_ok hn h
  have hlt' : inv.output < s'.blocks.size := by
    rw [hs'.blocks]
    exact hlt
  have hmemory : ((e.store inv s').block inv.output).memory =
      (s'.block inv.output).memory.map e.change :=
    Block.memory_modifyBytes_self (s := s'.modifyDevice inv.device e.restream) e.change hlt'
  have hsize : ((e.store inv s').block inv.output).size = (s'.block inv.output).size := by
    unfold Effect.store
    rw [Block.modifyBytes_eq, Store.modifyBlock_keeps Block.size rfl]
    rfl
  rw [hx, ← hs'.contents]
  unfold Block.contents
  rw [hmemory, hsize]
  cases hm : (s'.block inv.output).memory with
  | bound bytes => rfl
  | unbound =>
    rcases hready with hready | hid
    · exact absurd hm (hready hlt')
    · rw [hid]
      rfl
  | released =>
    rcases hs'.memory inv.output with hold | ⟨-, hz⟩
    · exact absurd (hold.symm.trans hm) hlive
    · rw [hz] at hm
      cases hm

end

/-- A block that has room for the result of a launch. -/
structure Store.Receives (s : Store) (b : BlockId) (n : Nat) : Prop where
  lt : b < s.blocks.size
  live : (s.block b).memory ≠ .released
  room : n ≤ (s.block b).contents.size

/-- A new block has room for its bytes. -/
theorem Store.receives_acquired (s : Store) (d : DeviceId) (n : Nat) :
    (s.acquire d n).2.Receives s.blocks.size n where
  lt := by
    rw [Store.size_blocks_acquire]
    exact Nat.lt_succ_self _
  live := by
    rw [Store.block_acquire_self]
    nofun
  room := by
    rw [Store.block_acquire_self]
    exact Nat.le_of_eq Array.size_replicate.symm

/-- A launch ends as its kernel ends, and leaves what the kernel leaves. -/
theorem launch_of_outcome {d : ElemType} {op : Operation} {dtype : ElemType} {inv : Invocation}
    {s : Store} {o : Outcome (Elem d)} (hn : ¬inv.Stops (launch op dtype inv) s)
    (h : launchSeen op dtype inv s = .ok (.ofOutcome o))
    (hout : s.Receives inv.output (o.1.size * d.width)) :
    (launch op dtype inv s).1 = o.2.mapError (fun e =>
        (RoutineFailure.ofHalt e).toFault (.onDevice dtype op inv.device s)) ∧
      Elem.decode d o.1.size ((launch op dtype inv s).2.block inv.output).contents = o.1 := by
  constructor
  · rw [launch_result hn, h]
    obtain ⟨_, r⟩ := o
    cases r <;> rfl
  · rw [contents_launch_of_ok hn h hout.lt hout.live]
    exact Elem.decode_overlay hout.room

/-- A launch leaves the bytes of every block but its output. -/
theorem contents_launch_of_ne (op : Operation) (dtype : ElemType) {inv : Invocation} (s : Store)
    {b : BlockId} (hb : inv.output ≠ b) :
    ((launch op dtype inv s).2.block b).contents = (s.block b).contents := by
  by_cases hn : inv.Stops (launch op dtype inv) s
  · exact hn.binds.contents b
  cases h : launchSeen op dtype inv s with
  | error f => exact contents_launch_of_error h b
  | ok e =>
    obtain ⟨s', hs', -, hx⟩ := launch_of_ok hn h
    have hblock : (e.store inv s').block b = s'.block b :=
      Block.block_modifyBytes_of_ne (s := s'.modifyDevice inv.device e.restream) e.change hb
    rw [hx, hblock]
    exact hs'.contents b

/-- A launch makes and drops no handle. -/
theorem launch_keeps (op : Operation) (dtype : ElemType) (inv : Invocation) :
    (launch op dtype inv).Within Store.Keeps := by
  intro s
  rw [launch_eq]
  split
  · exact Action.Frame.refl s
  · exact Action.Within.mapError (Routine.run_settles inv _).keeps s

end DeviceTensor
