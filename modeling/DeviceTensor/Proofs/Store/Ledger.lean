import Mathlib.Algebra.BigOperators.Intervals
import DeviceTensor.Proofs.Store.Addition
import DeviceTensor.Proofs.Tensor.Work
set_option autoImplicit false

/-!
# A ledger of memory

Every action on a store is a sequence of small steps, on the store and on the handles that are
alive: `Step`.  A step deals with a device when memory is granted, refused or returned, and when the
stream of the device moves; `Path` keeps a ledger of these dealings.  What a ledger says is true at
every point of every path that starts without blocks: `Accounted`.  On any path, a block whose
memory was refused, and not granted later, has no memory at the end: `Path.lacks_of_refused`; so does
the block for which a device was last asked, if it refused: `Path.lacks_of_lastRefused`.
-/

namespace DeviceTensor.Store

/-! ## Steps -/

/-- What happens between a store and one of its devices. -/
inductive Dealing where
  /-- The device gave the memory of a block. -/
  | granted (b : BlockId) (d : DeviceId) (size : Nat)
  /-- The device did not give the memory of a block. -/
  | refused (b : BlockId) (d : DeviceId) (size : Nat)
  /-- The device took the memory of a block back. -/
  | returned (b : BlockId) (d : DeviceId) (size : Nat)
  /-- The stream of the device moved. -/
  | drawn (d : DeviceId)
  deriving DecidableEq, Repr

namespace Dealing

/-- The block whose memory a dealing hands over. -/
def block? : Dealing → Option BlockId
  | .granted b _ _ => some b
  | .refused _ _ _ => none
  | .returned b _ _ => some b
  | .drawn _ => none

end Dealing

/-- A store, and the handles on its blocks that are alive: those of slots, and those of work that is
in progress. -/
structure Holding where
  store : Store
  handles : List BlockId

/-- What is returned to a device when a handle on a block goes. -/
def returns (s : Store) (b : BlockId) : List Dealing :=
  if (s.block b).handles = 1 ∧ (s.block b).memory.isBound then
    [.returned b (s.block b).device (s.block b).size]
  else []

/-- One step of an action.  Blocks are bound, written and shared by way of live handles only, and
whoever asks a device for memory asks it for that of such a block. -/
inductive Step : Holding → List Dealing → Holding → Prop where
  | acquire (s : Store) (hs : List BlockId) (d : DeviceId) (n : Nat) :
      Step ⟨s, hs⟩ [] ⟨(s.acquire d n).2, s.blocks.size :: hs⟩
  | retain (s : Store) {hs : List BlockId} {b : BlockId} (hb : b ∈ hs) :
      Step ⟨s, hs⟩ [] ⟨s.retain b, b :: hs⟩
  | release (s : Store) (hs : List BlockId) (b : BlockId) :
      Step ⟨s, b :: hs⟩ (s.returns b) ⟨s.release b, hs⟩
  | bind {s s' : Store} {hs : List BlockId} {b : BlockId} (hb : b ∈ hs)
      (hu : (s.block b).memory = .unbound) (h : Block.bindMemory b s = (.ok (), s')) :
      Step ⟨s, hs⟩ [.granted b (s.block b).device (s.block b).size] ⟨s', hs⟩
  | refuse {s s' : Store} {hs : List BlockId} {b : BlockId} {f : Fault} (hb : b ∈ hs)
      (h : Block.bindMemory b s = (.error f, s')) :
      Step ⟨s, hs⟩ [.refused b (s.block b).device (s.block b).size] ⟨s', hs⟩
  | write (s : Store) {hs : List BlockId} {b : BlockId} (hb : b ∈ hs)
      {f : Array UInt8 → Array UInt8} (hf : ∀ bytes, (f bytes).size = bytes.size) :
      Step ⟨s, hs⟩ [] ⟨Block.modifyBytes b f s, hs⟩
  | ask (s : Store) (hs : List BlockId) (d : DeviceId) {r : Request} (hr : ∀ n, r ≠ .allocate n) :
      Step ⟨s, hs⟩ [] ⟨s.modifyDevice d (·.after r), hs⟩
  | tally (s : Store) (hs : List BlockId) (d : DeviceId) :
      Step ⟨s, hs⟩ [] ⟨s.modifyDevice d Device.tallied, hs⟩
  | draw (s : Store) (hs : List BlockId) (d : DeviceId) (stream : Stream) :
      Step ⟨s, hs⟩ [.drawn d] ⟨s.modifyDevice d fun k => { k with stream := stream }, hs⟩
  | register (s : Store) (hs : List BlockId) (r : Registry Routine) :
      Step ⟨s, hs⟩ [] ⟨{ s with registry := r }, hs⟩
  | perm (s : Store) {hs hs' : List BlockId} (h : hs.Perm hs') : Step ⟨s, hs⟩ [] ⟨s, hs'⟩

/-- Steps one after the other, with their dealings in order. -/
inductive Path : Holding → List Dealing → Holding → Prop where
  | refl (h : Holding) : Path h [] h
  | step {h m h' : Holding} {log log' : List Dealing} : Path h log m → Step m log' h' →
      Path h (log ++ log') h'

namespace Path

theorem single {h h' : Holding} {log : List Dealing} (hs : Step h log h') : Path h log h' :=
  (Path.refl h).step hs

theorem trans {h m h' : Holding} {log log' : List Dealing} (hp : Path h log m)
    (hp' : Path m log' h') : Path h (log ++ log') h' := by
  induction hp' with
  | refl =>
    rw [List.append_nil]
    exact hp
  | step _ hs ih =>
    rw [← List.append_assoc]
    exact ih.step hs

end Path

/-- Memory is granted, and bound zeroed. -/
theorem store_of_bindMemory {s s' : Store} {b : BlockId} (hu : (s.block b).memory = .unbound)
    (h : Block.bindMemory b s = (.ok (), s')) :
    s' = (s.modifyDevice (s.block b).device fun _ =>
      { (s.owner b).after (.allocate (s.block b).size) with
        held := (s.owner b).held + (s.block b).size }).modifyBlock b fun k =>
      { k with memory := .bound (Array.replicate (s.block b).size 0) } := by
  rcases Block.bindMemory_cases b s with ⟨hm, -⟩ | ⟨-, ⟨-, hrun⟩ | ⟨e, -, hrun⟩⟩
  · exact absurd hu hm
  · exact (Prod.mk.inj (h.symm.trans hrun)).2
  · cases h.symm.trans hrun

/-- Memory is refused, and the device remembers that it was asked. -/
theorem store_of_bindMemory_error {s s' : Store} {b : BlockId} {f : Fault}
    (h : Block.bindMemory b s = (.error f, s')) : (s.block b).memory = .unbound ∧
      s' = s.modifyDevice (s.block b).device (·.after (.allocate (s.block b).size)) := by
  rcases Block.bindMemory_cases b s with ⟨-, hrun⟩ | ⟨hu, ⟨-, hrun⟩ | ⟨e, -, hrun⟩⟩
  · cases h.symm.trans hrun
  · cases h.symm.trans hrun
  · exact ⟨hu, (Prod.mk.inj (h.symm.trans hrun)).2⟩

/-! ## Bytes that devices hold -/

/-- The bytes that device `d` holds for a block: its size, if it has memory and a handle. -/
def charge (d : DeviceId) (k : Block) : Nat :=
  if k.device = d ∧ k.memory.isBound ∧ 0 < k.handles then k.size else 0

/-- The bytes that device `d` holds for all blocks. -/
def chargedBytes (s : Store) (d : DeviceId) : Nat :=
  ∑ b ∈ Finset.range s.blocks.size, charge d (s.block b)

section Charges

variable {s s' : Store} {d : DeviceId}

theorem chargedBytes_congr (hsize : s'.blocks.size = s.blocks.size)
    (h : ∀ c, c < s.blocks.size → charge d (s'.block c) = charge d (s.block c)) :
    s'.chargedBytes d = s.chargedBytes d := by
  unfold chargedBytes
  rw [hsize]
  exact Finset.sum_congr rfl fun c hc => h c (Finset.mem_range.mp hc)

/-- One block is charged differently. -/
theorem chargedBytes_change {b : Nat} (hsize : s'.blocks.size = s.blocks.size)
    (hb : b < s.blocks.size) (h : ∀ c, b ≠ c → s'.block c = s.block c) :
    s'.chargedBytes d + charge d (s.block b) = s.chargedBytes d + charge d (s'.block b) := by
  have hmem : b ∈ Finset.range s.blocks.size := Finset.mem_range.mpr hb
  have hrest : ∑ c ∈ (Finset.range s.blocks.size).erase b, charge d (s'.block c) =
      ∑ c ∈ (Finset.range s.blocks.size).erase b, charge d (s.block c) := by
    refine Finset.sum_congr rfl fun c hc => ?_
    rw [h c (Finset.ne_of_mem_erase hc).symm]
  unfold chargedBytes
  rw [hsize, ← Finset.add_sum_erase _ (fun c : Nat => charge d (s'.block c)) hmem,
    ← Finset.add_sum_erase _ (fun c : Nat => charge d (s.block c)) hmem, hrest]
  omega

theorem chargedBytes_acquire (s : Store) (d e : DeviceId) (n : Nat) :
    (s.acquire d n).2.chargedBytes e = s.chargedBytes e := by
  have hnew : charge e ⟨d, n, 1, .unbound⟩ = 0 := by
    simp [charge, Memory.isBound]
  unfold chargedBytes
  rw [size_blocks_acquire, Finset.sum_range_succ, block_acquire_self, hnew, Nat.add_zero]
  refine Finset.sum_congr rfl fun c hc => ?_
  rw [block_acquire_of_lt (Finset.mem_range.mp hc)]

end Charges

theorem size_devices_release {s : Store} (b : BlockId) :
    (s.release b).devices.size = s.devices.size := by
  unfold Store.release giveBack
  dsimp only
  split
  · split
    · exact Array.size_modify
    · rfl
    · rfl
  · rfl

/-- No step makes or loses a device. -/
theorem Step.size_devices {h h' : Holding} {log : List Dealing} (hs : Step h log h') :
    h'.store.devices.size = h.store.devices.size := by
  cases hs with
  | acquire s hs d n => rfl
  | retain s hb => rfl
  | release s hs b => exact size_devices_release b
  | bind hb hu h =>
    rw [store_of_bindMemory hu h]
    exact Array.size_modify
  | refuse hb h =>
    rw [(store_of_bindMemory_error h).2]
    exact Array.size_modify
  | write s hb hf => rfl
  | ask s hs d hr => exact Array.size_modify
  | tally s hs d => exact Array.size_modify
  | draw s hs d stream => exact Array.size_modify
  | register s hs r => rfl
  | perm s hp => rfl

theorem Path.size_devices {h h' : Holding} {log : List Dealing} (hp : Path h log h') :
    h'.store.devices.size = h.store.devices.size := by
  induction hp with
  | refl => rfl
  | step _ hs ih => exact hs.size_devices.trans ih

/-- A step keeps what devices are like, and moves a stream only if it says so. -/
theorem Step.device {h h' : Holding} {log : List Dealing} (hs : Step h log h') (d : DeviceId) :
    (h'.store.device d).description = (h.store.device d).description ∧
      (.drawn d ∉ log → (h'.store.device d).stream = (h.store.device d).stream) := by
  cases hs with
  | acquire s hs e n => exact ⟨rfl, fun _ => rfl⟩
  | retain s hb => exact ⟨rfl, fun _ => rfl⟩
  | release s hs b =>
    exact ⟨release_keeps_device Device.description (fun _ _ => rfl) b d,
      fun _ => release_keeps_device Device.stream (fun _ _ => rfl) b d⟩
  | @bind s s' hs b hb hu hbind =>
    have hbinds := Block.bindMemory_binds b s
    rw [hbind] at hbinds
    exact ⟨hbinds.evolves.device d, fun _ => hbinds.stream d⟩
  | @refuse s s' hs b f hb hbind =>
    have hbinds := Block.bindMemory_binds b s
    rw [hbind] at hbinds
    exact ⟨hbinds.evolves.device d, fun _ => hbinds.stream d⟩
  | write s hb hf => exact ⟨rfl, fun _ => rfl⟩
  | ask s hs e hr =>
    exact ⟨modifyDevice_keeps Device.description rfl d,
      fun _ => modifyDevice_keeps Device.stream rfl d⟩
  | tally s hs e =>
    exact ⟨modifyDevice_keeps Device.description rfl d,
      fun _ => modifyDevice_keeps Device.stream rfl d⟩
  | draw s hs e stream =>
    refine ⟨modifyDevice_keeps Device.description rfl d, fun hd => ?_⟩
    have hne : ¬(e = d ∧ d < s.devices.size) := fun h => hd (h.1 ▸ List.mem_singleton_self _)
    change ((s.modifyDevice e _).device d).stream = (s.device d).stream
    rw [device_modifyDevice, if_neg hne]
  | register s hs r => exact ⟨rfl, fun _ => rfl⟩
  | perm s hp => exact ⟨rfl, fun _ => rfl⟩

theorem Path.device {h h' : Holding} {log : List Dealing} (hp : Path h log h') (d : DeviceId) :
    (h'.store.device d).description = (h.store.device d).description ∧
      (.drawn d ∉ log → (h'.store.device d).stream = (h.store.device d).stream) := by
  induction hp with
  | refl => exact ⟨rfl, fun _ => rfl⟩
  | step _ hs ih =>
    obtain ⟨hdescription, hstream⟩ := hs.device d
    refine ⟨hdescription.trans ih.1, fun hd => ?_⟩
    rw [List.mem_append, not_or] at hd
    exact (hstream hd.2).trans (ih.2 hd.1)

/-- How a device draws samples is part of what it is like. -/
theorem Path.draws {h h' : Holding} {log : List Dealing} (hp : Path h log h') (d : DeviceId) :
    (h'.store.device d).draws = (h.store.device d).draws :=
  Device.draws_of_description (hp.device d).1

/-! ## Refused memory -/

/-- Block `b` of device `d` and size `n` has no memory. -/
structure Lacks (s : Store) (b : BlockId) (d : DeviceId) (n : Nat) : Prop where
  lt : b < s.blocks.size
  place : (s.block b).device = d
  size : (s.block b).size = n
  unbound : (s.block b).memory = .unbound

theorem Lacks.congr {s s' : Store} {b : BlockId} {d : DeviceId} {n : Nat} (h : s.Lacks b d n)
    (hle : s.blocks.size ≤ s'.blocks.size) (hplace : (s'.block b).device = (s.block b).device)
    (hsize : (s'.block b).size = (s.block b).size)
    (hmemory : (s'.block b).memory = (s.block b).memory) : s'.Lacks b d n where
  lt := Nat.lt_of_lt_of_le h.lt hle
  place := hplace.trans h.place
  size := hsize.trans h.size
  unbound := hmemory.trans h.unbound

/-- A step keeps the count of the handles. -/
theorem Step.holds {h h' : Holding} {log : List Dealing} (hs : Step h log h')
    (hh : h.store.Holds h.handles) : h'.store.Holds h'.handles := by
  cases hs with
  | acquire s hs d n => exact hh.acquire d n
  | retain s hb => exact hh.retain hb
  | release s hs b => exact hh.release
  | @bind s s' hs b hb hu hbind =>
    have hkeeps := (Block.bindMemory_binds b s).keeps
    rw [hbind] at hkeeps
    exact hkeeps.holds hs hh
  | @refuse s s' hs b f hb hbind =>
    have hkeeps := (Block.bindMemory_binds b s).keeps
    rw [hbind] at hkeeps
    exact hkeeps.holds hs hh
  | write s hb hf => exact (Block.keeps_modifyBytes _ hf s).holds _ hh
  | ask s hs d hr => exact (keeps_modifyDevice s d rfl).holds _ hh
  | tally s hs d => exact (keeps_modifyDevice s d rfl).holds _ hh
  | draw s hs d stream => exact (keeps_modifyDevice s d rfl).holds _ hh
  | register s hs r => exact ⟨hh.lt, hh.handles, hh.bound, hh.released⟩
  | perm s hp => exact hh.perm hp

/-- A block gets memory only when its device grants it. -/
theorem Step.lacks {h h' : Holding} {log : List Dealing} (hs : Step h log h') {b : BlockId}
    {d : DeviceId} {n : Nat} (hl : h.store.Lacks b d n) (hg : .granted b d n ∉ log) :
    h'.store.Lacks b d n := by
  cases hs with
  | acquire s hs e m =>
    have hsame : (s.acquire e m).2.block b = s.block b := block_acquire_of_lt hl.lt
    refine hl.congr ?_ (congrArg _ hsame) (congrArg _ hsame) (congrArg _ hsame)
    exact (s.extends_acquire e m).blocks_le
  | @retain s hs c hc =>
    exact hl.congr (s.extends_retain c).blocks_le (modifyBlock_keeps Block.device rfl b)
      (modifyBlock_keeps Block.size rfl b) (modifyBlock_keeps Block.memory rfl b)
  | release s hs c =>
    refine hl.congr (s.extends_release c).blocks_le
      (release_keeps Block.device (fun _ => rfl) (fun _ => rfl) c b)
      (release_keeps Block.size (fun _ => rfl) (fun _ => rfl) c b) ?_
    by_cases hcb : c = b
    · subst hcb
      have hunbound : (s.block c).memory = .unbound := hl.unbound
      change ((s.release c).block c).memory = (s.block c).memory
      rw [release_of_unbound hunbound]
      exact modifyBlock_keeps Block.memory rfl c
    · exact congrArg Block.memory (block_release_of_ne hcb)
  | @bind s s' hs c hc hu hbind =>
    have hcb : c ≠ b := by
      rintro rfl
      refine hg (List.mem_singleton.mpr ?_)
      exact congrArg₂ (Dealing.granted c) hl.place.symm hl.size.symm
    have hsame : s'.block b = s.block b := by
      rw [store_of_bindMemory hu hbind, block_modifyBlock_of_ne _ hcb]
      rfl
    have hkeeps := (Block.bindMemory_binds c s).keeps
    rw [hbind] at hkeeps
    exact hl.congr hkeeps.extend.blocks_le (congrArg _ hsame) (congrArg _ hsame)
      (congrArg _ hsame)
  | refuse hc hbind =>
    rw [(store_of_bindMemory_error hbind).2]
    exact hl.congr (Nat.le_refl _) rfl rfl rfl
  | @write s hs c hc f hf =>
    have hmemory : ((Block.modifyBytes c f s).block b).memory = (s.block b).memory := by
      by_cases hcb : c = b
      · subst hcb
        have hunbound : (s.block c).memory = .unbound := hl.unbound
        rw [Block.memory_modifyBytes_self f hl.lt, hunbound]
        rfl
      · rw [Block.block_modifyBytes_of_ne f hcb]
    have hextends := (Block.keeps_modifyBytes c hf s).extend
    exact hl.congr hextends.blocks_le (hextends.place b hl.lt) (hextends.size b hl.lt) hmemory
  | ask s hs e hr => exact hl.congr (Nat.le_refl _) rfl rfl rfl
  | tally s hs e => exact hl.congr (Nat.le_refl _) rfl rfl rfl
  | draw s hs e stream => exact hl.congr (Nat.le_refl _) rfl rfl rfl
  | register s hs r => exact hl.congr (Nat.le_refl _) rfl rfl rfl
  | perm s hp => exact hl

/-- A block whose memory is refused has none. -/
theorem Step.lacks_of_refused {h h' : Holding} {log : List Dealing} (hs : Step h log h')
    (hh : h.store.Holds h.handles) {b : BlockId} {d : DeviceId} {n : Nat}
    (hr : .refused b d n ∈ log) : h'.store.Lacks b d n := by
  cases hs with
  | refuse hb hbind =>
    obtain ⟨rfl, rfl, rfl⟩ := Dealing.refused.inj (List.mem_singleton.mp hr)
    obtain ⟨hu, hs'⟩ := store_of_bindMemory_error hbind
    rw [hs']
    exact ⟨hh.lt _ hb, rfl, rfl, hu⟩
  | release s hs c =>
    unfold returns at hr
    split at hr
    · cases List.mem_singleton.mp hr
    · cases hr
  | bind hb hu hbind => cases List.mem_singleton.mp hr
  | draw s hs e stream => cases List.mem_singleton.mp hr
  | acquire | retain | write | ask | tally | register | perm => cases hr

/-- A block whose memory was refused, and not granted later, has none at the end. -/
theorem Path.lacks_of_refused {h h' : Holding} {log : List Dealing} (hp : Path h log h')
    (hh : h.store.Holds h.handles) {b : BlockId} {d : DeviceId} {n : Nat}
    (hr : .refused b d n ∈ log) (hg : .granted b d n ∉ log) : h'.store.Lacks b d n := by
  have hall : h'.store.Holds h'.handles ∧
      ∀ b d n, .refused b d n ∈ log → .granted b d n ∉ log → h'.store.Lacks b d n := by
    clear hr hg
    induction hp with
    | refl => exact ⟨hh, fun b d n hr => by cases hr⟩
    | step _ hs ih =>
      refine ⟨hs.holds ih.1, fun b d n hr hg => ?_⟩
      rw [List.mem_append, not_or] at hg
      rcases List.mem_append.mp hr with hr | hr
      · exact hs.lacks (ih.2 b d n hr hg.1) hg.2
      · exact hs.lacks_of_refused ih.1 hr
  exact hall.2 b d n hr hg

/-! ### The last request for memory -/

/-- When the device was last asked for memory, it had been asked at least `m` times before, was asked
for `n` bytes and refused. -/
def LastRefused (k : Device) (m n : Nat) : Prop :=
  ∃ recent earlier, k.asked = recent ++ .allocate n :: earlier ∧ (∀ i, .allocate i ∉ recent) ∧
    m ≤ earlier.length ∧ k.answers earlier (.allocate n) ≠ .ok ()

namespace LastRefused

variable {k k' : Device} {m n : Nat}

/-- That request was one of those made since. -/
theorem lt (h : LastRefused k m n) : m < k.asked.length := by
  obtain ⟨recent, earlier, hasked, -, hle, -⟩ := h
  rw [hasked, List.length_append, List.length_cons]
  omega

/-- If the device has not been asked for memory since, it refused before that. -/
theorem before {recent : List Request} (h : LastRefused k' m n) (hanswers : k'.answers = k.answers)
    (hasked : k'.asked = recent ++ k.asked) (hrecent : ∀ i, .allocate i ∉ recent) :
    LastRefused k m n := by
  obtain ⟨last, earlier, hlast, hothers, hle, hanswer⟩ := h
  rw [hanswers] at hanswer
  rw [hasked] at hlast
  rcases List.append_eq_append_iff.mp hlast with ⟨rest, hsplit, htail⟩ | ⟨rest, hsplit, htail⟩
  · refine ⟨rest, earlier, htail, fun i hi => hothers i ?_, hle, hanswer⟩
    rw [hsplit]
    exact List.mem_append_right _ hi
  · cases rest with
    | nil => exact ⟨[], earlier, htail.symm, fun _ => List.not_mem_nil, hle, hanswer⟩
    | cons r rest =>
      refine absurd ?_ (hrecent n)
      rw [hsplit, (List.cons.inj htail).1]
      exact List.mem_append_right _ List.mem_cons_self

/-- If the device has been asked for memory just now, it is that which it refused. -/
theorem now {i : Nat} (h : LastRefused k' m n) (hanswers : k'.answers = k.answers)
    (hasked : k'.asked = .allocate i :: k.asked) :
    i = n ∧ k.answer (.allocate n) ≠ .ok () := by
  obtain ⟨recent, earlier, hlast, hrecent, -, hanswer⟩ := h
  rw [hanswers] at hanswer
  rw [hasked] at hlast
  cases recent with
  | nil =>
    obtain ⟨hi, rfl⟩ := List.cons.inj hlast
    exact ⟨Request.allocate.inj hi, hanswer⟩
  | cons r recent =>
    exact absurd ((List.cons.inj hlast).1 ▸ List.mem_cons_self) (hrecent i)

end LastRefused

/-- Who asks a device for memory and gets it, has been granted it. -/
theorem answer_of_bindMemory {s s' : Store} {b : BlockId} (hu : (s.block b).memory = .unbound)
    (h : Block.bindMemory b s = (.ok (), s')) :
    (s.owner b).answer (.allocate (s.block b).size) = .ok () := by
  rcases Block.bindMemory_cases b s with ⟨hm, -⟩ | ⟨-, ⟨hanswer, -⟩ | ⟨e, -, hrun⟩⟩
  · exact absurd hu hm
  · exact hanswer
  · cases h.symm.trans hrun

/-- A step asks for no memory and grants none, or asks for memory, which is granted or goes into the
ledger as refused. -/
theorem Step.asked {h h' : Holding} {log : List Dealing} (hs : Step h log h') {d : DeviceId}
    (hd : d < h.store.devices.size) :
    (∃ recent, (h'.store.device d).asked = recent ++ (h.store.device d).asked ∧
      (∀ i, .allocate i ∉ recent) ∧ ∀ b n, .granted b d n ∉ log) ∨
    ∃ n, (h'.store.device d).asked = .allocate n :: (h.store.device d).asked ∧
      ((h.store.device d).answer (.allocate n) = .ok () ∨ ∃ b, .refused b d n ∈ log) := by
  cases hs with
  | acquire | retain | write | register | perm =>
    exact .inl ⟨[], rfl, fun _ => List.not_mem_nil, fun _ _ => List.not_mem_nil⟩
  | release s hs b =>
    have hreturns (c : BlockId) (n : Nat) : .granted c d n ∉ s.returns b := by
      unfold returns
      split <;> simp
    rcases asked_release b d with hasked | ⟨n, hasked⟩
    · exact .inl ⟨[], hasked, fun _ => List.not_mem_nil, hreturns⟩
    · exact .inl ⟨[.release n], hasked, by simp, hreturns⟩
  | @bind s s' hs b hb hu h =>
    have hanswer := answer_of_bindMemory hu h
    have hs' := store_of_bindMemory hu h
    by_cases hdb : (s.block b).device = d
    · subst hdb
      refine .inr ⟨(s.block b).size, ?_, .inl hanswer⟩
      change (s'.device _).asked = _
      rw [hs', device_modifyBlock, device_modifyDevice, if_pos ⟨rfl, hd⟩]
      rfl
    · refine .inl ⟨[], ?_, fun _ => List.not_mem_nil, fun c n hm => ?_⟩
      · change (s'.device d).asked = _
        rw [hs', device_modifyBlock, device_modifyDevice, if_neg fun h => hdb h.1]
        rfl
      · exact hdb (Dealing.granted.inj (List.mem_singleton.mp hm)).2.1.symm
  | @refuse s s' hs b f hb h =>
    obtain ⟨-, hs'⟩ := store_of_bindMemory_error h
    by_cases hdb : (s.block b).device = d
    · subst hdb
      refine .inr ⟨(s.block b).size, ?_, .inr ⟨b, List.mem_singleton_self _⟩⟩
      change (s'.device _).asked = _
      rw [hs', device_modifyDevice, if_pos ⟨rfl, hd⟩]
      rfl
    · refine .inl ⟨[], ?_, fun _ => List.not_mem_nil, fun c n hm => ?_⟩
      · change (s'.device d).asked = _
        rw [hs', device_modifyDevice, if_neg fun h => hdb h.1]
        rfl
      · cases List.mem_singleton.mp hm
  | @ask s hs e r hr =>
    refine .inl ?_
    change ∃ recent, ((s.modifyDevice e _).device d).asked = _ ∧ _
    rw [device_modifyDevice]
    split
    · refine ⟨[r], rfl, fun i hi => ?_, fun _ _ => List.not_mem_nil⟩
      exact hr i (List.mem_singleton.mp hi).symm
    · exact ⟨[], rfl, fun _ => List.not_mem_nil, fun _ _ => List.not_mem_nil⟩
  | tally s hs e =>
    exact .inl ⟨[], modifyDevice_keeps Device.asked rfl d, fun _ => List.not_mem_nil,
      fun _ _ => List.not_mem_nil⟩
  | draw s hs e stream =>
    refine .inl ⟨[], modifyDevice_keeps Device.asked rfl d, fun _ => List.not_mem_nil,
      fun b n hm => ?_⟩
    cases List.mem_singleton.mp hm

/-- A device that refused when it was last asked for memory, was asked for that of a block, which has
none at the end. -/
theorem Path.lacks_of_lastRefused {h h' : Holding} {log : List Dealing} (hp : Path h log h')
    (hh : h.store.Holds h.handles) {d : DeviceId} {n : Nat}
    (hr : LastRefused (h'.store.device d) (h.store.device d).asked.length n) :
    ∃ b, .refused b d n ∈ log ∧ h'.store.Lacks b d n := by
  have hd : d < h'.store.devices.size := by
    by_contra hd
    have hlt := hr.lt
    rw [device_of_le (Nat.le_of_not_lt hd)] at hlt
    exact absurd hlt (Nat.not_lt_zero _)
  have hall : h'.store.Holds h'.handles ∧ ∀ n,
      LastRefused (h'.store.device d) (h.store.device d).asked.length n →
      ∃ b, .refused b d n ∈ log ∧ h'.store.Lacks b d n := by
    clear hr
    induction hp with
    | refl => exact ⟨hh, fun n hr => absurd hr.lt (Nat.lt_irrefl _)⟩
    | step _ hs ih =>
      have hd' := hs.size_devices ▸ hd
      obtain ⟨hholds, ih⟩ := ih hd'
      have hanswers := Device.answers_of_description (hs.device d).1
      refine ⟨hs.holds hholds, fun n hr => ?_⟩
      rcases hs.asked hd' with ⟨recent, hasked, hrecent, hgranted⟩ | ⟨i, hasked, hdealt⟩
      · -- The step asks for no memory, so that it was another one at which the device refused.
        obtain ⟨b, hb, hlacks⟩ := ih n (hr.before hanswers hasked hrecent)
        exact ⟨b, List.mem_append_left _ hb, hs.lacks hlacks (hgranted b n)⟩
      · -- The step asks for memory, and is the last one to do so.
        obtain ⟨rfl, hanswer⟩ := hr.now hanswers hasked
        rcases hdealt with hgranted | ⟨b, hb⟩
        · exact absurd hgranted hanswer
        · exact ⟨b, List.mem_append_right _ hb, hs.lacks_of_refused hholds hb⟩
  exact hall.2 n hr

/-! ## The ledger is true -/

/-- The dealings about a block, by the state of its memory. -/
def dealings (b : BlockId) (k : Block) : List Dealing :=
  match k.memory with
  | .unbound => []
  | .bound _ => [.granted b k.device k.size]
  | .released => [.granted b k.device k.size, .returned b k.device k.size]

/-- The handles are counted, memory is bound only while there is a handle, the ledger has the
dealings about every block, and devices hold the bytes of the bound blocks. -/
structure Accounted (log : List Dealing) (h : Holding) : Prop where
  holds : h.store.Holds h.handles
  alive : ∀ b, (h.store.block b).memory.isBound = true → b ∈ h.handles
  dealt : ∀ b, (log.filter fun e => e.block? = some b) = dealings b (h.store.block b)
  held : ∀ d, d < h.store.devices.size → (h.store.device d).held = h.store.chargedBytes d

namespace Accounted

variable {log log' : List Dealing} {s s' : Store} {hs hs' : List BlockId}

/-- Before the first step there is nothing to account for. -/
theorem start {s : Store} (hblocks : s.blocks = #[]) (hheld : ∀ d, d < s.devices.size →
    (s.device d).held = 0) : Accounted [] ⟨s, []⟩ where
  holds :=
    { lt := fun b hb => by cases hb
      handles := fun b hb => by
        rw [hblocks] at hb
        cases hb
      bound := fun b bytes hm => by
        rw [memory_of_le (by rw [hblocks]; exact Nat.zero_le b)] at hm
        cases hm
      released := fun b _ hb => by cases hb }
  alive b hb := by
    rw [memory_of_le (by rw [hblocks]; exact Nat.zero_le b)] at hb
    cases hb
  dealt b := by
    unfold dealings
    rw [memory_of_le (by rw [hblocks]; exact Nat.zero_le b)]
    rfl
  held d hd := by
    unfold chargedBytes
    rw [hheld d hd, hblocks]
    rfl

/-- A step without dealings, after which every block is described and charged as before. -/
theorem quiet (h : Accounted log ⟨s, hs⟩) (hholds : s'.Holds hs')
    (hsub : ∀ b, (s'.block b).memory.isBound = true → (s.block b).memory.isBound = true ∧
      (b ∈ hs → b ∈ hs'))
    (hdealt : ∀ b, dealings b (s'.block b) = dealings b (s.block b))
    (hdevices : s'.devices.size = s.devices.size)
    (hheld : ∀ d, (s'.device d).held = (s.device d).held)
    (hcharged : ∀ d, s'.chargedBytes d = s.chargedBytes d) : Accounted log ⟨s', hs'⟩ where
  holds := hholds
  alive b hb := (hsub b hb).2 (h.alive b (hsub b hb).1)
  dealt b := (h.dealt b).trans (hdealt b).symm
  held d hd := by
    rw [hheld, hcharged]
    exact h.held d (hdevices ▸ hd)

/-- A change of a device that leaves what it is and what it holds. -/
theorem modifyDevice (h : Accounted log ⟨s, hs⟩) (d : DeviceId) {f : Device → Device}
    (hdescription : (f (s.device d)).description = (s.device d).description)
    (hheld : (f (s.device d)).held = (s.device d).held) :
    Accounted log ⟨s.modifyDevice d f, hs⟩ :=
  h.quiet ((keeps_modifyDevice s d hdescription).holds hs h.holds) (fun _ hb => ⟨hb, fun hm => hm⟩)
    (fun _ => rfl) Array.size_modify (modifyDevice_keeps Device.held hheld) fun _ => rfl

theorem perm (h : Accounted log ⟨s, hs⟩) (hp : hs.Perm hs') : Accounted log ⟨s, hs'⟩ :=
  h.quiet (h.holds.perm hp) (fun _ hb => ⟨hb, fun hm => hp.mem_iff.mp hm⟩) (fun _ => rfl) rfl
    (fun _ => rfl) fun _ => rfl

theorem acquire (h : Accounted log ⟨s, hs⟩) (d : DeviceId) (n : Nat) :
    Accounted log ⟨(s.acquire d n).2, s.blocks.size :: hs⟩ := by
  have hmemory (b : BlockId) : ((s.acquire d n).2.block b).memory = (s.block b).memory := by
    rw [block_acquire]
    split
    · rename_i hb
      rw [hb, memory_of_le (Nat.le_refl _)]
    · rfl
  refine h.quiet (h.holds.acquire d n) (fun b hb => ⟨hmemory b ▸ hb, List.mem_cons_of_mem _⟩)
    (fun b => ?_) rfl (fun _ => rfl) (s.chargedBytes_acquire d · n)
  by_cases hb : b = s.blocks.size
  · unfold dealings
    rw [hmemory, hb, memory_of_le (Nat.le_refl _)]
  · rw [block_acquire, if_neg hb]

theorem retain (h : Accounted log ⟨s, hs⟩) {b : BlockId} (hb : b ∈ hs) :
    Accounted log ⟨s.retain b, b :: hs⟩ := by
  have hlt := h.holds.lt b hb
  have hpos := h.holds.handles_pos hb
  have hmemory (c : BlockId) : ((s.retain b).block c).memory = (s.block c).memory :=
    modifyBlock_keeps Block.memory rfl c
  refine h.quiet (h.holds.retain hb) (fun c hc => ⟨hmemory c ▸ hc, List.mem_cons_of_mem _⟩)
    (fun c => modifyBlock_keeps (dealings c) rfl c) rfl (fun _ => rfl) fun d => ?_
  refine chargedBytes_congr (size_blocks_retain b) fun c _ => ?_
  refine modifyBlock_keeps (charge d) ?_ c
  unfold charge
  simp only [hpos, Nat.succ_pos]

/-- Other bytes in a block. -/
theorem write (h : Accounted log ⟨s, hs⟩) (b : BlockId) {f : Array UInt8 → Array UInt8}
    (hf : ∀ bytes, (f bytes).size = bytes.size) :
    Accounted log ⟨Block.modifyBytes b f s, hs⟩ := by
  have hmap (m : Memory) : (m.map f).isBound = m.isBound := by
    cases m <;> rfl
  have hbound (c : BlockId) : ((Block.modifyBytes b f s).block c).memory.isBound =
      (s.block c).memory.isBound := by
    rw [Block.modifyBytes_eq]
    exact modifyBlock_keeps (fun k => k.memory.isBound) (hmap _) c
  have hholds := (Block.keeps_modifyBytes b hf s).holds hs h.holds
  refine h.quiet hholds (fun c hc => ⟨hbound c ▸ hc, fun hm => hm⟩) (fun c => ?_) rfl
    (fun _ => rfl) fun d => ?_
  · rw [Block.modifyBytes_eq]
    refine modifyBlock_keeps (dealings c) ?_ c
    unfold dealings
    cases (s.block b).memory <;> rfl
  · refine chargedBytes_congr ?_ fun c _ => ?_
    · rw [Block.modifyBytes_eq, size_blocks_modifyBlock]
    · rw [Block.modifyBytes_eq]
      refine modifyBlock_keeps (charge d) ?_ c
      unfold charge
      simp only [hmap]

theorem register (h : Accounted log ⟨s, hs⟩) (r : Registry Routine) :
    Accounted log ⟨{ s with registry := r }, hs⟩ where
  holds := ⟨h.holds.lt, h.holds.handles, h.holds.bound, h.holds.released⟩
  alive := h.alive
  dealt := h.dealt
  held := h.held

/-- A dealing that hands no memory over. -/
theorem append (h : Accounted log ⟨s, hs⟩) {e : Dealing} (he : e.block? = none) :
    Accounted (log ++ [e]) ⟨s, hs⟩ where
  holds := h.holds
  alive := h.alive
  dealt b := by
    rw [List.filter_append, List.filter_cons_of_neg (by simp [he]), List.filter_nil,
      List.append_nil]
    exact h.dealt b
  held := h.held

/-- The last handle on a bound block goes, and its memory is returned. -/
theorem release_last {b : BlockId} (h : Accounted log ⟨s, b :: hs⟩)
    (hone : (s.block b).handles = 1) {bytes : Array UInt8}
    (hm : (s.block b).memory = .bound bytes) :
    Accounted (log ++ [.returned b (s.block b).device (s.block b).size]) ⟨s.release b, hs⟩ := by
  have hlt : b < s.blocks.size := h.holds.lt b List.mem_cons_self
  obtain ⟨-, hreleased, hheld⟩ := release_of_bound hlt hone hm
  have hother (c : BlockId) (hc : b ≠ c) : (s.release b).block c = s.block c :=
    block_release_of_ne hc
  have hplace : ((s.release b).block b).device = (s.block b).device :=
    release_keeps Block.device (fun _ => rfl) (fun _ => rfl) b b
  have hsize : ((s.release b).block b).size = (s.block b).size :=
    release_keeps Block.size (fun _ => rfl) (fun _ => rfl) b b
  refine ⟨h.holds.release, fun c hc => ?_, fun c => ?_, fun d hd => ?_⟩
  · by_cases hbc : b = c
    · subst hbc
      rw [hreleased] at hc
      cases hc
    · rw [hother c hbc] at hc
      exact (List.mem_cons.mp (h.alive c hc)).resolve_left fun heq => hbc heq.symm
  · rw [List.filter_append, h.dealt]
    by_cases hbc : b = c
    · subst hbc
      simp [dealings, hm, hreleased, hplace, hsize, Dealing.block?]
    · rw [hother c hbc]
      simp [Dealing.block?, hbc]
  · have hd' : d < s.devices.size := size_devices_release b ▸ hd
    have hcharged := chargedBytes_change (d := d) (s := s) (size_blocks_release b) hlt hother
    have hafter : charge d ((s.release b).block b) = 0 := by
      simp [charge, hreleased, Memory.isBound]
    have hbefore : charge d (s.block b) =
        if d = (s.block b).device ∧ d < s.devices.size then (s.block b).size else 0 := by
      simp [charge, hm, Memory.isBound, hone, hd', eq_comm]
    have hold : (s.device d).held = s.chargedBytes d := h.held d hd'
    change ((s.release b).device d).held = (s.release b).chargedBytes d
    rw [hheld, ← hbefore, hold]
    rw [hafter] at hcharged
    omega

/-- A handle goes that is not the last one, or is on a block without memory. -/
theorem release_other {b : BlockId} (h : Accounted log ⟨s, b :: hs⟩)
    (hlast : ¬((s.block b).handles = 1 ∧ (s.block b).memory.isBound = true)) :
    Accounted log ⟨s.release b, hs⟩ := by
  have hlt : b < s.blocks.size := h.holds.lt b List.mem_cons_self
  have hcount : (s.block b).handles = hs.count b + 1 :=
    (h.holds.handles b hlt).trans List.count_cons_self
  have hkept : s.release b = s.modifyBlock b fun k => { k with handles := k.handles - 1 } := by
    unfold Store.release
    dsimp only
    split
    · rename_i hone
      unfold giveBack
      rw [modifyBlock_keeps Block.memory rfl]
      cases hm : (s.block b).memory with
      | bound bytes => exact absurd ⟨hone, by rw [hm]; rfl⟩ hlast
      | unbound => rfl
      | released => rfl
    · rfl
  have hcharge (d : DeviceId) :
      charge d { s.block b with handles := (s.block b).handles - 1 } = charge d (s.block b) := by
    unfold charge
    by_cases hbound : (s.block b).memory.isBound = true
    · have hmore : (s.block b).handles ≠ 1 := fun hone => hlast ⟨hone, hbound⟩
      have hpos : 0 < (s.block b).handles := by omega
      have hless : 0 < (s.block b).handles - 1 := by omega
      simp only [hpos, hless]
    · simp only [hbound, Bool.false_eq_true, false_and, and_false]
  have hholds := h.holds.release
  rw [hkept] at hholds ⊢
  refine h.quiet hholds (fun c hc => ?_) (fun c => modifyBlock_keeps (dealings c) rfl c) rfl
    (fun _ => rfl) fun d => ?_
  · rw [modifyBlock_keeps Block.memory rfl] at hc
    refine ⟨hc, fun hm => ?_⟩
    rcases List.mem_cons.mp hm with rfl | hm
    · have hmore : (s.block c).handles ≠ 1 := fun hone => hlast ⟨hone, hc⟩
      have hleft : 0 < hs.count c := by omega
      exact List.count_pos_iff.mp hleft
    · exact hm
  · refine chargedBytes_congr (size_blocks_modifyBlock _ _) fun c _ => ?_
    exact modifyBlock_keeps (charge d) (hcharge d) c

/-- One handle less, and a return if it was the last one on a bound block. -/
theorem release {b : BlockId} (h : Accounted log ⟨s, b :: hs⟩) :
    Accounted (log ++ s.returns b) ⟨s.release b, hs⟩ := by
  unfold returns
  by_cases hlast : (s.block b).handles = 1 ∧ (s.block b).memory.isBound = true
  · rw [if_pos hlast]
    cases hm : (s.block b).memory with
    | bound bytes => exact h.release_last hlast.1 hm
    | unbound =>
      rw [hm] at hlast
      cases hlast.2
    | released =>
      rw [hm] at hlast
      cases hlast.2
  · rw [if_neg hlast, List.append_nil]
    exact h.release_other hlast

/-- Memory for a block that has a handle. -/
theorem bind {b : BlockId} (h : Accounted log ⟨s, hs⟩) (hb : b ∈ hs)
    (hu : (s.block b).memory = .unbound) (hbind : Block.bindMemory b s = (.ok (), s')) :
    Accounted (log ++ [.granted b (s.block b).device (s.block b).size]) ⟨s', hs⟩ := by
  have hlt := h.holds.lt b hb
  have hpos := h.holds.handles_pos hb
  have hs' := store_of_bindMemory hu hbind
  have hholds : s'.Holds hs := by
    have hkeeps := (Block.bindMemory_keeps b s).holds hs h.holds
    rw [hbind] at hkeeps
    exact hkeeps
  have hself : s'.block b =
      { s.block b with memory := .bound (Array.replicate (s.block b).size 0) } := by
    rw [hs', block_modifyBlock_self _ (by simpa using hlt)]
    rfl
  have hother (c : BlockId) (hc : b ≠ c) : s'.block c = s.block c := by
    rw [hs', block_modifyBlock_of_ne _ hc]
    rfl
  have hsize : s'.blocks.size = s.blocks.size := by
    rw [hs', size_blocks_modifyBlock, blocks_modifyDevice]
  have hdevices : s'.devices.size = s.devices.size := by
    rw [hs']
    exact Array.size_modify
  refine ⟨hholds, fun c hc => ?_, fun c => ?_, fun d hd => ?_⟩
  · by_cases hbc : b = c
    · exact hbc ▸ hb
    · rw [hother c hbc] at hc
      exact h.alive c hc
  · rw [List.filter_append, h.dealt]
    by_cases hbc : b = c
    · subst hbc
      simp [dealings, hu, hself, Dealing.block?]
    · rw [hother c hbc]
      simp [Dealing.block?, hbc]
  · have hcharged := chargedBytes_change (d := d) hsize hlt hother
    have hbefore : charge d (s.block b) = 0 := by
      simp [charge, hu, Memory.isBound]
    have hafter : charge d (s'.block b) =
        if (s.block b).device = d then (s.block b).size else 0 := by
      rw [hself]
      simp [charge, Memory.isBound, hpos]
    have hheld : (s'.device d).held = (s.device d).held +
        if (s.block b).device = d then (s.block b).size else 0 := by
      have hd' : d < s.devices.size := hdevices ▸ hd
      rw [hs', device_modifyBlock, device_modifyDevice]
      by_cases he : (s.block b).device = d
      · simp [he, hd', Store.owner]
      · simp [he]
    have hold : (s.device d).held = s.chargedBytes d := h.held d (hdevices ▸ hd)
    change (s'.device d).held = s'.chargedBytes d
    rw [hheld, hold, ← hafter]
    omega

/-- The ledger stays true. -/
theorem step {h h' : Holding} (ha : Accounted log h) (hs : Step h log' h') :
    Accounted (log ++ log') h' := by
  cases hs with
  | acquire s hs d n =>
    rw [List.append_nil]
    exact ha.acquire d n
  | retain s hb =>
    rw [List.append_nil]
    exact ha.retain hb
  | release s hs b => exact ha.release
  | bind hb hu h => exact ha.bind hb hu h
  | refuse hb h =>
    rw [(store_of_bindMemory_error h).2]
    exact (ha.modifyDevice _ rfl rfl).append rfl
  | write s hb hf =>
    rw [List.append_nil]
    exact ha.write _ hf
  | ask s hs d hr =>
    rw [List.append_nil]
    exact ha.modifyDevice d rfl rfl
  | tally s hs d =>
    rw [List.append_nil]
    exact ha.modifyDevice d rfl rfl
  | draw s hs d stream => exact (ha.modifyDevice d rfl rfl).append rfl
  | register s hs r =>
    rw [List.append_nil]
    exact ha.register r
  | perm s hp =>
    rw [List.append_nil]
    exact ha.perm hp

/-- The ledger is true at every point of a path. -/
theorem path {h h' : Holding} (ha : Accounted log h) (hp : Path h log' h') :
    Accounted (log ++ log') h' := by
  induction hp with
  | refl =>
    rw [List.append_nil]
    exact ha
  | step _ hs ih =>
    rw [← List.append_assoc]
    exact ih.step hs

/-- The dealings about a block are those that the state of its memory tells of. -/
theorem memory (h : Accounted log ⟨s, hs⟩) (b : BlockId) :
    let about := log.filter fun e => e.block? = some b
    match (s.block b).memory with
    | .unbound => about = []
    | .bound _ => about = [.granted b (s.block b).device (s.block b).size] ∧ b ∈ hs
    | .released => about = [.granted b (s.block b).device (s.block b).size,
        .returned b (s.block b).device (s.block b).size] ∧ b ∉ hs := by
  have hdealt : (log.filter fun e => e.block? = some b) = dealings b (s.block b) := h.dealt b
  have halive : (s.block b).memory.isBound = true → b ∈ hs := h.alive b
  have hreleased : (s.block b).memory = .released → b ∉ hs := h.holds.released b
  dsimp only
  unfold dealings at hdealt
  cases hm : (s.block b).memory with
  | unbound =>
    rw [hm] at hdealt
    exact hdealt
  | bound bytes =>
    rw [hm] at hdealt halive
    exact ⟨hdealt, halive rfl⟩
  | released =>
    rw [hm] at hdealt
    exact ⟨hdealt, hreleased hm⟩

/-- A device holds the bytes of its bound blocks that have a handle. -/
theorem held_eq (h : Accounted log ⟨s, hs⟩) {d : DeviceId} (hd : d < s.devices.size) :
    (s.device d).held = ∑ b ∈ Finset.range s.blocks.size with
      (s.block b).device = d ∧ (s.block b).memory.isBound = true ∧ b ∈ hs, (s.block b).size := by
  have hheld : (s.device d).held = s.chargedBytes d := h.held d hd
  rw [hheld, Finset.sum_filter]
  refine Finset.sum_congr rfl fun b hb => ?_
  have hcount : (s.block b).handles = hs.count b :=
    h.holds.handles b (Finset.mem_range.mp hb)
  unfold charge
  simp only [hcount, List.count_pos_iff]

end Accounted

end DeviceTensor.Store
