import DeviceTensor.Proofs.Session.Sound
import DeviceTensor.Proofs.Tensor.Making
set_option autoImplicit false

/-!
# How commands conduct themselves

Every command has a destination, the block whose bytes it may change, and at most one slot that it
fills.  `Session.Conduct` says that nothing else changes, however the command ends; that a command
that fails leaves all slots; that nothing shows of a late failure; and that a command whose operands
are denied has done nothing.  `Session.step_conduct` is the case of every command.
-/

namespace DeviceTensor

/-! ## Slots -/

namespace Slots

variable {α : Type} {slots : Slots α} {name other : String}

theorem get?_erase_of_ne (h : name ≠ other) : (slots.erase name).get? other = slots.get? other := by
  unfold erase get?
  dsimp only
  induction slots.entries with
  | nil => rfl
  | cons e entries ih =>
    by_cases he : e.1 = name
    · have hne : (other == e.1) = false := by
        rw [he]
        exact beq_eq_false_iff_ne.mpr h.symm
      rw [List.filter_cons_of_neg (by simp [he]), ih, List.lookup_cons, hne]
    · rw [List.filter_cons_of_pos (by simpa using he), List.lookup_cons, List.lookup_cons, ih]

theorem get?_put_of_ne (h : name ≠ other) (x : α) :
    (slots.put name x).get? other = slots.get? other := by
  have hne : (other == name) = false := beq_eq_false_iff_ne.mpr h.symm
  have herase : (slots.put name x).get? other = (slots.erase name).get? other := by
    unfold put get?
    rw [List.lookup_cons, hne]
  rw [herase, get?_erase_of_ne h]

end Slots

/-! ## Failures of commands -/

namespace Failure

/-- The failure is one of the faults that `P` names. -/
def Among (P : Fault → Prop) : Failure → Prop
  | .fault f => P f
  | .launch e => P (.launch e)
  | .device _ => False
  | .kernel _ => False

/-- The failure is late.  The refusal of a routine that was run itself is judged by its operation. -/
def Late (op? : Option Operation) : Failure → Prop
  | .fault f => f.Late
  | .launch e => (Fault.launch e).Late
  | .device _ => False
  | .kernel e => ∃ op, op? = some op ∧ e.OfParameters op

end Failure

/-- The failure that a reply reports. -/
def Reply.failure? : Reply → Option Failure
  | .failed e => some e
  | _ => none

/-- The reply is that a device refused memory. -/
def Reply.refusesMemory : Reply → Bool
  | .failed (.fault f) => f.refusesMemory
  | _ => false

theorem Reply.failure?_eq_some_iff {r : Reply} {e : Failure} :
    r.failure? = some e ↔ r = .failed e := by
  cases r <;> simp [failure?]

namespace Session

open DeviceTensor.Action

variable {σ σ' : Session} {op? : Option Operation} {denies : Fault → Prop}
  {dst : Option BlockId} {recv brecv : Option String} {α : Type}

/-! ## Conduct -/

/-- What may be different after a command that failed with `e`: it leaves all slots. -/
structure Aborted (op? : Option Operation) (denies : Fault → Prop) (e : Failure) (σ σ' : Session) :
    Prop where
  tensors : σ'.tensors = σ.tensors
  blocks : σ'.blocks = σ.blocks
  late : σ.store.registry.OnHost → e.Late op? → σ.store.Shows σ'.store
  denied : e.Among denies → σ.store.Spares σ'.store

/-- What may be different after a reply: the bytes of `dst`, the tensor in slot `recv` and the block
in slot `brecv`; less after a failure. -/
structure Conduct (op? : Option Operation) (denies : Fault → Prop) (dst : Option BlockId)
    (recv brecv : Option String) (σ : Session) (r : Reply × Session) : Prop where
  leaves : σ.store.Leaves dst r.2.store
  tensors : ∀ name, recv ≠ some name → r.2.tensors.get? name = σ.tensors.get? name
  blocks : ∀ name, brecv ≠ some name → r.2.blocks.get? name = σ.blocks.get? name
  failed : ∀ e, r.1 = .failed e → Aborted op? denies e σ r.2

theorem Aborted.refl (e : Failure) (σ : Session) : Aborted op? denies e σ σ :=
  ⟨rfl, rfl, fun _ _ => .refl _, fun _ => .refl _⟩

/-- A reply without a change. -/
theorem Conduct.refl (reply : Reply) (σ : Session) :
    Conduct op? denies dst recv brecv σ (reply, σ) :=
  ⟨.refl _, fun _ _ => rfl, fun _ _ => rfl, fun e _ => .refl e σ⟩

/-- What comes after an action that succeeded: a reply that is no failure, and no other change than
that of the slots. -/
structure Ensues (recv brecv : Option String) (σ : Session) (r : Reply × Session) : Prop where
  succeeds : ∀ e, r.1 ≠ .failed e
  leaves : σ.store.Leaves none r.2.store
  tensors : ∀ name, recv ≠ some name → r.2.tensors.get? name = σ.tensors.get? name
  blocks : ∀ name, brecv ≠ some name → r.2.blocks.get? name = σ.blocks.get? name

theorem Ensues.conduct {r : Reply × Session} (h : Ensues recv brecv σ r) :
    Conduct op? denies dst recv brecv σ r :=
  ⟨h.leaves.widen, h.tensors, h.blocks, fun e he => absurd he (h.succeeds e)⟩

theorem Ensues.reply {reply : Reply} (h : ∀ e, reply ≠ .failed e) (σ : Session) :
    Ensues recv brecv σ (reply, σ) :=
  ⟨h, .refl _, fun _ _ => rfl, fun _ _ => rfl⟩

/-! ## Slots that are filled and emptied -/

theorem dropTensor_ensues (reply : Reply) (h : ∀ e, reply ≠ .failed e) (name : String)
    (σ : Session) : Ensues (some name) brecv σ (reply, σ.dropTensor name) := by
  refine ⟨h, ?_, fun other hne => ?_, fun _ _ => ?_⟩ <;> unfold dropTensor <;> split
  · exact Tensor.leaves_release _ _
  · exact .refl _
  · exact Slots.get?_erase_of_ne fun heq => hne (congrArg some heq)
  · rfl
  · rfl
  · rfl

theorem dropBlock_ensues (reply : Reply) (h : ∀ e, reply ≠ .failed e) (name : String)
    (σ : Session) : Ensues recv (some name) σ (reply, σ.dropBlock name) := by
  refine ⟨h, ?_, fun _ _ => ?_, fun other hne => ?_⟩ <;> unfold dropBlock <;> split
  · exact .release _ _
  · exact .refl _
  · rfl
  · rfl
  · exact Slots.get?_erase_of_ne fun heq => hne (congrArg some heq)
  · rfl

theorem keepTensor_ensues (name : String) (t : Tensor) (σ : Session) :
    Ensues (some name) brecv σ (keepTensor name t σ) := by
  have hd : Ensues (some name) brecv σ (.accepted, σ.dropTensor name) :=
    dropTensor_ensues _ (fun _ => Reply.noConfusion) name σ
  refine ⟨fun _ => Reply.noConfusion, hd.leaves, fun other hne => ?_, hd.blocks⟩
  have hput : ((σ.dropTensor name).tensors.put name t).get? other =
      (σ.dropTensor name).tensors.get? other :=
    Slots.get?_put_of_ne (fun heq => hne (congrArg some heq)) t
  exact hput.trans (hd.tensors other hne)

theorem keepBlock_ensues (name : String) (b : BlockId) (σ : Session) :
    Ensues recv (some name) σ (keepBlock name b σ) := by
  have hd : Ensues recv (some name) σ (.accepted, σ.dropBlock name) :=
    dropBlock_ensues _ (fun _ => Reply.noConfusion) name σ
  refine ⟨fun _ => Reply.noConfusion, hd.leaves, hd.tensors, fun other hne => ?_⟩
  have hput : ((σ.dropBlock name).blocks.put name b).get? other =
      (σ.dropBlock name).blocks.get? other :=
    Slots.get?_put_of_ne (fun heq => hne (congrArg some heq)) b
  exact hput.trans (hd.blocks other hne)

theorem reportTensor_ensues (t : Tensor) (σ : Session) :
    Ensues recv brecv σ (reportTensor t σ) :=
  .reply (fun _ => Reply.noConfusion) σ

theorem reportBlock_ensues (b : BlockId) (σ : Session) : Ensues recv brecv σ (reportBlock b σ) :=
  .reply (fun _ => Reply.noConfusion) σ

/-! ## Running actions -/

/-- What comes after steps that leave the other blocks. -/
theorem Ensues.after {s : Store} {r : Reply × Session}
    (h : Ensues recv brecv { σ with store := s } r) (hs : σ.store.Leaves dst s) :
    Conduct op? denies dst recv brecv σ r :=
  ⟨hs.trans h.leaves.widen, h.tensors, h.blocks, fun e hf => absurd hf (h.succeeds e)⟩

/-- An action that is confined, and what comes after it. -/
theorem perform_conduct {x : Action Fault α} {next : α → Session → Reply × Session}
    (hx : x.Confined denies dst σ.store) (hn : ∀ a σ, Ensues recv brecv σ (next a σ)) :
    Conduct op? denies dst recv brecv σ (perform x next σ) := by
  unfold Confined Ends at hx
  unfold perform
  cases h : x σ.store with
  | mk r s =>
    rw [h] at hx
    cases r with
    | ok a => exact (hn a { σ with store := s }).after hx
    | error f =>
      refine ⟨hx.leaves, fun _ _ => rfl, fun _ _ => rfl, fun e he => ?_⟩
      cases he
      exact ⟨rfl, rfl, hx.late, hx.denied⟩

theorem makeTensor_conduct {x : Action Fault Tensor} (hx : x.Confined denies none σ.store)
    (name : String) :
    Conduct op? denies none (some name) none σ (makeTensor name x σ) :=
  perform_conduct hx (keepTensor_ensues name)

theorem withTensor_conduct {name : String} {next : Tensor → Session → Reply × Session}
    (hn : ∀ t, σ.tensors.get? name = some t → Conduct op? denies dst recv brecv σ (next t σ)) :
    Conduct op? denies dst recv brecv σ (withTensor name next σ) := by
  unfold withTensor
  split
  · rename_i t ht
    exact hn t ht
  · exact .refl _ σ

theorem withBlock_conduct {name : String} {next : BlockId → Session → Reply × Session}
    (hn : ∀ b, σ.blocks.get? name = some b → Conduct op? denies dst recv brecv σ (next b σ)) :
    Conduct op? denies dst recv brecv σ (withBlock name next σ) := by
  unfold withBlock
  split
  · rename_i b hb
    exact hn b hb
  · exact .refl _ σ

/-- Work on the block that a name stands for. -/
theorem onBlock_conduct {name : String} {next : BlockId → Session → Reply × Session}
    (hn : ∀ b, Conduct op? denies (some b) recv brecv σ (next b σ)) :
    Conduct op? denies (σ.blocks.get? name) recv brecv σ (withBlock name next σ) := by
  refine withBlock_conduct fun b hb => ?_
  rw [hb]
  exact hn b

theorem onDeviceNamed_conduct {name : String} {next : DeviceId → Session → Reply × Session}
    (hn : ∀ d, Conduct op? denies dst recv brecv σ (next d σ)) :
    Conduct op? denies dst recv brecv σ (onDeviceNamed name next σ) := by
  unfold onDeviceNamed
  split
  · exact hn _
  · exact .refl _ σ

theorem changeTensor_conduct {name : String} {x : Tensor → Action Fault Tensor}
    (hx : ∀ t, σ.tensors.get? name = some t → (x t).Confined denies dst σ.store) :
    Conduct op? denies dst (some name) none σ (changeTensor name x σ) := by
  refine withTensor_conduct fun t ht => perform_conduct (hx t ht) fun u τ => ?_
  refine ⟨fun _ => Reply.noConfusion, .refl _, fun other hne => ?_, fun _ _ => rfl⟩
  exact Slots.get?_put_of_ne (fun heq => hne (congrArg some heq)) u

/-- The block of the tensor that a name stands for. -/
def tensorBlock? (σ : Session) (name : String) : Option BlockId :=
  (σ.tensors.get? name).bind Tensor.block

theorem workOn_conduct {name : String} {x : Tensor → Action Fault Unit}
    (hx : ∀ t, σ.tensors.get? name = some t → (x t).Confined denies t.block σ.store) :
    Conduct op? denies (σ.tensorBlock? name) none none σ (workOn name x σ) := by
  refine withTensor_conduct fun t ht => ?_
  have hblock : σ.tensorBlock? name = t.block := by
    unfold tensorBlock?
    rw [ht]
    rfl
  rw [hblock]
  exact perform_conduct (hx t ht) fun _ => reportTensor_ensues t

theorem ask_conduct {name : String} {x : Tensor → Action Fault α} {answer : α → Reply}
    (hx : ∀ t, σ.tensors.get? name = some t → (x t).Confined denies none σ.store)
    (ha : ∀ a e, answer a ≠ .failed e) :
    Conduct op? denies none none none σ (ask name x answer σ) :=
  withTensor_conduct fun t ht => perform_conduct (hx t ht) fun a σ => .reply (ha a) σ

/-- The block that a computation writes: that of an existing tensor, or a new one. -/
def targetBlock? (σ : Session) (out : Target) : Option BlockId :=
  if out.existing then σ.tensorBlock? out.name else none

theorem compute_conduct {out : Target} {make : Action Fault Tensor}
    {into : Tensor → Action Fault Unit} (hm : make.Confined denies none σ.store)
    (hi : ∀ t, (into t).Confined denies t.block σ.store) :
    Conduct op? denies (σ.targetBlock? out) (if out.existing then none else some out.name) none σ
      (compute out make into σ) := by
  unfold compute targetBlock?
  by_cases h : out.existing
  · rw [if_pos h, if_pos h, if_pos h]
    exact workOn_conduct fun t _ => hi t
  · rw [if_neg h, if_neg h, if_neg h]
    exact makeTensor_conduct hm out.name

theorem withRhs_conduct {rhs : Rhs} {next : Tensor.RightSide → Session → Reply × Session}
    (hn : ∀ r, Conduct op? denies dst recv brecv σ (next r σ)) :
    Conduct op? denies dst recv brecv σ (withRhs rhs next σ) := by
  cases rhs with
  | number x => exact hn (.scalar x)
  | named name => exact withTensor_conduct fun t _ => hn (.tensor t)

/-! ## Launches and registrations -/

theorem runDirect_conduct {op : Operation} (dtype : ElemType) (inv : Invocation) (σ : Session) :
    Conduct (some op) Fault.Rejects (some inv.output) none none σ
      (runDirect (.onDevice dtype op inv.device σ.store) inv inv.output σ) := by
  unfold runDirect
  cases hget : σ.store.registry.lookup (.onDevice dtype op inv.device σ.store) with
  | error e => exact .refl _ σ
  | ok routine =>
    have hserves (ho : σ.store.registry.OnHost) :
        routine.Serves (.onDevice dtype op inv.device σ.store) := by
      unfold Registry.lookup at hget
      split at hget
      · rename_i hsome
        cases hget
        exact ho _ _ hsome
      · cases hget
    have hrun := routine.run_ends inv σ.store
    unfold Ends at hrun
    dsimp only
    cases hx : routine.run inv σ.store with
    | mk r s =>
      rw [hx] at hrun
      cases r with
      | ok u => exact (reportBlock_ensues inv.output { σ with store := s }).after hrun
      | error f =>
        obtain ⟨hleaves, hlate, hf⟩ := hrun
        refine ⟨hleaves, fun _ _ => rfl, fun _ _ => rfl, fun e he => ?_⟩
        cases he
        refine ⟨rfl, rfl, fun ho hl => hlate _ (hserves ho) ?_, fun hd => ?_⟩
        · cases f with
          | fault f => exact hl
          | refused r =>
            obtain ⟨op', hop, hl⟩ := hl
            cases hop
            exact hl
        · cases f with
          | fault f => exact absurd hd hf
          | refused r => exact hd.elim

theorem runLaunch_conduct (call : NamedInvocation) (σ : Session) :
    Conduct (some call.op) Fault.Rejects (σ.blocks.get? call.output) none none σ
      (runLaunch call σ) := by
  refine onDeviceNamed_conduct fun d => onBlock_conduct fun b => ?_
  split
  · exact .refl _ σ
  · rename_i inputs _
    dsimp only
    split
    · exact runDirect_conduct call.dtype ⟨d, inputs, b, _, _, _, _, _⟩ σ
    · exact perform_conduct (launch_confined _ _ _ _) fun _ => reportBlock_ensues b

/-- A registration changes the registry and nothing else. -/
theorem registerRoutine_ensues (f : Registry Routine → Registry Routine) (σ : Session) :
    Ensues recv brecv σ (registerRoutine f σ) :=
  ⟨fun _ => Reply.noConfusion, ⟨Nat.le_refl _, fun _ h => h, fun _ _ _ _ => rfl⟩, fun _ _ => rfl,
    fun _ _ => rfl⟩

/-! ## Questions about elements -/

/-- A tensor that is read as what it is denies nothing, and shows nothing. -/
theorem numbers_ends {t : Tensor} {s : Store} (hv : t.Valid s) :
    (numbers t).Ends s (fun _ s' => s.Leaves none s' ∧ s.Shows s' ∧ s.Extends s')
      (fun f s' => s.Aborts Fault.Denies none f s' ∧ ¬f.Denies) := by
  have hkind : t.checkElementType t.dtype = .ok () := by
    unfold Tensor.checkElementType
    rw [if_pos rfl]
  have hstill : (t.read t.dtype).Within s.StillShows := Tensor.read_shows t t.dtype
  unfold numbers
  rw [ends_bind]
  refine ((Tensor.read_ends hv hkind).and (hstill.ends s)).mono (fun xs u hu => ?_) fun f u hu => hu.1
  have hshows := hu.2 (.refl s)
  exact ⟨hu.1, hshows, hshows.toExtends⟩

theorem numbers_confined {t : Tensor} {s : Store} (hv : t.Valid s) :
    (numbers t).Confined Fault.Denies none s :=
  (numbers_ends hv).mono (fun _ _ h => h.1) fun _ _ h => h.1

theorem sameElements_confined {a b : Tensor} {s : Store} (ha : a.Valid s) (hb : b.Valid s) :
    (do return sameNumbers (← numbers a) (← numbers b) : Action Fault Bool).Confined
      Fault.Denies none s := by
  unfold Confined
  rw [ends_bind]
  refine (numbers_ends ha).mono ?_ fun _ _ h => h.1
  rintro xs u ⟨hl, hs, he⟩
  rw [ends_bind]
  refine (numbers_ends (hb.mono he)).mono (fun _ v hv => hl.trans hv.1) fun f v hv => ?_
  exact hv.1.after hs hl fun hd => absurd hd hv.2

end Session

/-! ## Commands -/

namespace Command

/-- The block whose bytes the command may change. -/
def destination? (σ : Session) : Command → Option BlockId
  | .convert t _ => (σ.tensors.get? t).bind (·.soleBlock σ.store)
  | .fill t _ => σ.tensorBlock? t
  | .upload t _ _ _ => σ.tensorBlock? t
  | .copyFrom t _ => σ.tensorBlock? t
  | .copyRange t _ _ _ _ => σ.tensorBlock? t
  | .random t _ => σ.tensorBlock? t
  | .assign _ t _ _ => σ.tensorBlock? t
  | .broadcast _ _ _ _ m => σ.tensorBlock? m
  | .addScaled _ _ out => σ.tensorBlock? out
  | .productScaled _ _ _ _ c => σ.tensorBlock? c
  | .map _ _ _ out => σ.targetBlock? out
  | .zip _ _ _ out => σ.targetBlock? out
  | .sums _ _ out => σ.targetBlock? out
  | .sumAxis _ _ out => σ.targetBlock? out
  | .softmax _ _ out => σ.targetBlock? out
  | .product _ _ out => σ.targetBlock? out
  | .writeBlock b _ _ => σ.blocks.get? b
  | .copyBlock dst _ _ _ _ => σ.blocks.get? dst
  | .launch call => σ.blocks.get? call.output
  | _ => none

/-- The slot of the tensor that the command makes, changes or lets go of. -/
def receiver? : Command → Option String
  | .create out _ _ _ => some out
  | .createEmpty out => some out
  | .ofElements out _ _ _ => some out
  | .share _ out => some out
  | .duplicate _ out => some out
  | .transpose _ out => some out
  | .reshaped _ out _ => some out
  | .drop t => some t
  | .reshape t _ => some t
  | .resize t _ => some t
  | .takeForm t _ => some t
  | .convert t _ => some t
  | .moveTo t _ => some t
  | .map _ _ _ out => if out.existing then none else some out.name
  | .zip _ _ _ out => if out.existing then none else some out.name
  | .sums _ _ out => if out.existing then none else some out.name
  | .sumAxis _ _ out => if out.existing then none else some out.name
  | .softmax _ _ out => if out.existing then none else some out.name
  | .product _ _ out => if out.existing then none else some out.name
  | .average _ _ out => some out
  | .operate _ _ _ out => some out
  | _ => none

/-- The slot of the block that the command makes or lets go of. -/
def blockReceiver? : Command → Option String
  | .newBlock out _ _ => some out
  | .blockOf _ out => some out
  | .shareBlock _ out => some out
  | .dropBlock b => some b
  | _ => none

/-- The operation that the command runs by itself. -/
def launched? : Command → Option Operation
  | .launch call => some call.op
  | _ => none

/-- The faults by which the command rejects its operands.  Where no routine is at work, a trap is
one; a mean that lacks the routine for its second launch has made its first. -/
def Denies : Command → Fault → Prop
  | .average _ _ _ => Tensor.RejectsMean
  | .convert _ _ => Fault.Rejects
  | .fill _ _ => Fault.Rejects
  | .norm _ => Fault.Rejects
  | .sum _ _ => Fault.Rejects
  | .map _ _ _ _ => Fault.Rejects
  | .zip _ _ _ _ => Fault.Rejects
  | .sums _ _ _ => Fault.Rejects
  | .sumAxis _ _ _ => Fault.Rejects
  | .softmax _ _ _ => Fault.Rejects
  | .product _ _ _ => Fault.Rejects
  | .operate _ _ _ _ => Fault.Rejects
  | .assign _ _ _ _ => Fault.Rejects
  | .broadcast _ _ _ _ _ => Fault.Rejects
  | .addScaled _ _ _ => Fault.Rejects
  | .productScaled _ _ _ _ _ => Fault.Rejects
  | .random _ _ => Fault.Rejects
  | .launch _ => Fault.Rejects
  | _ => Fault.Denies

/-- The command is one operation; only a chained assignment is two. -/
def Single : Command → Prop
  | .assign _ _ _ twice => twice = false
  | _ => True

end Command

namespace Session

open DeviceTensor.Action

variable {σ : Session} {P : Registry Routine → Prop}

/-- Every command conducts itself as its destination, its slots and its faults say. -/
theorem step_conduct (h : σ.Sound P []) (c : Command) (hc : c.Single) :
    Conduct c.launched? c.Denies (c.destination? σ) c.receiver? c.blockReceiver? σ (step c σ) := by
  have hvalid {name : String} {t : Tensor} (ht : σ.tensors.get? name = some t) :
      t.Valid σ.store := h.valid t (Slots.mem_of_get? ht)
  cases c with
  | create out shape device dtype =>
    refine onDeviceNamed_conduct fun d => makeTensor_conduct ?_ out
    refine (Tensor.onDevice_new shape d dtype σ.store).mono (fun _ _ ht => .of_spares ht.2) ?_
    rintro f _ rfl
    exact .refl _
  | createEmpty out => exact makeTensor_conduct (.pure _) out
  | ofElements out shape d xs => exact makeTensor_conduct (Tensor.ofElements_confined shape xs) out
  | share t out => exact withTensor_conduct fun t _ => makeTensor_conduct t.share_confined out
  | duplicate t out =>
    exact withTensor_conduct fun t _ => makeTensor_conduct t.duplicate_confined out
  | transpose t out =>
    exact withTensor_conduct fun t _ => makeTensor_conduct t.transpose_confined out
  | reshaped t out shape =>
    refine withTensor_conduct fun t ht => makeTensor_conduct ?_ out
    refine Tensor.reshaped_confined (fun b hb => ?_) shape
    refine h.holds.handles_pos (List.mem_append_right _ (held_subset h ht ?_))
    unfold Tensor.held
    rw [hb]
    exact List.mem_cons_self
  | drop t => exact (dropTensor_ensues _ (fun _ => Reply.noConfusion) t σ).conduct
  | reshape t shape => exact changeTensor_conduct fun t _ => t.reshape_confined shape
  | resize t shape => exact changeTensor_conduct fun t _ => t.resize_confined shape
  | takeForm t other =>
    exact withTensor_conduct fun other _ => changeTensor_conduct fun t _ => t.takeForm_confined other
  | convert t dtype =>
    refine changeTensor_conduct fun u hu => ?_
    have hdst : Command.destination? σ (.convert t dtype) = u.soleBlock σ.store :=
      congrArg (Option.bind · _) hu
    rw [hdst]
    exact u.convert_confined dtype
  | moveTo t device =>
    exact onDeviceNamed_conduct fun d => changeTensor_conduct fun t _ => t.moveTo_confined d
  | fill t x => exact workOn_conduct fun t _ => t.fill_confined x
  | upload t d xs offset =>
    exact workOn_conduct fun t ht => Tensor.upload_confined (hvalid ht) xs offset
  | copyFrom t other =>
    exact withTensor_conduct fun other _ => workOn_conduct fun t _ => t.copyFrom_confined other
  | copyRange t other count dstOffset srcOffset =>
    exact withTensor_conduct fun other _ =>
      workOn_conduct fun t _ => t.copyRange_confined other count dstOffset srcOffset
  | state t => exact withTensor_conduct fun t _ => (reportTensor_ensues t σ).conduct
  | read t dtype =>
    cases dtype with
    | none =>
      exact withTensor_conduct fun t ht =>
        perform_conduct (Tensor.read_confined (hvalid ht) _) fun _ σ =>
          .reply (fun _ => Reply.noConfusion) σ
    | some d =>
      exact ask_conduct (fun t ht => Tensor.read_confined (hvalid ht) d) fun _ _ =>
        Reply.noConfusion
  | dimension t i => exact ask_conduct (fun t _ => .still rfl) fun _ _ => Reply.noConfusion
  | norm t => exact ask_conduct (fun t _ => t.norm_confined) fun _ _ => Reply.noConfusion
  | sum t d => exact ask_conduct (fun t _ => t.sum_confined d) fun _ _ => Reply.noConfusion
  | describe t => exact ask_conduct (fun t _ => .still rfl) fun _ _ => Reply.noConfusion
  | sharing a b =>
    exact withTensor_conduct fun _ _ => withTensor_conduct fun _ _ => .refl _ σ
  | check a b =>
    exact withTensor_conduct fun a _ =>
      ask_conduct (fun b _ => .still rfl) fun _ _ => Reply.noConfusion
  | sameElements a b =>
    exact withTensor_conduct fun a ha => withTensor_conduct fun b hb =>
      perform_conduct (sameElements_confined (hvalid ha) (hvalid hb)) fun _ σ =>
        .reply (fun _ => Reply.noConfusion) σ
  | statistics t low high mean tolerance =>
    exact ask_conduct (fun t ht => numbers_confined (hvalid ht)) fun _ _ => Reply.noConfusion
  | map op t x out =>
    exact withTensor_conduct fun t _ => compute_conduct (t.map_confined op x) fun out =>
      (Computation.map op t x).into_confined out σ.store
  | zip op a b out =>
    exact withTensor_conduct fun a _ => withTensor_conduct fun b _ =>
      compute_conduct (a.zip_confined op b) fun out =>
        (Computation.zip op a b).into_confined out σ.store
  | sums which t out =>
    exact withTensor_conduct fun t _ => compute_conduct (t.sums_confined which) fun out =>
      (Computation.sums which t).into_confined out σ.store
  | sumAxis t axis out =>
    exact withTensor_conduct fun t _ => compute_conduct (t.sumAxis_confined axis) fun out =>
      (Computation.sumAxis t axis).into_confined out σ.store
  | average t axis out =>
    exact withTensor_conduct fun t _ => makeTensor_conduct (t.average_confined axis) out
  | softmax t axis out =>
    exact withTensor_conduct fun t _ => compute_conduct (t.softmax_confined axis) fun out =>
      (Computation.softmax t axis).into_confined out σ.store
  | product a b out =>
    exact withTensor_conduct fun a _ => withTensor_conduct fun b _ =>
      compute_conduct (a.product_confined b) fun out =>
        (Computation.product Double.one a b Double.zero).into_confined out σ.store
  | operate f a rhs out =>
    exact withTensor_conduct fun a _ => withRhs_conduct fun rhs =>
      makeTensor_conduct (a.operate_confined f rhs) out
  | assign f t rhs twice =>
    cases hc
    unfold step
    refine withRhs_conduct fun rhs => workOn_conduct fun t _ => ?_
    unfold Confined
    rw [ends_bind]
    exact t.assign_confined f rhs
  | broadcast op alpha beta v m =>
    exact withTensor_conduct fun v _ => workOn_conduct fun m _ =>
      (Computation.broadcast op alpha beta v).into_confined m σ.store
  | addScaled alpha t out =>
    exact withTensor_conduct fun t _ => workOn_conduct fun out _ =>
      (Computation.addScaled alpha t).into_confined out σ.store
  | productScaled alpha a b beta c =>
    exact withTensor_conduct fun a _ => withTensor_conduct fun b _ => workOn_conduct fun c _ =>
      (Computation.product alpha a b beta).into_confined c σ.store
  | random t D => exact workOn_conduct fun t _ => t.fillSamples_confined D
  | deviceInfo device => exact onDeviceNamed_conduct fun _ => .refl _ σ
  | synchronize device =>
    unfold step
    refine onDeviceNamed_conduct fun d => ?_
    dsimp only
    split
    · refine Ensues.conduct ?_
      exact ⟨fun _ => Reply.noConfusion, .modifyDevice σ.store d _, fun _ _ => rfl, fun _ _ => rfl⟩
    · refine ⟨.modifyDevice σ.store d _, fun _ _ => rfl, fun _ _ => rfl, fun e he => ?_⟩
      cases he
      exact ⟨rfl, rfl, fun _ => False.elim, False.elim⟩
  | reseed device seed =>
    unfold step
    refine onDeviceNamed_conduct fun d => Ensues.conduct ?_
    exact ⟨fun _ => Reply.noConfusion, .modifyDevice σ.store d _, fun _ _ => rfl, fun _ _ => rfl⟩
  | registerCatalog backend =>
    unfold step
    exact (registerRoutine_ensues (·.registerCatalog backend) σ).conduct
  | lookup key =>
    simp only [step]
    split <;> exact .refl _ σ
  | registerProbe key p =>
    unfold step
    exact (registerRoutine_ensues (·.register key (.probe p)) σ).conduct
  | newBlock out device size =>
    exact onDeviceNamed_conduct fun d => perform_conduct
      (Store.Leaves.of_spares (.acquire σ.store d size)) (keepBlock_ensues out)
  | blockOf t out =>
    refine withTensor_conduct fun t _ => ?_
    cases t.block with
    | none => exact .refl _ σ
    | some b => exact perform_conduct (t.leaves_retain σ.store) fun _ => keepBlock_ensues out b
  | shareBlock b out =>
    exact withBlock_conduct fun b _ => perform_conduct (Store.Leaves.retain σ.store b)
      fun _ => keepBlock_ensues out b
  | dropBlock b => exact (dropBlock_ensues _ (fun _ => Reply.noConfusion) b σ).conduct
  | blockState b => exact withBlock_conduct fun b _ => (reportBlock_ensues b σ).conduct
  | bindBlock b =>
    exact withBlock_conduct fun b _ =>
      perform_conduct (Block.bindMemory_confined b σ.store) fun _ => reportBlock_ensues b
  | writeBlock b d xs =>
    exact onBlock_conduct fun b =>
      perform_conduct (Block.write_confined b xs σ.store) fun _ => reportBlock_ensues b
  | readBlock b d count =>
    exact withBlock_conduct fun b _ =>
      perform_conduct (Block.view_confined b d count σ.store) fun _ σ =>
        .reply (fun _ => Reply.noConfusion) σ
  | sameBlock a b => exact withBlock_conduct fun _ _ => withBlock_conduct fun _ _ => .refl _ σ
  | copyBlock dst dstOffset src srcOffset size =>
    exact onBlock_conduct fun b => withBlock_conduct fun c _ =>
      perform_conduct (Block.copy_confined ⟨b, dstOffset⟩ ⟨c, srcOffset⟩ size σ.store)
        fun _ => reportBlock_ensues b
  | launch call => exact runLaunch_conduct call σ

end Session

end DeviceTensor
