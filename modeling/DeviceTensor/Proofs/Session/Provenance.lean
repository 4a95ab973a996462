import DeviceTensor.Proofs.Session.Frame
import DeviceTensor.Proofs.Tensor.Provenance
set_option autoImplicit false

/-!
# Where the blocks in slots come from

Every command fills at most one slot, `Command.filled?`, and its name alone says where the block comes
from that the slot holds afterwards, `Command.origin`: it was made for the slot, it is the block of
another slot, or the slot had it before.  `Session.step_refills` is the case of every command, and a
command that was not done leaves all slots.
-/

namespace DeviceTensor

/-! ## Slots -/

/-- A slot of a session, for a tensor or for a block. -/
inductive Slot where
  | tensor (name : String)
  | block (name : String)
  deriving DecidableEq, Repr

/-- The block in a slot. -/
def Session.block? (σ : Session) : Slot → Option BlockId
  | .tensor name => σ.tensorBlock? name
  | .block name => σ.blocks.get? name

namespace Slots

variable {α : Type} {slots : Slots α} {x : α}

theorem get?_erase_self (slots : Slots α) (name : String) : (slots.erase name).get? name = none := by
  refine List.lookup_eq_none_iff.mpr fun e he => ?_
  have hne : e.1 ≠ name := by simpa using (List.mem_filter.mp he).2
  exact bne_iff_ne.mpr hne.symm

/-- What has a name can be found by one. -/
theorem Unique.exists_get? (h : slots.Unique) (hx : x ∈ slots.values) :
    ∃ name, slots.get? name = some x := by
  obtain ⟨e, he, rfl⟩ := List.mem_map.mp hx
  obtain ⟨l₁, l₂, heq⟩ := List.append_of_mem he
  refine ⟨e.1, List.lookup_eq_some_iff.mpr ⟨l₁, l₂, heq, fun e' he' => ?_⟩⟩
  have hnodup : ((l₁ ++ e :: l₂).map (·.1)).Nodup := heq ▸ h
  rw [List.map_append, List.map_cons, List.nodup_append] at hnodup
  have hne : e'.1 ≠ e.1 := hnodup.2.2 e'.1 (List.mem_map_of_mem he') e.1 List.mem_cons_self
  exact bne_iff_ne.mpr hne.symm

end Slots

/-! ## Origins -/

/-- Where the block of a slot comes from that a command has filled. -/
inductive Origin where
  /-- It was made for the slot. -/
  | made
  /-- It is the block of another slot. -/
  | viewOf (src : Slot)
  /-- It was made for the slot, if the other slot has a block to copy. -/
  | copyOf (src : Slot)
  /-- The slot had it before, or it was made in place of that one. -/
  | kept
  /-- There is none. -/
  | nowhere
  deriving DecidableEq, Repr

namespace Command

/-- The slot that the command fills or empties. -/
def filled? (c : Command) : Option Slot :=
  match c.receiver? with
  | some name => some (.tensor name)
  | none => c.blockReceiver?.map .block

/-- Where the block comes from in the slot that the command fills. -/
def origin : Command → Origin
  | .create _ _ _ _ => .made
  | .createEmpty _ => .nowhere
  | .ofElements _ _ _ _ => .made
  | .share t _ => .viewOf (.tensor t)
  | .duplicate t _ => .copyOf (.tensor t)
  | .transpose t _ => .viewOf (.tensor t)
  | .reshaped t _ _ => .viewOf (.tensor t)
  | .drop _ => .nowhere
  | .map _ _ _ _ => .made
  | .zip _ _ _ _ => .made
  | .sums _ _ _ => .made
  | .sumAxis _ _ _ => .made
  | .average _ _ _ => .made
  | .softmax _ _ _ => .made
  | .product _ _ _ => .made
  | .operate _ _ _ _ => .made
  | .newBlock _ _ _ => .made
  | .blockOf t _ => .viewOf (.tensor t)
  | .shareBlock b _ => .viewOf (.block b)
  | .dropBlock _ => .nowhere
  | _ => .kept

theorem filled?_of_receiver? {c : Command} {name : String} (h : c.receiver? = some name) :
    c.filled? = some (.tensor name) := by
  unfold filled?
  rw [h]

theorem filled?_of_blockReceiver? {c : Command} {name : String} (h : c.blockReceiver? = some name) :
    c.filled? = some (.block name) := by
  cases c with
  | newBlock out device size => exact congrArg (Option.map Slot.block) h
  | blockOf t out => exact congrArg (Option.map Slot.block) h
  | shareBlock b out => exact congrArg (Option.map Slot.block) h
  | dropBlock b => exact congrArg (Option.map Slot.block) h
  | _ => cases h

end Command

/-- The origin explains what slot `w` holds after a command on `σ`; the block of a view may be new
only if its source has none. -/
def Origin.Explains (σ : Session) (w : Slot) : Origin → Option BlockId → Prop
  | .made, o => o = some σ.store.blocks.size
  | .viewOf src, o => o = σ.block? src ∨ σ.block? src = none ∧ o = some σ.store.blocks.size
  | .copyOf src, o => o = (σ.block? src).map fun _ => σ.store.blocks.size
  | .kept, o => o = σ.block? w ∨ o = none ∨ o = some σ.store.blocks.size
  | .nowhere, o => o = none

/-- The command did what it was asked for. -/
def Reply.done : Reply → Bool
  | .failed _ => false
  | .badRequest => false
  | .noBlock => false
  | _ => true

namespace Session

open DeviceTensor.Action

variable {σ : Session} {w : Slot} {P : Option BlockId → Prop} {α : Type}

/-! ## Slots that are filled -/

/-- A command that was done has filled slot `w` with what `P` admits; else the slot is as it was. -/
def Refills (w : Slot) (P : Option BlockId → Prop) (σ : Session) (r : Reply × Session) : Prop :=
  if r.1.done then P (r.2.block? w) else r.2.block? w = σ.block? w

theorem tensorBlock?_of_get? {name : String} {t : Tensor} (h : σ.tensors.get? name = some t) :
    σ.block? (.tensor name) = t.block := by
  change (σ.tensors.get? name).bind Tensor.block = t.block
  rw [h]
  rfl

theorem perform_refills {x : Action Fault α} {next : α → Session → Reply × Session}
    (h : x.Ends σ.store (fun a s => Refills w P σ (next a { σ with store := s })) fun _ _ => True) :
    Refills w P σ (perform x next σ) := by
  unfold perform
  cases hx : x σ.store with
  | mk r s =>
    cases r with
    | ok a => exact h.ok hx
    | error f => rfl

/-- A tensor goes into a slot. -/
theorem keepTensor_refills {s : Store} {t : Tensor} (name : String) (h : P t.block) :
    Refills (.tensor name) P σ (keepTensor name t { σ with store := s }) := by
  have hget : (keepTensor name t { σ with store := s }).2.tensors.get? name = some t :=
    Slots.get?_put_self _ name t
  have hblock := tensorBlock?_of_get? hget
  unfold Refills
  rw [hblock]
  exact h

/-- A block goes into a slot. -/
theorem keepBlock_refills {s : Store} {b : BlockId} (name : String) (h : P (some b)) :
    Refills (.block name) P σ (keepBlock name b { σ with store := s }) := by
  have hget : (keepBlock name b { σ with store := s }).2.blocks.get? name = some b :=
    Slots.get?_put_self _ name b
  have hblock : (keepBlock name b { σ with store := s }).2.block? (.block name) = some b := hget
  unfold Refills
  rw [hblock]
  exact h

theorem makeTensor_refills {x : Action Fault Tensor} (h : Tensor.Lands x σ.store P) (name : String) :
    Refills (.tensor name) P σ (makeTensor name x σ) :=
  perform_refills (h.mono (fun _ _ ht => keepTensor_refills name ht) fun _ _ h => h)

theorem withTensor_refills {name : String} {next : Tensor → Session → Reply × Session}
    (hn : ∀ t, σ.tensors.get? name = some t → Refills w P σ (next t σ)) :
    Refills w P σ (withTensor name next σ) := by
  unfold withTensor
  split
  · rename_i t ht
    exact hn t ht
  · rfl

theorem withBlock_refills {name : String} {next : BlockId → Session → Reply × Session}
    (hn : ∀ b, σ.blocks.get? name = some b → Refills w P σ (next b σ)) :
    Refills w P σ (withBlock name next σ) := by
  unfold withBlock
  split
  · rename_i b hb
    exact hn b hb
  · rfl

theorem onDeviceNamed_refills {name : String} {next : DeviceId → Session → Reply × Session}
    (hn : ∀ d, Refills w P σ (next d σ)) : Refills w P σ (onDeviceNamed name next σ) := by
  unfold onDeviceNamed
  split
  · exact hn _
  · rfl

theorem withRhs_refills {rhs : Rhs} {next : Tensor.RightSide → Session → Reply × Session}
    (hn : ∀ r, Refills w P σ (next r σ)) : Refills w P σ (withRhs rhs next σ) := by
  cases rhs with
  | number x => exact hn (.scalar x)
  | named name => exact withTensor_refills fun t _ => hn (.tensor t)

theorem changeTensor_refills {name : String} {x : Tensor → Action Fault Tensor}
    (h : ∀ t, σ.tensors.get? name = some t → Tensor.Lands (x t) σ.store P) :
    Refills (.tensor name) P σ (changeTensor name x σ) := by
  refine withTensor_refills fun t ht => perform_refills ((h t ht).mono (fun u s hu => ?_) fun _ _ h => h)
  have hget : (σ.tensors.put name u).get? name = some u := Slots.get?_put_self _ name u
  have hblock := tensorBlock?_of_get?
    (σ := { σ with store := s, tensors := σ.tensors.put name u }) hget
  unfold Refills reportTensor
  rw [hblock]
  exact hu

/-- A computation whose result goes into a slot. -/
theorem compute_refills {out : Target} (hout : out.existing = false) {make : Action Fault Tensor}
    {into : Tensor → Action Fault Unit} (h : Tensor.Lands make σ.store P) :
    Refills (.tensor out.name) P σ (compute out make into σ) := by
  unfold compute
  rw [if_neg (Bool.eq_false_iff.mp hout)]
  exact makeTensor_refills h out.name

/-! ## Commands -/

/-- A command with a target fills the slot of the target, or none. -/
theorem slot_of_target {c : Command} {out : Target}
    (hreceiver : c.receiver? = if out.existing then none else some out.name)
    (hblock : c.blockReceiver? = none) (hw : c.filled? = some w) :
    out.existing = false ∧ Slot.tensor out.name = w := by
  unfold Command.filled? at hw
  rw [hreceiver, hblock] at hw
  cases hout : out.existing with
  | true =>
    rw [hout] at hw
    cases hw
  | false =>
    rw [hout] at hw
    exact ⟨rfl, Option.some.inj hw⟩

theorem dropTensor_empties (name : String) (σ : Session) :
    (σ.dropTensor name).block? (.tensor name) = none := by
  have hget : (σ.dropTensor name).tensors.get? name = none := by
    rw [← erase_dropTensor]
    exact Slots.get?_erase_self _ name
  change ((σ.dropTensor name).tensors.get? name).bind Tensor.block = none
  rw [hget]
  rfl

theorem dropBlock_empties (name : String) (σ : Session) :
    (σ.dropBlock name).block? (.block name) = none := by
  change (σ.dropBlock name).blocks.get? name = none
  rw [← erase_dropBlock]
  exact Slots.get?_erase_self _ name

/-- A view of the tensor that a name stands for. -/
theorem view_refills {name out : String} {x : Tensor → Action Fault Tensor}
    (h : ∀ t, Tensor.Lands (x t) σ.store fun o =>
      o = t.block ∨ t.block = none ∧ o = some σ.store.blocks.size) :
    Refills (.tensor out) (Origin.Explains σ (.tensor out) (.viewOf (.tensor name))) σ
      (withTensor name (fun t => makeTensor out (x t)) σ) := by
  refine withTensor_refills fun t ht => makeTensor_refills ((h t).mono (fun u _ hu => ?_) ?_) out
  · rw [← tensorBlock?_of_get? ht] at hu
    exact hu
  · exact fun _ _ h => h

/-- A change of the tensor that a name stands for. -/
theorem kept_refills {name : String} {x : Tensor → Action Fault Tensor}
    (h : ∀ t, Tensor.Lands (x t) σ.store (t.StaysOrMoves σ.store)) :
    Refills (.tensor name) (Origin.Explains σ (.tensor name) .kept) σ (changeTensor name x σ) := by
  refine changeTensor_refills fun t ht => (h t).mono (fun u _ hu => ?_) fun _ _ h => h
  unfold Tensor.StaysOrMoves at hu
  rw [← tensorBlock?_of_get? ht] at hu
  exact hu

/-- A command that was done has filled its slot as its origin says; else the slot is as it was. -/
theorem step_refills (c : Command) (σ : Session) (hw : c.filled? = some w) :
    Refills w (c.origin.Explains σ w) σ (step c σ) := by
  cases c with
  | create out shape device dtype =>
    cases hw
    exact onDeviceNamed_refills fun d =>
      makeTensor_refills (Tensor.onDevice_lands shape d dtype) out
  | createEmpty out =>
    cases hw
    have hempty : Tensor.Lands (Pure.pure .empty) σ.store (· = none) := rfl
    exact makeTensor_refills hempty out
  | ofElements out shape d xs =>
    cases hw
    exact makeTensor_refills (Tensor.ofElements_lands shape xs) out
  | share t out =>
    cases hw
    exact view_refills fun t => t.share_lands.mono (fun _ _ h => .inl h) fun _ _ h => h
  | duplicate t out =>
    cases hw
    refine withTensor_refills fun t ht =>
      makeTensor_refills (t.duplicate_lands.mono (fun u _ hu => ?_) fun _ _ h => h) out
    rw [← tensorBlock?_of_get? ht] at hu
    exact hu
  | transpose t out =>
    cases hw
    exact view_refills fun t => t.transpose_lands.mono (fun _ _ h => .inl h) fun _ _ h => h
  | reshaped t out shape =>
    cases hw
    exact view_refills fun t => t.reshaped_lands shape
  | drop t =>
    cases hw
    exact dropTensor_empties t σ
  | reshape t shape =>
    cases hw
    exact kept_refills fun t => (t.reshape_lands shape).mono
      (fun _ _ h => h.imp_right fun h => .inr h.2) fun _ _ h => h
  | resize t shape =>
    cases hw
    exact kept_refills fun t => (t.resize_lands shape).mono (fun _ _ h => h.imp_right .inr)
      fun _ _ h => h
  | takeForm t other =>
    cases hw
    exact withTensor_refills fun other _ => kept_refills fun t => t.takeForm_lands other
  | convert t dtype =>
    cases hw
    exact kept_refills fun t => t.convert_lands dtype
  | moveTo t device =>
    cases hw
    exact onDeviceNamed_refills fun d => kept_refills fun t => t.moveTo_lands d
  | map op t x out =>
    obtain ⟨hout, rfl⟩ := slot_of_target rfl rfl hw
    exact withTensor_refills fun t _ => compute_refills hout (Tensor.map_lands op t x)
  | zip op a b out =>
    obtain ⟨hout, rfl⟩ := slot_of_target rfl rfl hw
    exact withTensor_refills fun a _ => withTensor_refills fun b _ =>
      compute_refills hout (Tensor.zip_lands op a b)
  | sums which t out =>
    obtain ⟨hout, rfl⟩ := slot_of_target rfl rfl hw
    exact withTensor_refills fun t _ => compute_refills hout (Tensor.sums_lands which t)
  | sumAxis t axis out =>
    obtain ⟨hout, rfl⟩ := slot_of_target rfl rfl hw
    exact withTensor_refills fun t _ => compute_refills hout (Tensor.sumAxis_lands t axis)
  | average t axis out =>
    cases hw
    exact withTensor_refills fun t _ => makeTensor_refills (Tensor.average_lands t axis) out
  | softmax t axis out =>
    obtain ⟨hout, rfl⟩ := slot_of_target rfl rfl hw
    exact withTensor_refills fun t _ => compute_refills hout (Tensor.softmax_lands t axis)
  | product a b out =>
    obtain ⟨hout, rfl⟩ := slot_of_target rfl rfl hw
    exact withTensor_refills fun a _ => withTensor_refills fun b _ =>
      compute_refills hout (Tensor.product_lands a b)
  | operate f a rhs out =>
    cases hw
    exact withTensor_refills fun a _ => withRhs_refills fun rhs =>
      makeTensor_refills (Tensor.operate_lands f a rhs) out
  | newBlock out device size =>
    cases hw
    exact onDeviceNamed_refills fun d => perform_refills (keepBlock_refills out rfl)
  | blockOf t out =>
    cases hw
    refine withTensor_refills fun t ht => ?_
    cases hb : t.block with
    | none => rfl
    | some b =>
      refine perform_refills (keepBlock_refills out (.inl ?_))
      rw [tensorBlock?_of_get? ht, hb]
  | shareBlock b out =>
    cases hw
    refine withBlock_refills fun b hb => perform_refills (keepBlock_refills out (.inl ?_))
    exact hb.symm
  | dropBlock b =>
    cases hw
    exact dropBlock_empties b σ
  | _ => cases hw

end Session

end DeviceTensor
