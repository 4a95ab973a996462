import DeviceTensor.Proofs.Session.Ownership
import DeviceTensor.Proofs.Session.Provenance
import DeviceTensor.Proofs.Tensor.Reading
set_option autoImplicit false

/-!
# Families of slots

A tensor, its clones and its views are a family of slots, and so are those that a program makes of them
later: `Session.lineage` follows a family through a program.  Two families that share no block are
`Session.Apart`, and whatever a program does and however its commands end, they stay apart:
`Session.run_apart`.  What is written through the slots of one of them leaves what the slots of the
other hold intact: `Session.run_isolates`.
-/

namespace DeviceTensor

/-! ## Writes -/

/-- The slot of a target, if the result is written into the tensor that the slot holds. -/
def Target.slot? (out : Target) : Option Slot :=
  if out.existing then some (.tensor out.name) else none

namespace Command

/-- The slot through which the command writes elements that were there before. -/
def writes? : Command → Option Slot
  | .convert t _ => some (.tensor t)
  | .fill t _ => some (.tensor t)
  | .upload t _ _ _ => some (.tensor t)
  | .copyFrom t _ => some (.tensor t)
  | .copyRange t _ _ _ _ => some (.tensor t)
  | .random t _ => some (.tensor t)
  | .assign _ t _ _ => some (.tensor t)
  | .broadcast _ _ _ _ m => some (.tensor m)
  | .addScaled _ _ out => some (.tensor out)
  | .productScaled _ _ _ _ c => some (.tensor c)
  | .map _ _ _ out => out.slot?
  | .zip _ _ _ out => out.slot?
  | .sums _ _ out => out.slot?
  | .sumAxis _ _ out => out.slot?
  | .softmax _ _ out => out.slot?
  | .product _ _ out => out.slot?
  | .writeBlock b _ _ => some (.block b)
  | .copyBlock dst _ _ _ _ => some (.block dst)
  | .launch call => some (.block call.output)
  | _ => none

variable {σ : Session} {b : BlockId}

theorem writes_target {out : Target} (h : σ.targetBlock? out = some b) :
    ∃ w, out.slot? = some w ∧ σ.block? w = some b := by
  unfold Session.targetBlock? at h
  unfold Target.slot?
  split at h
  · rename_i hexisting
    rw [if_pos hexisting]
    exact ⟨.tensor out.name, rfl, h⟩
  · cases h

/-- The destination of a command is the block in the slot that it writes through. -/
theorem writes?_of_destination? {c : Command} (h : c.destination? σ = some b) :
    ∃ w, c.writes? = some w ∧ σ.block? w = some b := by
  cases c with
  | convert t d =>
    obtain ⟨u, hu, hsole⟩ := Option.bind_eq_some_iff.mp h
    refine ⟨.tensor t, rfl, ?_⟩
    rw [Session.tensorBlock?_of_get? hu]
    exact (Option.filter_eq_some_iff.mp hsole).1
  | map op t x out => exact writes_target h
  | zip op x y out => exact writes_target h
  | sums which t out => exact writes_target h
  | sumAxis t axis out => exact writes_target h
  | softmax t axis out => exact writes_target h
  | product x y out => exact writes_target h
  | fill t x => exact ⟨.tensor t, rfl, h⟩
  | upload t d xs offset => exact ⟨.tensor t, rfl, h⟩
  | copyFrom t other => exact ⟨.tensor t, rfl, h⟩
  | copyRange t other count dstOffset srcOffset => exact ⟨.tensor t, rfl, h⟩
  | random t D => exact ⟨.tensor t, rfl, h⟩
  | assign f t rhs twice => exact ⟨.tensor t, rfl, h⟩
  | broadcast op alpha beta v m => exact ⟨.tensor m, rfl, h⟩
  | addScaled alpha t out => exact ⟨.tensor out, rfl, h⟩
  | productScaled alpha x y beta z => exact ⟨.tensor z, rfl, h⟩
  | writeBlock k d xs => exact ⟨.block k, rfl, h⟩
  | copyBlock dst dstOffset src srcOffset size => exact ⟨.block dst, rfl, h⟩
  | launch call => exact ⟨.block call.output, rfl, h⟩
  | _ => cases h

end Command

/-! ## Replies that depend on devices -/

namespace Reply

/-- The reply is that a device refused memory or did not make a copy. -/
def unserved : Reply → Bool
  | .failed (.fault f) => f.unserved
  | _ => false

/-- The replies are the same, unless one of them is that a device did not serve. -/
def SameIfServed (r r' : Reply) : Prop := r.unserved ∨ r'.unserved ∨ r' = r

end Reply

/-! ## Families -/

/-- A set of slots. -/
abbrev Family : Type := Slot → Bool

/-- The slot whose family a slot with this origin joins. -/
def Origin.parent? (w : Slot) : Origin → Option Slot
  | .viewOf src => some src
  | .kept => some w
  | .made => none
  | .copyOf _ => none
  | .nowhere => none

/-- The slot that slot `w` goes back to, from after a command that was done, or not, to before it. -/
def Command.ancestor? (c : Command) (done : Bool) (w : Slot) : Option Slot :=
  if done ∧ c.filled? = some w then c.origin.parent? w else some w

namespace Session

variable {σ : Session} {F G : Family} {R : Registry Routine → Prop} {c : Command}

/-- The slot of a tensor and the slots that hold its block. -/
def familyOf (σ : Session) (name : String) : Family := fun w =>
  w = .tensor name ∨ (σ.block? w).isSome ∧ σ.block? w = σ.block? (.tensor name)

/-- A family after one command: the slots that go back to it. -/
def inherited (F : Family) (c : Command) (σ : Session) : Family := fun w =>
  (c.ancestor? (step c σ).1.done w).any F

/-- A family after a program: views of its slots belong to it, and what is made anew does not. -/
def lineage (F : Family) : List Command → Session → Family
  | [], _ => F
  | c :: cs, σ => lineage (inherited F c σ) cs (step c σ).2

/-- The commands write through slots of the family only, as it develops, and do not touch what slot
`z` holds. -/
def WritesWithin (z : String) (F : Family) : List Command → Session → Prop
  | [], _ => True
  | c :: cs, σ => c.writes?.all F ∧ c.filled? ≠ some (.tensor z) ∧
      WritesWithin z (inherited F c σ) cs (step c σ).2

instance decidableWritesWithin (z : String) :
    ∀ (F : Family) (cs : List Command) (σ : Session), Decidable (WritesWithin z F cs σ)
  | _, [], _ => isTrue trivial
  | F, c :: cs, σ =>
    have := decidableWritesWithin z (inherited F c σ) cs (step c σ).2
    inferInstanceAs (Decidable (_ ∧ _ ∧ _))

/-- No slot belongs to both families, and no block is held by both. -/
structure Apart (F G : Family) (σ : Session) : Prop where
  slots : ∀ w, F w → ¬G w
  blocks : ∀ w w' b, F w → G w' → σ.block? w = some b → σ.block? w' ≠ some b

/-! ## Commands -/

/-- Slots that a command does not fill keep their blocks. -/
theorem step_block?_of_ne (h : σ.Sound (fun _ => True) []) {w : Slot} (hw : c.filled? ≠ some w) :
    (step c σ).2.block? w = σ.block? w := by
  have hframes := step_frames h c fun _ => trivial
  cases w with
  | tensor name =>
    have hne : c.receiver? ≠ some name := fun hr => hw (Command.filled?_of_receiver? hr)
    exact congrArg (Option.bind · Tensor.block) (hframes.tensors name hne)
  | block name =>
    have hne : c.blockReceiver? ≠ some name := fun hr => hw (Command.filled?_of_blockReceiver? hr)
    exact hframes.blocks name hne

/-- The block of a slot was held by the slot that it goes back to, unless the command has filled the
slot with a new block, or with none. -/
theorem step_ancestor (h : σ.Sound (fun _ => True) []) {w u : Slot}
    (hu : c.ancestor? (step c σ).1.done w = some u) :
    (step c σ).2.block? w = σ.block? u ∨ c.filled? = some w ∧
      ((step c σ).2.block? w = none ∨ (step c σ).2.block? w = some σ.store.blocks.size) := by
  unfold Command.ancestor? at hu
  by_cases hw : c.filled? = some w
  · have hrefills := step_refills c σ hw
    unfold Refills at hrefills
    by_cases hdone : (step c σ).1.done = true
    · rw [if_pos ⟨hdone, hw⟩] at hu
      rw [if_pos hdone] at hrefills
      cases horigin : c.origin with
      | viewOf src =>
        rw [horigin] at hu hrefills
        cases hu
        exact hrefills.imp_right fun hnew => ⟨hw, .inr hnew.2⟩
      | kept =>
        rw [horigin] at hu hrefills
        cases hu
        exact hrefills.imp_right fun hnew => ⟨hw, hnew⟩
      | _ =>
        rw [horigin] at hu
        cases hu
    · rw [if_neg fun hd => hdone hd.1] at hu
      rw [if_neg hdone] at hrefills
      cases hu
      exact .inl hrefills
  · rw [if_neg fun hd => hw hd.2] at hu
    cases hu
    exact .inl (step_block?_of_ne h hw)

theorem mem_handles_of_block? (h : σ.Sound R []) {w : Slot}
    {b : BlockId} (hb : σ.block? w = some b) : b ∈ σ.handles := by
  cases w with
  | tensor name =>
    obtain ⟨t, ht, hblock⟩ := Option.bind_eq_some_iff.mp hb
    exact Tensor.mem_of_held (held_subset h ht) hblock
  | block name => exact block_mem_handles h hb

/-- The blocks in slots are blocks of the store. -/
theorem lt_of_block? (h : σ.Sound R []) {w : Slot} {b : BlockId} (hb : σ.block? w = some b) :
    b < σ.store.blocks.size :=
  h.holds.lt b (mem_handles_of_block? h hb)

/-- A new block is held by no slot before the command. -/
theorem not_held_of_new (h : σ.Sound R []) {o : Option BlockId} {b : BlockId}
    (hnew : o = none ∨ o = some σ.store.blocks.size) (ho : o = some b) (w : Slot) :
    σ.block? w ≠ some b := by
  intro hb
  have hlt := lt_of_block? h hb
  rcases hnew with rfl | rfl
  · cases ho
  · cases ho
    exact Nat.lt_irrefl _ hlt

/-- Families that are apart stay apart. -/
theorem step_apart (h : σ.Sound (fun _ => True) []) (hapart : Apart F G σ) (c : Command) :
    Apart (inherited F c σ) (inherited G c σ) (step c σ).2 := by
  constructor
  · intro w hF hG
    obtain ⟨u, hu, hFu⟩ := (Option.any_eq_true _ _).mp hF
    obtain ⟨u', hu', hGu⟩ := (Option.any_eq_true _ _).mp hG
    obtain rfl : u = u' := Option.some.inj (hu.symm.trans hu')
    exact hapart.slots u hFu hGu
  · intro w w' b hF hG hb hb'
    obtain ⟨u, hu, hFu⟩ := (Option.any_eq_true _ _).mp hF
    obtain ⟨u', hu', hGu⟩ := (Option.any_eq_true _ _).mp hG
    -- A new block is in one slot only, and that slot goes back to one family only.
    rcases step_ancestor h hu with hold | ⟨hw, hnew⟩
    · rcases step_ancestor h hu' with hold' | ⟨-, hnew'⟩
      · exact hapart.blocks u u' b hFu hGu (hold.symm.trans hb) (hold'.symm.trans hb')
      · exact not_held_of_new h hnew' hb' u (hold.symm.trans hb)
    · rcases step_ancestor h hu' with hold' | ⟨hw', -⟩
      · exact not_held_of_new h hnew hb u' (hold'.symm.trans hb')
      · obtain rfl : w = w' := Option.some.inj (hw.symm.trans hw')
        obtain rfl : u = u' := Option.some.inj (hu.symm.trans hu')
        exact hapart.slots u hFu hGu

/-- A slot that a command does not fill stays in its family. -/
theorem inherited_of_ne {w : Slot} (hw : c.filled? ≠ some w) (hF : F w) : inherited F c σ w := by
  unfold inherited Command.ancestor?
  rw [if_neg fun hd => hw hd.2]
  exact hF

/-! ## Reads -/

/-- The reply to a read. -/
def readReply (d : ElemType) : Except Fault (Array (Elem d)) → Reply
  | .ok xs => .elements d xs
  | .error f => faulted f

theorem step_read_reply {x : String} {t : Tensor} (ht : σ.tensors.get? x = some t)
    (dtype : Option ElemType) :
    (step (.read x dtype) σ).1 =
      readReply (dtype.getD t.dtype) (t.read (dtype.getD t.dtype) σ.store).1 := by
  have hperform (d : ElemType) : (perform (t.read d) (fun xs σ => (.elements d xs, σ)) σ).1 =
      readReply d (t.read d σ.store).1 := by
    unfold perform
    cases t.read d σ.store with
    | mk r s => cases r <;> rfl
  cases dtype with
  | none => exact (congrArg Prod.fst (withTensor_some ht σ.store _)).trans (hperform t.dtype)
  | some d => exact (congrArg Prod.fst (withTensor_some ht σ.store _)).trans (hperform d)

theorem step_read_of_none {x : String} (h : σ.tensors.get? x = none) (dtype : Option ElemType) :
    (step (.read x dtype) σ).1 = .badRequest := by
  cases dtype <;> exact congrArg Prod.fst (withTensor_none h _)

theorem unserved_readReply {d : ElemType} {x : Except Fault (Array (Elem d))} (h : Unserved x) :
    (readReply d x).unserved = true := by
  cases x with
  | ok xs => exact h.elim
  | error f => exact h

/-- Tensors of one form with the same bytes get the same replies to reads, if they are served. -/
theorem step_read_of_contents {σ' : Session} {x y : String} {t t' : Tensor} (h : σ.Sound R [])
    (h' : σ'.Sound R []) (ht : σ.tensors.get? x = some t) (ht' : σ'.tensors.get? y = some t')
    (hform : t' = { t with block := t'.block })
    (hdevice : ∀ d, (σ'.store.device d).description = (σ.store.device d).description)
    (hcontents : t'.contents? σ'.store = t.contents? σ.store) (dtype : Option ElemType) :
    Reply.SameIfServed (step (.read x dtype) σ).1 (step (.read y dtype) σ').1 := by
  have hv := h.valid t (Slots.mem_of_get? ht)
  have hv' := h'.valid t' (Slots.mem_of_get? ht')
  have hmirrors := Tensor.mirrors_of_contents hform hv hv' hdevice hcontents
  have hdtype : t'.dtype = t.dtype := by rw [hform]
  rw [step_read_reply ht, step_read_reply ht', hdtype]
  rcases Tensor.read_congr hmirrors hv h.holds (held_subset h ht) h'.holds (held_subset h' ht')
    hdevice (dtype.getD t.dtype) with hx | hx | hx
  · exact .inl (unserved_readReply hx)
  · exact .inr (.inl (unserved_readReply hx))
  · exact .inr (.inr (congrArg _ hx))

theorem step_device (h : σ.Sound R []) (c : Command) (d : DeviceId) :
    ((step c σ).2.store.device d).description = (σ.store.device d).description := by
  obtain ⟨_, hp, -⟩ := step_leads h c
  exact (hp.device d).1

/-! ## Isolation -/

/-- Slot `z` holds the same tensor with the same bytes, and the devices are described as before. -/
structure Intact (z : String) (σ σ' : Session) : Prop where
  slot : σ'.tensors.get? z = σ.tensors.get? z
  contents : ∀ t, σ.tensors.get? z = some t → t.contents? σ'.store = t.contents? σ.store
  device : ∀ d, (σ'.store.device d).description = (σ.store.device d).description

namespace Intact

variable {σ' σ'' : Session} {z : String}

theorem refl (z : String) (σ : Session) : Intact z σ σ := ⟨rfl, fun _ _ => rfl, fun _ => rfl⟩

theorem trans (h : Intact z σ σ') (h' : Intact z σ' σ'') : Intact z σ σ'' where
  slot := h'.slot.trans h.slot
  contents t ht := (h'.contents t (h.slot.trans ht)).trans (h.contents t ht)
  device d := (h'.device d).trans (h.device d)

/-- What is intact reads the same if the reads are served. -/
theorem read (hi : Intact z σ σ') (h : σ.Sound R []) (h' : σ'.Sound R [])
    (dtype : Option ElemType) :
    Reply.SameIfServed (step (.read z dtype) σ).1 (step (.read z dtype) σ').1 := by
  cases ht : σ.tensors.get? z with
  | none =>
    refine .inr (.inr ?_)
    rw [step_read_of_none ht, step_read_of_none (hi.slot.trans ht)]
  | some t =>
    exact step_read_of_contents h h' ht (hi.slot.trans ht) rfl hi.device (hi.contents t ht) dtype

end Intact

/-- What is written through another family leaves what a slot holds intact. -/
theorem step_isolates (h : σ.Sound (fun _ => True) []) (hapart : Apart F G σ) {z : String}
    (hz : G (.tensor z)) (hwrites : c.writes?.all F) (hne : c.filled? ≠ some (.tensor z)) :
    Intact z σ (step c σ).2 := by
  have hframes := step_frames h c fun _ => trivial
  have hsound := step_sound h c fun _ => trivial
  have hsame : (step c σ).2.tensors.get? z = σ.tensors.get? z :=
    hframes.tensors z fun hr => hne (Command.filled?_of_receiver? hr)
  refine ⟨hsame, fun t ht => ?_, step_device h c⟩
  unfold Tensor.contents?
  cases hb : t.block with
  | none => rfl
  | some b =>
    have hholds : σ.block? (.tensor z) = some b := (tensorBlock?_of_get? ht).trans hb
    have hmem : b ∈ (step c σ).2.handles :=
      Tensor.mem_of_held (held_subset hsound (hsame.trans ht)) hb
    have hother : c.destination? σ ≠ some b := by
      intro hdst
      obtain ⟨w, hw, hwb⟩ := Command.writes?_of_destination? hdst
      rw [hw] at hwrites
      exact hapart.blocks w (.tensor z) b hwrites hz hwb hholds
    exact congrArg some (hframes.bytes.contents b (lt_of_block? h hholds) hother
      fun hr => hsound.holds.released b hr hmem)

/-! ## Programs -/

theorem run_sound (h : σ.Sound (fun _ => True) []) (cs : List Command) :
    (run cs σ).2.Sound (fun _ => True) [] := by
  induction cs generalizing σ with
  | nil => exact h
  | cons c cs ih => exact ih (step_sound h c fun _ => trivial)

/-- Families that are apart stay apart, whatever a program does. -/
theorem run_apart (h : σ.Sound (fun _ => True) []) (hapart : Apart F G σ) (cs : List Command) :
    Apart (lineage F cs σ) (lineage G cs σ) (run cs σ).2 := by
  induction cs generalizing σ F G with
  | nil => exact hapart
  | cons c cs ih => exact ih (step_sound h c fun _ => trivial) (step_apart h hapart c)

/-- What a program writes through one family only leaves what the slots of another hold intact, if the
two are apart. -/
theorem run_isolates (h : σ.Sound (fun _ => True) []) (hapart : Apart F G σ) {z : String}
    (hz : G (.tensor z)) {cs : List Command} (hcs : WritesWithin z F cs σ) :
    Intact z σ (run cs σ).2 := by
  induction cs generalizing σ F G with
  | nil => exact .refl z σ
  | cons c cs ih =>
    obtain ⟨hwrites, hne, hrest⟩ := hcs
    exact (step_isolates h hapart hz hwrites hne).trans
      (ih (step_sound h c fun _ => trivial) (step_apart h hapart c) (inherited_of_ne hne hz) hrest)

end Session

end DeviceTensor
