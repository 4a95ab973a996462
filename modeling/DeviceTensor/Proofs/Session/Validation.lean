import DeviceTensor.Proofs.Session.Reachable
import DeviceTensor.Proofs.Tensor.Call
set_option autoImplicit false

/-!
# Validation suffices

On a registry of host routines, every launch that a call issues is well formed, and the call fails
for admissible reasons only.  `Traced.Meets` says both of a traced action; it holds of every call
whose operands are the tensors of a reachable session.
-/

namespace DeviceTensor

open DeviceTensor.Except

/-! ## Checks fail for reasons of their own -/

/-- The fault is one that checks of operands find: no routine, device or memory has failed. -/
def Fault.OfChecks : Fault → Prop
  | .trap t => t.Admissible
  | .launch _ => False
  | .allocationFailed _ _ _ _ => False
  | .notAddressable _ _ => False
  | .viewTooLong _ _ => False
  | .copyFailed _ _ _ => False
  | _ => True

/-- What checks find is admissible. -/
theorem Except.FailsIn.admissible {α : Type} {x : Except Fault α} (h : FailsIn Fault.OfChecks x) :
    FailsIn Fault.Admissible x := by
  intro f hf
  have hchecks := h f hf
  cases f <;> first | exact hchecks | exact hchecks.elim

/-- Checks do not ask for memory. -/
theorem Except.FailsIn.calm {α : Type} {x : Except Fault α} (h : FailsIn Fault.OfChecks x) :
    ¬Refused x := by
  intro hrefused
  obtain ⟨f, rfl⟩ := hrefused.exists_error
  have hchecks := h f rfl
  cases f with
  | allocationFailed _ _ _ _ => exact hchecks
  | _ => cases hrefused

theorem Fault.ofTrap_ofChecks {α : Type} {x : Except Trap α} (h : FailsIn Trap.Admissible x) :
    FailsIn Fault.OfChecks (Fault.ofTrap x) := by
  cases x with
  | ok a => exact .ok a
  | error t => exact .error (h t rfl)

theorem Size.product_admissible (dims : List Nat) : FailsIn Trap.Admissible (Size.product dims) :=
  .foldlM fun _ _ _ => Size.mul_admissible _ _

theorem Shape.byteSize_ofChecks (shape : Shape) (d : ElemType) :
    FailsIn Fault.OfChecks (shape.byteSize d) := by
  refine .bind ?_ fun n _ => Fault.ofTrap_ofChecks (Size.mul_admissible n d.width)
  rw [Shape.count_eq]
  exact Fault.ofTrap_ofChecks (Size.product_admissible shape)

namespace Tensor

variable {s : Store}

theorem checkSameKind_ofChecks (a b : Tensor) (s : Store) :
    FailsIn Fault.OfChecks (checkSameKind a b s) := by
  unfold checkSameKind
  exact .forbid (fun _ => trivial) fun _ => .ite (fun _ => .error trivial) fun _ => .ok ()

theorem checkSameForm_ofChecks (a b : Tensor) : FailsIn Fault.OfChecks (checkSameForm a b) := by
  unfold checkSameForm
  exact .forbid (fun _ => trivial) fun _ => .ite (fun _ => .error trivial) fun _ => .ok ()

theorem checkOutput_ofChecks (t out : Tensor) (count : Nat) (s : Store) :
    FailsIn Fault.OfChecks (checkOutput t out count s) :=
  .bind (checkSameKind_ofChecks t out s) fun _ _ =>
    .ite (fun _ => .error trivial) fun _ => .ok ()

theorem checkOutputLike_ofChecks (t out : Tensor) (s : Store) :
    FailsIn Fault.OfChecks (checkOutputLike t out s) :=
  .bind (checkOutput_ofChecks t out _ s) fun _ _ =>
    .ite (fun _ => .error trivial) fun _ => .ok ()

theorem requireBlock_ofChecks (t : Tensor) : FailsIn Fault.OfChecks t.requireBlock := by
  unfold requireBlock
  split
  · exact .ok _
  · exact .error trivial

theorem asMatrix_ofChecks (t : Tensor) : FailsIn Fault.OfChecks t.asMatrix := by
  unfold asMatrix
  split
  · exact .ok _
  · exact .ok _
  · exact .error trivial

theorem collapse_ofChecks (t : Tensor) (axis : Nat) :
    FailsIn Fault.OfChecks (t.collapse axis) := by
  unfold collapse
  split
  · exact .ite (fun _ => .ok _) fun _ => .error trivial
  · split
    · exact .ok _
    · exact .ok _
    · exact .error trivial
  · exact .error trivial

theorem productExtents_ofChecks (a b : Tensor) :
    FailsIn Fault.OfChecks (productExtents a b) := by
  refine .bind ?_ fun p _ => .forbid (fun _ => trivial) fun _ => .ok _
  unfold productDims
  split
  · exact .ok _
  · exact .ok _
  · exact .ok _
  · exact .ok _
  · exact .error trivial

end Tensor

namespace Computation

open Tensor

/-- What is left of a plan when its checks have passed. -/
theorem blocks_ofChecks {t out : Tensor} {α : Type} (make : BlockId → BlockId → α) :
    FailsIn Fault.OfChecks (do
      let dst ← out.requireBlock
      let src ← t.requireBlock
      return make dst src) :=
  .bind out.requireBlock_ofChecks fun _ _ => .bind t.requireBlock_ofChecks fun _ _ => .ok _

theorem plan_ofChecks (c : Computation) (out : Tensor) (s : Store) :
    FailsIn Fault.OfChecks (c.plan out s) := by
  cases c with
  | map op t x =>
    refine .bind (.bind (checkOutputLike_ofChecks t out s) fun _ _ => ?_) fun _ _ => .ok _
    exact blocks_ofChecks _
  | zip op lhs rhs =>
    refine .bind (.bind (checkSameKind_ofChecks lhs rhs s) fun _ _ => ?_) fun _ _ => .ok _
    refine .bind (checkSameForm_ofChecks lhs rhs) fun _ _ => ?_
    refine .bind (checkOutputLike_ofChecks lhs out s) fun _ _ => ?_
    exact .bind out.requireBlock_ofChecks fun _ _ => blocks_ofChecks _
  | sums which t =>
    refine .bind (.bind t.asMatrix_ofChecks fun _ _ => ?_) fun _ _ => .ok _
    exact .bind (checkOutput_ofChecks t out _ s) fun _ _ => blocks_ofChecks _
  | sumAxis t axis =>
    refine .bind (t.collapse_ofChecks axis) fun _ _ => .bind ?_ fun _ _ => .ok _
    exact .bind (checkOutput_ofChecks t out _ s) fun _ _ => blocks_ofChecks _
  | softmax t axis =>
    refine .bind ?_ fun _ _ => .ok _
    unfold planSoftmax
    refine .forbid (fun _ => trivial) fun _ => ?_
    refine .bind (checkOutputLike_ofChecks t out s) fun _ _ => ?_
    refine .bind (Fault.ofTrap_ofChecks (Size.product_admissible _)) fun _ _ => ?_
    refine .bind (Fault.ofTrap_ofChecks (Size.product_admissible _)) fun _ _ => ?_
    exact blocks_ofChecks _
  | product alpha a b beta =>
    refine .bind (.bind (checkSameKind_ofChecks a b s) fun _ _ => ?_) fun _ _ => .ok _
    refine .bind (productExtents_ofChecks a b) fun _ _ => ?_
    refine .bind (Fault.ofTrap_ofChecks (Size.mul_admissible _ _)) fun _ _ => ?_
    refine .bind (checkOutput_ofChecks a out _ s) fun _ _ => ?_
    refine .forbid (fun _ => trivial) fun _ => ?_
    exact .bind out.requireBlock_ofChecks fun _ _ => blocks_ofChecks _
  | broadcast op alpha beta v =>
    refine .bind (.bind (checkSameKind_ofChecks v out s) fun _ _ => ?_) fun _ _ => .ok _
    refine .bind out.asMatrix_ofChecks fun _ _ => .forbid (fun _ => trivial) fun _ => ?_
    exact blocks_ofChecks _
  | addScaled alpha t =>
    refine .bind (.bind (checkSameKind_ofChecks t out s) fun _ _ => ?_) fun _ _ => .ok _
    exact .bind (checkSameForm_ofChecks t out) fun _ _ => blocks_ofChecks _

end Computation

/-! ## Actions fail for admissible reasons -/

namespace Action

variable {α β : Type} {s : Store}

/-- The action ends with `Q`, or fails for an admissible reason. -/
def Safe (x : Action Fault α) (s : Store) (Q : α → Store → Prop) : Prop :=
  x.Ends s Q fun f _ => f.Admissible

theorem safe_of_failsIn {R : Store → Store → Prop} {x : Action Fault α}
    (h : FailsIn Fault.Admissible (x s).1) (hw : x.Within R) : x.Safe s fun _ s' => R s s' := by
  have hs := hw s
  unfold Safe Ends
  cases hx : x s with
  | mk r s' =>
    rw [hx] at h hs
    cases r with
    | ok a => exact hs
    | error f => exact h f rfl

/-- A look fails for an admissible reason if what it sees does; refused memory is one. -/
theorem safe_of_reads {bs : List BlockId} {x : Action Fault α} {p : Store → Except Fault α}
    (hx : Reads bs x p) (hp : FailsIn Fault.Admissible (p s)) :
    x.Safe s fun a s' => p s = .ok a ∧ s.Binds s' := by
  have hr := hx.result s
  have hb := hx.binds s
  unfold Safe Ends
  cases hs : x s with
  | mk r s' =>
    rw [hs] at hr hb
    rcases hr with hr | ⟨hrefused, -⟩
    · cases r with
      | ok a => exact ⟨hr.symm, hb⟩
      | error f => exact hp f hr.symm
    · cases r with
      | ok a => exact hrefused.elim
      | error f => exact Fault.admissible_of_refuses hrefused

theorem safe_ofExcept {x : Except Fault α} (h : FailsIn Fault.Admissible x) :
    (Action.ofExcept x).Safe s fun a s' => x = .ok a ∧ s' = s :=
  ends_ofExcept.mpr ⟨fun _ ha => ⟨ha, rfl⟩, h⟩

theorem safe_examine {f : Store → Except Fault α} (h : FailsIn Fault.Admissible (f s)) :
    (Action.examine f).Safe s fun a s' => f s = .ok a ∧ s' = s :=
  ends_examine.mpr ⟨fun _ ha => ⟨ha, rfl⟩, h⟩

theorem Safe.bind {x : Action Fault β} {next : β → Action Fault α} {Q : β → Store → Prop}
    {Q' : α → Store → Prop} (hx : x.Safe s Q) (hn : ∀ b s', Q b s' → (next b).Safe s' Q') :
    (x >>= next).Safe s Q' :=
  ends_bind.mpr (Ends.mono hx hn fun _ _ h => h)

theorem Safe.mono {x : Action Fault α} {Q Q' : α → Store → Prop} (hx : x.Safe s Q)
    (h : ∀ a s', Q a s' → Q' a s') : x.Safe s Q' :=
  Ends.mono hx h fun _ _ h => h

end Action

namespace Block

open DeviceTensor.Action

variable {s : Store}

theorem bindMemory_safe (b : BlockId) (s : Store) :
    (bindMemory b).Safe s fun _ s' => s.Extends s' :=
  (safe_of_reads (bindMemory_reads (List.mem_singleton_self b)) (.ok ())).mono
    fun _ _ h => h.2.evolves

theorem checkCopy_admissible (dst src : Range) (n : Nat) (s : Store) :
    FailsIn Fault.Admissible (checkCopy dst src n s) := by
  unfold checkCopy
  dsimp only
  split
  · rename_i t ht
    exact .error (Size.add_admissible _ _ t ht)
  · refine .ite (fun _ => .error trivial) fun _ => ?_
    split
    · rename_i t ht
      exact .error (Size.add_admissible _ _ t ht)
    · exact .ite (fun _ => .error trivial) fun _ => .ok ()

theorem moveBytes_safe (executor : DeviceId) (direction : Direction) (dst src : Range) (n : Nat)
    (s : Store) : (moveBytes executor direction dst src n).Safe s fun _ s' => s.Extends s' := by
  have hends : (moveBytes executor direction dst src n).Ends s (fun _ _ => True)
      fun f _ => f.Admissible := by
    unfold moveBytes
    rw [ends_bind]
    refine ends_request (fun _ => ?_) fun _ _ => trivial
    rw [ends_bind, ends_change]
    exact ends_request (fun _ => trivial) fun _ _ => trivial
  exact (hends.and ((moveBytes_keeps executor direction dst src n).ends s)).mono
    (fun _ _ h => h.2.extend) fun _ _ h => h.1

theorem copy_safe (dst src : Range) (n : Nat) (s : Store) :
    (copy dst src n).Safe s fun _ s' => s.Extends s' := by
  refine (safe_examine (checkCopy_admissible dst src n s)).bind fun _ _ h => ?_
  obtain ⟨-, rfl⟩ := h
  split
  · exact .refl _
  · refine (bindMemory_safe dst.block _).bind fun _ s₁ h₁ => ?_
    refine (bindMemory_safe src.block s₁).bind fun _ s₂ h₂ => ?_
    exact (moveBytes_safe _ _ dst src n s₂).mono fun _ _ h => (h₁.trans h₂).trans h

theorem view_safe {b : BlockId} {d : ElemType} {count : Nat}
    (h : count * d.width ≤ (s.block b).size) :
    (view b d count).Safe s fun xs _ => xs.size = count :=
  (safe_of_reads (view_reads (List.mem_singleton_self b) d count) (seen_admissible h)).mono
    fun _ _ h => size_of_seen h.1

end Block

namespace Tensor

open DeviceTensor.Action

variable {s : Store} {t : Tensor}

theorem readStaged_safe {d : ElemType} {count n : Nat} (h : count * d.width ≤ n) (b : BlockId)
    (s : Store) : (readStaged b d count n).Safe s fun xs _ => xs.size = count := by
  have hbody : (Block.copy ⟨s.blocks.size, 0⟩ ⟨b, 0⟩ n >>= fun _ =>
      Block.view s.blocks.size d count).Safe (s.acquire Store.hostMemory n).2
      fun xs _ => xs.size = count := by
    refine (Block.copy_safe _ _ _ _).bind fun _ s' hs' => Block.view_safe ?_
    have hlt : s.blocks.size < (s.acquire Store.hostMemory n).2.blocks.size := by simp
    rw [hs'.size _ hlt, Store.block_acquire_self]
    exact h
  unfold readStaged Block.temporary Safe
  rw [ends_bind, ends_changing, ends_thenTidy]
  exact hbody

/-- The elements that are read from a tensor are as many as it holds. -/
theorem read_safe {b : BlockId} (hb : t.block = some b) (s : Store) (d : ElemType) :
    (t.read d).Safe s fun xs _ => xs.size = t.count s := by
  have hcheck : FailsIn Fault.Admissible (t.checkElementType d) :=
    .ite (fun _ => .ok ()) fun _ => .error trivial
  refine (safe_ofExcept hcheck).bind fun _ s' h => ?_
  obtain ⟨hd, rfl⟩ := h
  have hfits : t.count s' * d.width ≤ t.byteSize s' := by
    unfold checkElementType at hd
    split at hd
    · rename_i heq
      rw [heq]
      exact Nat.div_mul_le_self _ _
    · cases hd
  have hsize : t.byteSize s' = (s'.block b).size := by
    unfold byteSize
    rw [hb]
  rw [hb]
  unfold Safe
  simp only [ends_bind, ends_inspect]
  split
  · exact Block.view_safe (hsize ▸ hfits)
  · exact readStaged_safe hfits b s'

end Tensor

/-! ## Traced actions that meet their purpose -/

namespace Traced

variable {α β : Type} {s : Store}

/-- Every launch is well formed, and the action ends with `Q` or fails for an admissible reason. -/
structure Meets (x : Traced α) (s : Store) (Q : α → Store → Prop) : Prop where
  safe : x.run.Safe s Q
  launches : ∀ l ∈ x.launches s, l.1.WellFormed l.2

theorem Meets.quiet {x : Action Fault α} {Q : α → Store → Prop} (h : x.Safe s Q) :
    (Traced.quiet x).Meets s Q :=
  ⟨h, fun _ hl => by cases hl⟩

theorem Meets.mono {x : Traced α} {Q Q' : α → Store → Prop} (h : x.Meets s Q)
    (hQ : ∀ a s', Q a s' → Q' a s') : x.Meets s Q' :=
  ⟨h.safe.mono hQ, h.launches⟩

theorem Meets.bind {x : Traced β} {next : β → Traced α} {Q : β → Store → Prop}
    {Q' : α → Store → Prop} (hx : x.Meets s Q) (hn : ∀ b s', Q b s' → (next b).Meets s' Q') :
    (x >>= next).Meets s Q' where
  safe := hx.safe.bind fun b s' h => (hn b s' h).safe
  launches l hl := by
    rcases List.mem_append.mp hl with hl | hl
    · exact hx.launches l hl
    · split at hl
      · rename_i b s' hrun
        exact (hn b s' (Action.Ends.ok hx.safe hrun)).launches l hl
      · cases hl

theorem Meets.pure {a : α} {Q : α → Store → Prop} (h : Q a s) :
    (Pure.pure a : Traced α).Meets s Q :=
  .quiet h

theorem Meets.onFailure {x : Traced α} {Q : α → Store → Prop} (h : x.Meets s Q)
    (f : Store → Store) : (x.onFailure f).Meets s Q :=
  ⟨Action.ends_onFailure.mpr h.safe, h.launches⟩

theorem Meets.thenTidy {x : Traced α} {f : Store → Store} {Q : α → Store → Prop}
    (h : x.Meets s fun a s' => Q a (f s')) : (x.thenTidy f).Meets s Q :=
  ⟨Action.ends_thenTidy.mpr h.safe, h.launches⟩

/-- A well-formed launch on a registry of host routines. -/
theorem Meets.issue {l : Launched} (hs : s.registry.OnHost) (h : l.WellFormed s) :
    (Traced.issue l).Meets s fun _ s' => s.Keeps s' where
  safe := Action.safe_of_failsIn (launch_admissible hs h.views) (launch_keeps _ _ _)
  launches l' hl' := by
    obtain rfl := List.mem_singleton.mp hl'
    exact h

/-- A tensor is made, and then worked on. -/
theorem Meets.building {make : Traced Tensor} {work : Tensor → Traced Unit}
    {P : Tensor → Store → Prop} (hm : make.Meets s P)
    (hw : ∀ t s', P t s' → (work t).Meets s' fun _ s'' => P t s'') :
    (Traced.building make work).Meets s P := by
  refine hm.bind fun t s' h => ((hw t s' h).onFailure t.release).bind fun _ s'' h' => ?_
  exact .pure h'

end Traced

/-! ## Computations -/

namespace Computation

open Tensor

variable {s : Store} {out : Tensor}

/-- A computation on valid operands. -/
theorem traced_meets {c : Computation} (hs : s.registry.OnHost) (hc : c.Proper)
    (hin : ∀ t ∈ c.inputs, t.Valid s) (ho : out.Valid s) :
    (c.traced out).Meets s fun _ s' => s.Extends s' := by
  refine (Traced.Meets.quiet (Action.safe_examine (c.plan_ofChecks out s).admissible)).bind
    fun i s' h => ?_
  obtain ⟨hplan, rfl⟩ := h
  exact (Traced.Meets.issue hs (plan_wellFormed hc hin ho hplan)).mono fun _ _ h => h.extend

end Computation

namespace Tensor

open Traced

variable {s : Store} {t : Tensor}

/-! ## New tensors -/

/-- The tensor is valid in a store that extends `s`. -/
def ValidAfter (s : Store) (t : Tensor) (s' : Store) : Prop := t.Valid s' ∧ s.Extends s'

theorem onDevice_safe (shape : Shape) (d : DeviceId) (dtype : ElemType) (s : Store) :
    (onDevice shape d dtype).Safe s fun t s' =>
      t = ⟨shape, dtype, false, d, some s.blocks.size⟩ ∧ ValidAfter s t s' := by
  unfold Action.Safe Action.Ends
  rw [onDevice_eq]
  cases hn : shape.byteSize dtype with
  | ok n =>
    refine ⟨rfl, (fills_acquire hn d false s).valid rfl fun ht => ?_, s.extends_acquire d n⟩
    cases ht
  | error e => exact (Shape.byteSize_ofChecks shape dtype).admissible e hn

theorem onDevice_valid (shape : Shape) (d : DeviceId) (dtype : ElemType) (s : Store) :
    (onDevice shape d dtype).Safe s (ValidAfter s) :=
  (onDevice_safe shape d dtype s).mono fun _ _ h => h.2

theorem blankLike_safe (ht : t.Valid s) : t.blankLike.Safe s (ValidAfter s) := by
  unfold Action.Safe Action.Ends
  rw [blankLike_eq]
  cases hn : t.shape.byteSize t.dtype with
  | ok n =>
    exact ⟨(fills_acquire hn t.device t.transposed s).valid rfl ht.rank, s.extends_acquire _ n⟩
  | error e => exact (Shape.byteSize_ofChecks t.shape t.dtype).admissible e hn

/-- A computation into a tensor that is made for it. -/
theorem building_meets {c : Computation} {make : Action Fault Tensor} (hs : s.registry.OnHost)
    (hc : c.Proper) (hin : ∀ t ∈ c.inputs, t.Valid s) (hm : make.Safe s (ValidAfter s)) :
    (Traced.building (quiet make) (c.traced ·)).Meets s (ValidAfter s) := by
  refine .building (.quiet hm) fun out s' h => ?_
  have hreg : s'.registry.OnHost := h.2.registry ▸ hs
  refine (c.traced_meets hreg hc (fun t ht => (hin t ht).mono h.2) h.1).mono fun _ s'' h' => ?_
  exact ⟨h.1.mono h', h.2.trans h'⟩

theorem sumAxisTraced_meets (hs : s.registry.OnHost) (ht : t.Valid s) (axis : Nat) :
    (t.sumAxisTraced axis).Meets s (ValidAfter s) := by
  refine (Meets.quiet (Action.safe_ofExcept (t.collapse_ofChecks axis).admissible)).bind
    fun c s' h => ?_
  obtain ⟨-, rfl⟩ := h
  exact building_meets hs trivial (List.forall_mem_singleton.mpr ht) (onDevice_valid _ _ _ _)

theorem averageTraced_meets (hs : s.registry.OnHost) (ht : t.Valid s) (axis : Nat) :
    (t.averageTraced axis).Meets s (ValidAfter s) := by
  refine (Meets.quiet (Action.safe_ofExcept (t.collapse_ofChecks axis).admissible)).bind
    fun c s' h => ?_
  obtain ⟨-, rfl⟩ := h
  refine .building (P := ValidAfter s') (sumAxisTraced_meets hs ht axis) fun out s'' h => ?_
  have hreg : s''.registry.OnHost := h.2.registry ▸ hs
  refine (Computation.traced_meets hreg (Computation.proper_ofAssign .div out _) ?_ h.1).mono
    fun _ s₃ h' => ?_
  · exact List.forall_mem_singleton.mpr h.1
  · exact ⟨h.1.mono h', h.2.trans h'⟩

/-! ## Operations on their own operands -/

theorem fillTraced_meets (hs : s.registry.OnHost) (ht : t.Valid s) (x : Double) :
    (t.fillTraced x).Meets s fun _ _ => True := by
  unfold fillTraced
  cases hb : t.block with
  | none => exact .pure trivial
  | some b =>
    have hf := ht.filled b hb
    refine Meets.bind (Q := fun n s' => n = t.count s ∧ s' = s) (.quiet ⟨rfl, rfl⟩) fun n s' h => ?_
    obtain ⟨rfl, rfl⟩ := h
    refine (Meets.issue hs (wellFormed_of rfl ?_ hb hf.place (fun _ => rfl) ?_)).mono
      fun _ _ _ => trivial
    · intro u hu
      cases hu
    · exact .fill (ht.fits hb rfl (Nat.le_refl _))

theorem fillSamplesTraced_meets (hs : s.registry.OnHost) (ht : t.Valid s) (D : Distribution) :
    (t.fillSamplesTraced D).Meets s fun _ _ => True := by
  have hop : (randomOperation D).1 = .bernoulli ∨ (randomOperation D).1 = .gaussian ∨
      (randomOperation D).1 = .uniform := by
    cases D with
    | bernoulli p => exact .inl rfl
    | gaussian mean deviation => exact .inr (.inl rfl)
    | uniform low high => exact .inr (.inr rfl)
  refine (Meets.quiet (Action.safe_ofExcept t.requireBlock_ofChecks.admissible)).bind fun b s' h => ?_
  obtain ⟨hb, rfl⟩ := h
  have hb := requireBlock_eq_ok_iff.mp hb
  have hf := ht.filled b hb
  refine Meets.bind (Q := fun n s'' => n = t.count s' ∧ s'' = s') (.quiet ⟨rfl, rfl⟩)
    fun n s'' h => ?_
  obtain ⟨rfl, rfl⟩ := h
  refine (Meets.issue hs (wellFormed_of rfl ?_ hb hf.place (fun _ => rfl) ?_)).mono
    fun _ _ _ => trivial
  · intro u hu
    cases hu
  · exact .random hop (ht.fits hb rfl (Nat.le_refl _))

/-- The elements of a tensor are cast into a block that has room for them. -/
theorem castToTraced_meets {b target : BlockId} {d : ElemType} (hs : s.registry.OnHost)
    (ht : t.Valid s) (hb : t.block = some b) (hplace : (s.block target).device = t.device)
    (hsize : t.count s * d.width ≤ (s.block target).size) :
    (t.castToTraced b d target).Meets s fun _ _ => True := by
  refine Meets.bind (Q := fun _ s' => s' = s) (.quiet rfl) fun bound s' h => ?_
  subst h
  refine Meets.bind (Q := fun n s'' => n = t.count s' ∧ s'' = s') (.quiet ⟨rfl, rfl⟩)
    fun n s'' h => ?_
  obtain ⟨rfl, rfl⟩ := h
  split
  · refine (Meets.issue hs (wellFormed_of ?_ ?_ rfl hplace ?_ ?_)).mono fun _ _ _ => trivial
    · rw [List.map_cons, hb]
      rfl
    · intro u hu
      obtain rfl := List.mem_singleton.mp hu
      exact ⟨ht, rfl, rfl⟩
    · intro hop
      exact absurd List.mem_cons_self hop
    · exact .cast (ht.fits hb rfl (Nat.le_refl _)) ⟨target, rfl, hsize⟩
  · exact .pure trivial

theorem convertTraced_meets (hs : s.registry.OnHost) (ht : t.Valid s) (d : ElemType) :
    (t.convertTraced d).Meets s fun _ _ => True := by
  unfold convertTraced
  split
  · exact .pure trivial
  · cases hb : t.block with
    | none => exact .pure trivial
    | some b =>
      have hf := ht.filled b hb
      have hmul : FailsIn Fault.Admissible (Fault.ofTrap (Size.mul (t.count s) d.width)) :=
        (Fault.ofTrap_ofChecks (Size.mul_admissible _ _)).admissible
      refine (Meets.quiet (Action.safe_examine hmul)).bind fun n s' h => ?_
      obtain ⟨hn, rfl⟩ := h
      obtain ⟨-, rfl⟩ := Size.mul_eq_ok_iff.mp (Fault.ofTrap_eq_ok_iff.mp hn)
      refine Meets.bind (Q := fun p s'' => p = castsInPlace b (t.count s' * d.width) s' ∧ s'' = s')
        (.quiet ⟨rfl, rfl⟩) fun inPlace s'' h => ?_
      obtain ⟨rfl, rfl⟩ := h
      split
      · rename_i hin
        refine (castToTraced_meets hs ht hb hf.place ?_).bind fun _ _ _ => .pure trivial
        exact Nat.le_of_eq (of_castsInPlace hin).1
      · have hext := s''.extends_acquire t.device (t.count s'' * d.width)
        refine Meets.bind (Q := fun target s₁ => target = s''.blocks.size ∧
          s₁ = (s''.acquire t.device (t.count s'' * d.width)).2) (.quiet ⟨rfl, rfl⟩)
          fun target s₁ h => ?_
        obtain ⟨rfl, rfl⟩ := h
        have hcount : t.count (s''.acquire t.device (t.count s'' * d.width)).2 = t.count s'' := by
          rw [((ht.mono hext).filled b hb).count hb, hf.count hb]
        refine ((castToTraced_meets (hext.registry ▸ hs) (ht.mono hext) hb ?_ ?_).onFailure _).bind
          fun _ _ _ => ?_
        · rw [Store.block_acquire_self]
        · rw [Store.block_acquire_self]
          exact Nat.le_of_eq (congrArg (· * d.width) hcount)
        · exact .bind (Q := fun _ _ => True) (.quiet trivial) fun _ _ _ => .pure trivial

theorem reduceBlockTraced_meets {op : Operation} {b k : BlockId} (hs : s.registry.OnHost)
    (ht : t.Valid s) (hb : t.block = some b)
    (hout : (Tensor.mk [1] .float64 false t.device (some k)).Valid s)
    (hop : op = .sum ∨ op = .nrm2) :
    (t.reduceBlockTraced b op ⟨[1], .float64, false, t.device, some k⟩).Meets s
      fun _ _ => True := by
  have hf := hout.filled k rfl
  refine Meets.bind (Q := fun dst s' => dst = k ∧ s' = s) (.quiet ⟨rfl, rfl⟩) fun dst s' h => ?_
  obtain ⟨rfl, rfl⟩ := h
  refine Meets.bind (Q := fun n s'' => n = t.count s' ∧ s'' = s') (.quiet ⟨rfl, rfl⟩)
    fun n s'' h => ?_
  obtain ⟨rfl, rfl⟩ := h
  refine (Meets.issue hs (wellFormed_of ?_ ?_ rfl hf.place ?_ ?_)).bind fun _ s₁ hkeeps => ?_
  · rw [List.map_cons, hb]
    rfl
  · intro u hu
    obtain rfl := List.mem_singleton.mp hu
    exact ⟨ht, rfl, rfl⟩
  · intro hnot
    rcases hop with rfl | rfl
    · exact absurd (by simp [Launched.retyping]) hnot
    · exact absurd (by simp [Launched.retyping]) hnot
  · exact .reduce hop (ht.fits hb rfl (Nat.le_refl _)) (hf.fits (Nat.le_refl 1))
  · refine (Meets.quiet (read_safe rfl s₁ .float64)).bind fun result s₂ hsize => ?_
    rw [(hf.mono hkeeps.extend).count rfl] at hsize
    have hread : FailsIn Fault.Admissible (Fault.ofTrap (Buffer.read result 0)) :=
      (Fault.ofTrap_ofChecks (Buffer.read_admissible (hsize ▸ Nat.zero_lt_one))).admissible
    exact (Meets.quiet (Action.safe_ofExcept hread)).mono fun _ _ _ => trivial

theorem reduceTraced_meets {op : Operation} (hs : s.registry.OnHost) (ht : t.Valid s)
    (hop : op = .sum ∨ op = .nrm2) : (t.reduceTraced op).Meets s fun _ _ => True := by
  unfold reduceTraced
  cases hb : t.block with
  | none => exact .pure trivial
  | some b =>
    refine (Meets.quiet (onDevice_safe [1] t.device .float64 s)).bind fun out s' h => ?_
    obtain ⟨rfl, hout, hext⟩ := h
    exact (reduceBlockTraced_meets (hext.registry ▸ hs) (ht.mono hext) hb hout hop).thenTidy

end Tensor

/-! ## Calls -/

/-- What is returned beside an effect is dropped. -/
theorem Traced.Meets.drop {α : Type} {x : Traced α} {s : Store} {Q : α → Store → Prop}
    (h : x.Meets s Q) : (do let _ ← x : Traced Unit).Meets s fun _ _ => True :=
  h.bind fun _ _ _ => .pure trivial

section Calls

open Tensor Traced

variable {s : Store}

/-- An evaluation on valid operands issues well-formed launches, fails for admissible reasons only,
and gives a valid tensor. -/
theorem Evaluation.traced_meets {e : Evaluation} (hs : s.registry.OnHost)
    (he : e.Proper) (hv : ∀ t ∈ e.operands, t.Valid s) : e.traced.Meets s (ValidAfter s) := by
  cases e with
  | into c out =>
    have hin (t : Tensor) (ht : t ∈ c.inputs) : t.Valid s := hv t (List.mem_cons_of_mem out ht)
    have hout := hv out List.mem_cons_self
    exact (c.traced_meets hs he hin hout).bind fun _ _ h => .pure ⟨hout.mono h, h⟩
  | map op t x =>
    exact building_meets (c := .map op t x) hs he hv (blankLike_safe (hv t List.mem_cons_self))
  | zip op lhs rhs =>
    exact building_meets (c := .zip op lhs rhs) hs he hv
      (blankLike_safe (hv lhs List.mem_cons_self))
  | sums which t =>
    refine (Meets.quiet (Action.safe_ofExcept t.asMatrix_ofChecks.admissible)).bind
      fun dims s' h => ?_
    obtain ⟨-, rfl⟩ := h
    exact building_meets (c := .sums which t) hs trivial hv (onDevice_valid _ _ _ _)
  | sumAxis t axis => exact sumAxisTraced_meets hs (hv t List.mem_cons_self) axis
  | average t axis => exact averageTraced_meets hs (hv t List.mem_cons_self) axis
  | softmax t axis =>
    exact building_meets (c := .softmax t axis) hs trivial hv
      (blankLike_safe (hv t List.mem_cons_self))
  | product a b =>
    refine (Meets.quiet (Action.safe_examine (checkSameKind_ofChecks a b s).admissible)).bind
      fun _ s' h => ?_
    obtain ⟨-, rfl⟩ := h
    refine (Meets.quiet (Action.safe_ofExcept (productExtents_ofChecks a b).admissible)).bind
      fun p s'' h => ?_
    obtain ⟨-, rfl⟩ := h
    exact building_meets (c := .product Double.one a b Double.zero) hs trivial hv
      (onDevice_valid _ _ _ _)
  | operate f t rhs =>
    have ht := hv t (Computation.mem_inputs_ofAssign f t rhs)
    exact building_meets hs (Computation.proper_ofAssign f t rhs) hv (blankLike_safe ht)

/-- A call on valid operands issues well-formed launches and fails for admissible reasons only. -/
theorem Call.traced_meets {call : Call} (hs : s.registry.OnHost) (hcall : call.Proper)
    (hv : ∀ t ∈ call.operands, t.Valid s) : call.traced.Meets s fun _ _ => True := by
  cases call with
  | evaluate e => exact (Evaluation.traced_meets hs hcall hv).drop
  | assign f t rhs =>
    have ht := hv t (Computation.mem_inputs_ofAssign f t rhs)
    exact ((Computation.ofAssign f t rhs).traced_meets hs (Computation.proper_ofAssign f t rhs) hv
      ht).mono fun _ _ _ => trivial
  | fill t x => exact fillTraced_meets hs (hv t List.mem_cons_self) x
  | fillSamples t D => exact fillSamplesTraced_meets hs (hv t List.mem_cons_self) D
  | convert t d => exact (convertTraced_meets hs (hv t List.mem_cons_self) d).drop
  | norm t =>
    exact (reduceTraced_meets hs (hv t List.mem_cons_self) (.inr rfl)).drop
  | sum t d =>
    refine (reduceTraced_meets hs (hv t List.mem_cons_self) (.inl rfl)).bind fun total _ _ => ?_
    split
    · exact .pure trivial
    · exact .quiet trivial

end Calls

/-! ## Reachable sessions -/

namespace Session

variable {σ : Session}

/-- With host routines only, the checks of a call suffice: each of its launches is well formed, and
the call ends with no fault of a routine whose operands do not suit it. -/
theorem validated_call_suits_routine (h : Reachable HostOnly σ) {call : Call}
    (hcall : call.Proper) (hoperands : ∀ t ∈ call.operands, t ∈ σ.tensors.values) :
    call.traced.run = call.run ∧
      (∀ l ∈ call.traced.launches σ.store, l.1.WellFormed l.2) ∧
      ∀ f, (call.run σ.store).1 = .error f → f.Admissible := by
  have hsound := h.onHost
  have hv (t : Tensor) (ht : t ∈ call.operands) : t.Valid σ.store :=
    hsound.valid t (hoperands t ht)
  have hm := call.traced_meets hsound.registry hcall hv
  refine ⟨call.run_traced, hm.launches, fun f hf => ?_⟩
  have hsafe := hm.safe
  rw [call.run_traced] at hsafe
  cases hrun : call.run σ.store with
  | mk r s' =>
    rw [hrun] at hf
    cases hf
    exact hsafe.error hrun

/-- The rows of a transposed view are averaged: they are summed, and the sums are divided. -/
theorem average_of_view_suits_routines :
    ∃ (σ : Session) (t : Tensor), (Reachable HostOnly σ ∧ t ∈ σ.tensors.values ∧
        t.transposed = true) ∧
      ((Call.evaluate (.average t 1)).traced.launches σ.store).map (·.1.issue.op) =
        [.sumColumns, .divScalar] ∧
      (∀ l ∈ (Call.evaluate (.average t 1)).traced.launches σ.store, l.1.WellFormed l.2) ∧
      ((Call.evaluate (.average t 1)).run σ.store).1.isOk = true := by
  let program := [Command.ofElements "m" [2, 3] .int32 #[1, 2, 3, 4, 5, 6], .transpose "m" "v"]
  let σ := (run program (start [])).2
  let m : Tensor := ⟨[2, 3], .int32, false, 0, some 0⟩
  let v : Tensor := ⟨[3, 2], .int32, true, 0, some 0⟩
  have hprogram : ∀ c ∈ program, HostOnly c := by
    intro c hc
    simp only [program, List.mem_cons, List.not_mem_nil, or_false] at hc
    rcases hc with rfl | rfl <;> trivial
  have hσ : Reachable HostOnly σ := (reachable_start []).run hprogram
  obtain ⟨hvalues, hops, hok⟩ : σ.tensors.values = [v, m] ∧
      ((Call.evaluate (.average v 1)).traced.launches σ.store).map (·.1.issue.op) =
        [.sumColumns, .divScalar] ∧
      ((Call.evaluate (.average v 1)).run σ.store).1.isOk = true := by decide +kernel
  have hv : v ∈ σ.tensors.values := by simp [hvalues]
  have hoperands : ∀ t ∈ (Call.evaluate (.average v 1)).operands, t ∈ σ.tensors.values := by
    intro t ht
    obtain rfl := List.mem_singleton.mp ht
    exact hv
  have hsuits := @validated_call_suits_routine σ hσ (.evaluate (.average v 1)) trivial hoperands
  exact ⟨σ, v, ⟨hσ, hv, rfl⟩, hops, hsuits.2.1, hok⟩

end Session

end DeviceTensor
