import DeviceTensor.Proofs.Store.Running
import DeviceTensor.Proofs.Tensor.Making
import DeviceTensor.Proofs.Tensor.WellFormed
set_option autoImplicit false

/-!
# Operations on tensors as paths

Work on the elements of tensors runs along a path without handles of its own.  An operation that
makes a tensor hands out the handle of its result, and one that changes a tensor trades the handle
that it is given: `Tensor.Trades`.  If it fails, what it was given is still there.
-/

namespace DeviceTensor

open DeviceTensor.Action

variable {P : Prop} {operands given : List BlockId}

namespace Tensor

theorem mem_of_held {t : Tensor} {b : BlockId} (ht : t.held ⊆ operands) (hb : t.block = some b) :
    b ∈ operands := by
  rw [held_of_block hb] at ht
  exact ht List.mem_cons_self

/-! ## Handles -/

theorem retain_runs {t : Tensor} (ht : t.held ⊆ operands) (s : Store) :
    Store.Runs P operands [] t.held s (t.retain s) := by
  unfold retain
  cases hb : t.block with
  | none =>
    unfold held
    rw [hb]
    exact .refl s
  | some b =>
    rw [held_of_block hb]
    exact .retain s (mem_of_held ht hb)

theorem release_runs (t : Tensor) (s : Store) :
    Store.Runs P operands t.held [] s (t.release s) := by
  unfold release
  cases hb : t.block with
  | none =>
    unfold held
    rw [hb]
    exact .refl s
  | some b =>
    rw [held_of_block hb]
    exact .release s b

/-- The handle of the old block goes, that of the new one stays. -/
theorem replace_runs (t : Tensor) (b : BlockId) (s : Store) :
    Store.Runs P operands (b :: t.held) [b] s (t.release s) :=
  (Store.Runs.perm s List.perm_append_comm).trans ((t.release_runs s).beside [b])

/-! ## Elements from the host and to it -/

section Transfers

variable {d : ElemType} {b : BlockId} {t other : Tensor}

theorem writeAt_runs (hb : b ∈ operands) (xs : Array (Elem d)) (offset : Nat) :
    (writeAt b xs offset).Within (Store.Runs P operands [] []) :=
  .bind (Block.view_runs hb d _) fun _ => .change fun s => .write s hb (Elem.size_overlay _)

theorem stageAt_runs (hb : b ∈ operands) (xs : Array (Elem d)) (offset : Nat) :
    (stageAt b xs offset).Within (Store.Runs P operands [] []) := by
  refine Block.temporary_runs _ _ fun staging => ?_
  refine .bind (Block.write_runs List.mem_cons_self xs) fun _ => .bind (.ofExcept _) fun _ => ?_
  have hdst : b ∈ staging :: operands := List.mem_cons_of_mem _ hb
  have hsrc : staging ∈ staging :: operands := List.mem_cons_self
  exact Block.copy_runs hdst hsrc _

theorem upload_runs (ht : t.held ⊆ operands) (xs : Array (Elem d)) (offset : Nat) :
    (t.upload xs offset).Within (Store.Runs P operands [] []) := by
  refine .bind (.examine _) fun _ => ?_
  split
  · exact .pure ()
  · rename_i b hb
    have hmem := mem_of_held ht hb
    exact .bind (.inspect _) fun _ => .ite (writeAt_runs hmem xs offset) (stageAt_runs hmem xs offset)

theorem readStaged_runs (hb : b ∈ operands) (d : ElemType) (count size : Nat) :
    (readStaged b d count size).Within (Store.Runs P operands [] []) := by
  refine Block.temporary_runs _ _ fun staging => ?_
  have hdst : staging ∈ staging :: operands := List.mem_cons_self
  have hsrc : b ∈ staging :: operands := List.mem_cons_of_mem _ hb
  exact .bind (Block.copy_runs hdst hsrc _) fun _ => Block.view_runs hdst d count

theorem read_runs (ht : t.held ⊆ operands) (d : ElemType) :
    (t.read d).Within (Store.Runs P operands [] []) := by
  refine .bind (.ofExcept _) fun _ => ?_
  split
  · exact .pure _
  · rename_i b hb
    have hmem := mem_of_held ht hb
    refine .bind (.inspect _) fun _ => .bind (.inspect _) fun _ => .bind (.inspect _) fun _ => ?_
    exact .ite (Block.view_runs hmem d _) (readStaged_runs hmem d _ _)

/-! ## Between tensors -/

theorem copyFrom_runs (ht : t.held ⊆ operands) (ho : other.held ⊆ operands) :
    (t.copyFrom other).Within (Store.Runs P operands [] []) := by
  unfold copyFrom
  split
  · rename_i dst src hdst hsrc
    exact .bind (.inspect _) fun _ => Block.copy_runs (mem_of_held ht hdst) (mem_of_held ho hsrc) _
  · exact .pure ()

/-- The second range of a copy is a range of the block that is copied. -/
theorem source_of_planCopyRange {count dstOffset srcOffset : Nat}
    {plan : Block.Range × Block.Range × Nat}
    (h : planCopyRange t other count dstOffset srcOffset = .ok plan) :
    other.block = some plan.2.1.block := by
  unfold planCopyRange at h
  obtain ⟨-, h⟩ := Except.unless_ne_eq_ok_iff.mp h
  obtain ⟨dst, -, h⟩ := Except.bind_eq_ok_iff.mp h
  obtain ⟨start, -, h⟩ := Except.bind_eq_ok_iff.mp h
  obtain ⟨src, hsrc, h⟩ := Except.bind_eq_ok_iff.mp h
  obtain ⟨start', -, h⟩ := Except.bind_eq_ok_iff.mp h
  obtain ⟨size, -, h⟩ := Except.bind_eq_ok_iff.mp h
  cases h
  exact requireBlock_eq_ok_iff.mp hsrc

theorem copyRange_runs (ht : t.held ⊆ operands) (ho : other.held ⊆ operands)
    (count dstOffset srcOffset : Nat) :
    (t.copyRange other count dstOffset srcOffset).Within (Store.Runs P operands [] []) := by
  refine .ofExcept_bind fun plan hplan => ?_
  have hdst := mem_of_held ht (block_of_planCopyRange hplan)
  have hsrc := mem_of_held ho (source_of_planCopyRange hplan)
  exact Block.copy_runs hdst hsrc plan.2.2

/-! ## Launches on a tensor -/

theorem castTo_runs {target : BlockId} (hb : b ∈ operands) (htarget : target ∈ operands)
    (t : Tensor) (d : ElemType) :
    (t.castTo b d target).Within (Store.Runs P operands [] []) := by
  refine .bind (.inspect _) fun _ => .bind (.inspect _) fun _ => .ite ?_ (.pure ())
  refine launch_runs (fun c hc => ?_) htarget _ _ fun hop => absurd hop (by decide)
  obtain rfl := List.mem_singleton.mp hc
  exact hb

theorem fill_runs (ht : t.held ⊆ operands) (x : Double) :
    (t.fill x).Within (Store.Runs P operands [] []) := by
  unfold fill
  split
  · exact .pure ()
  · rename_i b hb
    refine .bind (.inspect _) fun _ => ?_
    exact launch_runs (List.nil_subset _) (mem_of_held ht hb) _ _ fun hop => absurd hop (by decide)

theorem fillSamples_runs (hdraws : P) (ht : t.held ⊆ operands) (D : Distribution) :
    (t.fillSamples D).Within (Store.Runs P operands [] []) := by
  refine .ofExcept_bind fun dst hdst => .bind (.inspect _) fun _ => ?_
  have hmem := mem_of_held ht (requireBlock_eq_ok_iff.mp hdst)
  exact launch_runs (List.nil_subset _) hmem _ _ fun _ => hdraws

end Transfers

end Tensor

/-! ## Computations -/

namespace Computation

open Tensor

variable {c : Computation} {out : Tensor} {s : Store} {i : Issue}

/-- A computation reads the blocks of its inputs. -/
theorem inputs_of_plan (h : c.plan out s = .ok i) :
    i.inv.inputs ⊆ c.inputs.flatMap Tensor.held := by
  have hone {t : Tensor} {make : BlockId → BlockId → Invocation} {inv : Invocation}
      (hmake : ∀ dst src, (make dst src).inputs = [src]) (h : PlansOne t out make inv) :
      inv.inputs ⊆ [t].flatMap Tensor.held := by
    obtain ⟨dst, -, src, hsrc, rfl⟩ := h
    rw [hmake, List.flatMap_singleton, held_of_block hsrc]
    exact List.Subset.refl _
  have htwo {lhs rhs : Tensor} {make : BlockId → BlockId → BlockId → Invocation}
      {inv : Invocation} (hmake : ∀ dst left right, (make dst left right).inputs = [left, right])
      (h : PlansTwo lhs rhs out make inv) : inv.inputs ⊆ [lhs, rhs].flatMap Tensor.held := by
    obtain ⟨dst, -, left, hleft, right, hright, rfl⟩ := h
    rw [hmake, List.flatMap_cons, List.flatMap_singleton, held_of_block hleft,
      held_of_block hright]
    exact List.Subset.refl _
  cases c with
  | map op t x =>
    obtain ⟨inv, hinv, rfl⟩ := Issue.planned_iff.mp h
    exact hone (fun _ _ => rfl) (planMap_eq_ok_iff.mp hinv).2
  | zip op lhs rhs =>
    obtain ⟨inv, hinv, rfl⟩ := Issue.planned_iff.mp h
    exact htwo (fun _ _ _ => rfl) (planZip_eq_ok_iff.mp hinv).2.2.2
  | sums which t =>
    obtain ⟨inv, hinv, rfl⟩ := Issue.planned_iff.mp h
    obtain ⟨dims, -, hinv⟩ := Except.bind_eq_ok_iff.mp hinv
    exact hone (fun _ _ => rfl) (planSums_eq_ok_iff.mp hinv).2
  | sumAxis t axis =>
    obtain ⟨c, -, h⟩ := Except.bind_eq_ok_iff.mp h
    obtain ⟨inv, hinv, rfl⟩ := Issue.planned_iff.mp h
    exact hone (fun _ _ => rfl) (planSums_eq_ok_iff.mp hinv).2
  | softmax t axis =>
    obtain ⟨inv, hinv, rfl⟩ := Issue.planned_iff.mp h
    obtain ⟨-, -, rows, -, cols, -, hinv⟩ := planSoftmax_eq_ok_iff.mp hinv
    exact hone (fun _ _ => rfl) hinv
  | product alpha a b beta =>
    obtain ⟨inv, hinv, rfl⟩ := Issue.planned_iff.mp h
    obtain ⟨-, p, -, count, -, -, -, hinv⟩ := planProduct_eq_ok_iff.mp hinv
    exact htwo (fun _ _ _ => rfl) hinv
  | broadcast op alpha beta v =>
    obtain ⟨inv, hinv, rfl⟩ := Issue.planned_iff.mp h
    obtain ⟨-, dims, -, -, hinv⟩ := planBroadcast_eq_ok_iff.mp hinv
    exact hone (fun _ _ => rfl) hinv
  | addScaled alpha t =>
    obtain ⟨inv, hinv, rfl⟩ := Issue.planned_iff.mp h
    exact hone (fun _ _ => rfl) (planAddScaled_eq_ok_iff.mp hinv).2.2

/-- No operation of a computation's own family P samples. -/
theorem not_sampling_of_plan (hc : c.Proper) (h : c.plan out s = .ok i) :
    i.op ∉ Operation.sampling := by
  cases c with
  | map op t x =>
    obtain ⟨inv, -, rfl⟩ := Issue.planned_iff.mp h
    exact (by decide : ∀ op ∈ Operation.pointwise, op ∉ Operation.sampling) op hc
  | zip op lhs rhs =>
    obtain ⟨inv, -, rfl⟩ := Issue.planned_iff.mp h
    exact (by decide : ∀ op ∈ Operation.pairwise, op ∉ Operation.sampling) op hc
  | sums which t =>
    obtain ⟨inv, -, rfl⟩ := Issue.planned_iff.mp h
    exact which.not_sampling
  | sumAxis t axis =>
    obtain ⟨c, -, h⟩ := Except.bind_eq_ok_iff.mp h
    obtain ⟨inv, -, rfl⟩ := Issue.planned_iff.mp h
    exact c.which.not_sampling
  | softmax t axis =>
    obtain ⟨inv, -, rfl⟩ := Issue.planned_iff.mp h
    exact (by decide : Operation.softMax ∉ Operation.sampling)
  | product alpha a b beta =>
    obtain ⟨inv, -, rfl⟩ := Issue.planned_iff.mp h
    exact (by decide : Operation.gemm ∉ Operation.sampling)
  | broadcast op alpha beta v =>
    obtain ⟨inv, -, rfl⟩ := Issue.planned_iff.mp h
    exact (by decide : ∀ op ∈ Operation.broadcasting, op ∉ Operation.sampling) op hc
  | addScaled alpha t =>
    obtain ⟨inv, -, rfl⟩ := Issue.planned_iff.mp h
    exact (by decide : Operation.axpy ∉ Operation.sampling)

/-- A computation P samples only if it is not of its own family. -/
theorem into_runs (hin : c.inputs.flatMap Tensor.held ⊆ operands) (hout : out.held ⊆ operands)
    (hdraws : ¬c.Proper → P) : (c.into out).Within (Store.Runs P operands [] []) := by
  intro s
  rw [c.into_eq out s, bind_apply]
  unfold Action.examine
  dsimp only
  cases hplan : c.plan out s with
  | error f => exact .refl s
  | ok i =>
    have hinputs : i.inv.inputs ⊆ operands := fun b hb => hin (inputs_of_plan hplan hb)
    refine launch_runs hinputs (mem_of_held hout (block_of_plan hplan)) i.op i.dtype (fun hop => ?_) s
    exact hdraws fun hc => not_sampling_of_plan hc hplan hop

end Computation

namespace Tensor

/-! ## Making tensors -/

/-- The action trades the handles `given` for that of its result; if it fails, they are still
there. -/
def Trades (P : Prop) (operands given : List BlockId) (x : Action Fault Tensor) : Prop :=
  ∀ s, x.Ends s (fun t s' => Store.Runs P operands given t.held s s')
    (fun _ s' => Store.Runs P operands given given s s')

theorem onDevice_trades (shape : Shape) (d : DeviceId) (dtype : ElemType) :
    Trades P operands [] (onDevice shape d dtype) := by
  intro s
  unfold onDevice
  rw [ends_bind, ends_ofExcept]
  exact ⟨fun n _ => .acquire s d n, fun _ _ => .refl s⟩

theorem blankLike_trades (t : Tensor) : Trades P operands [] t.blankLike := by
  intro s
  unfold blankLike
  rw [ends_bind]
  exact (onDevice_trades t.shape t.device t.dtype s).mono (fun _ _ h => h) fun _ _ h => h

/-- A tensor that is made and then worked on. -/
theorem building_trades {make : Action Fault Tensor} {work : Tensor → Action Fault Unit}
    (hm : Trades P operands [] make)
    (hw : ∀ t, (work t).Within (Store.Runs P (t.held ++ operands) [] [])) :
    Trades P operands [] (building make work) := by
  intro s
  unfold building
  rw [ends_bind]
  refine (hm s).mono (fun t s₁ h => ?_) fun _ _ h => h
  rw [ends_bind, ends_onFailure]
  refine ((hw t).ends s₁).mono (fun _ _ h' => ?_) fun _ s₂ h' => ?_
  · exact h.trans (h'.onGiven _)
  · exact (h.trans (h'.onGiven _)).trans (t.release_runs s₂)

/-- A tensor that is made and then computed. -/
theorem building_into_trades {make : Action Fault Tensor} {c : Computation}
    (hm : Trades P operands [] make) (hin : c.inputs.flatMap Tensor.held ⊆ operands)
    (hdraws : ¬c.Proper → P) : Trades P operands [] (building make c.into) := by
  refine building_trades hm fun out => Computation.into_runs (fun b hb => ?_) ?_ hdraws
  · exact List.mem_append_right _ (hin hb)
  · exact List.subset_append_left _ _

variable {t : Tensor}

theorem share_trades (ht : t.held ⊆ operands) : Trades P operands [] t.share :=
  fun s => retain_runs ht s

theorem transpose_trades (ht : t.held ⊆ operands) : Trades P operands [] t.transpose := by
  intro s
  unfold transpose
  split
  · exact retain_runs ht s
  · exact .refl s

theorem duplicate_trades (ht : t.held ⊆ operands) : Trades P operands [] t.duplicate := by
  intro s
  unfold duplicate
  rw [ends_bind]
  refine (t.blankLike_trades s).mono (fun out s₁ h => ?_) fun _ _ h => h
  split
  · exact h.trans (out.release_runs s₁)
  · have hcopy : (if t.isBound s₁ then out.copyFrom t else return ()).Within
        (Store.Runs P (out.held ++ operands) [] []) := by
      refine .ite (copyFrom_runs (List.subset_append_left _ _) fun b hb => ?_) (.pure ())
      exact List.mem_append_right _ (ht hb)
    rw [ends_bind, ends_inspect, ends_bind, ends_onFailure]
    refine (hcopy.ends s₁).mono (fun _ _ h' => ?_) fun _ s₂ h' => ?_
    · exact h.trans (h'.onGiven _)
    · exact (h.trans (h'.onGiven _)).trans (out.release_runs s₂)

theorem ofElements_trades {d : ElemType} (shape : Shape) (xs : Array (Elem d)) :
    Trades P operands [] (ofElements shape xs) := by
  intro s
  unfold ofElements
  rw [ends_bind, ends_ofExcept]
  refine ⟨fun n _ => ?_, fun _ _ => .refl s⟩
  split
  · exact .refl s
  · refine building_trades (onDevice_trades shape _ d) (fun out => ?_) s
    exact upload_runs (List.subset_append_left _ _) xs 0

/-! ## Changing tensors -/

theorem resize_trades (shape : Shape) : Trades P operands t.held (t.resize shape) := by
  intro s
  unfold resize
  rw [ends_bind, ends_ofExcept]
  refine ⟨fun n _ => ?_, fun _ _ => .refl s⟩
  rw [ends_bind, ends_inspect]
  split
  · exact .refl s
  · exact ((Store.Runs.acquire s t.device n).beside t.held).trans (t.replace_runs _ _)

theorem reshape_trades (shape : Shape) : Trades P operands t.held (t.reshape shape) := by
  unfold reshape
  split
  · exact resize_trades shape
  · intro s
    rw [ends_bind, ends_ofExcept]
    exact ⟨fun _ _ => .refl s, fun _ _ => .refl s⟩

theorem reshaped_trades (ht : t.held ⊆ operands) (shape : Shape) :
    Trades P operands [] (t.reshaped shape) := by
  intro s
  unfold reshaped
  rw [ends_bind]
  refine (share_trades ht s).mono (fun out s₁ h => ?_) fun _ _ h => h
  rw [ends_onFailure]
  refine (reshape_trades shape s₁).mono (fun _ _ h' => h.trans h') fun _ s₂ h' => ?_
  exact (h.trans h').trans (out.release_runs s₂)

theorem takeForm_trades (other : Tensor) : Trades P operands t.held (t.takeForm other) := by
  intro s
  unfold takeForm
  rw [ends_bind, ends_inspect]
  split
  · exact .refl s
  · split
    · rename_i hb
      have hnone : other.held = [] := by
        unfold held
        rw [hb]
        rfl
      rw [ends_bind, ends_change, ends_pure, hnone]
      exact t.release_runs s
    · exact ((Store.Runs.acquire s other.device _).beside t.held).trans (t.replace_runs _ _)

/-- The new block is given up again. -/
theorem giveUp_runs (t : Tensor) (target : BlockId) (s : Store) :
    Store.Runs P operands (target :: t.held) t.held s (s.release target) :=
  (Store.Runs.release s target).beside t.held

theorem convert_trades (d : ElemType) : Trades P operands t.held (t.convert d) := by
  unfold convert
  split
  · exact fun s => .refl s
  · split
    · exact fun s => .refl s
    · rename_i b hb
      have hheld := held_of_block hb
      intro s
      rw [ends_bind, ends_examine]
      refine ⟨fun n _ => ?_, fun _ _ => .refl s⟩
      rw [ends_bind, ends_inspect]
      split
      · have hmem : b ∈ t.held ++ operands := by
          rw [hheld]
          exact List.mem_cons_self
        have hcast := castTo_runs (P := P) hmem hmem t d
        rw [ends_bind]
        exact (hcast.ends s).mono (fun _ _ h => h.onGiven _) fun _ _ h => h.onGiven _
      · have hacquire : Store.Runs P operands t.held (s.blocks.size :: t.held) s
            (s.acquire t.device n).2 := (Store.Runs.acquire s t.device n).beside t.held
        have hmem : b ∈ s.blocks.size :: t.held ++ operands := by
          rw [hheld]
          exact List.mem_cons_of_mem _ List.mem_cons_self
        have hcast := castTo_runs (P := P) hmem List.mem_cons_self t d
        rw [ends_bind, ends_changing, ends_bind, ends_onFailure]
        refine (hcast.ends _).mono (fun _ s₁ h => ?_) fun _ s₁ h => ?_
        · exact (hacquire.trans (h.onGiven _)).trans (t.replace_runs _ s₁)
        · exact (hacquire.trans (h.onGiven _)).trans (t.giveUp_runs _ s₁)

theorem moveTo_trades (d : DeviceId) : Trades P operands t.held (t.moveTo d) := by
  unfold moveTo
  split
  · exact fun s => .refl s
  · split
    · exact fun s => .refl s
    · rename_i b hb
      have hheld := held_of_block hb
      intro s
      have hacquire : Store.Runs P operands t.held (s.blocks.size :: t.held) s
          (s.acquire d (s.block b).size).2 := (Store.Runs.acquire s d _).beside t.held
      have hnew : s.blocks.size ∈ s.blocks.size :: t.held ++ operands := List.mem_cons_self
      have hmem : b ∈ s.blocks.size :: t.held ++ operands := by
        rw [hheld]
        exact List.mem_cons_of_mem _ List.mem_cons_self
      have hcopy : (if t.isBound s then
          Block.copy ⟨s.blocks.size, 0⟩ ⟨b, 0⟩ (s.block b).size else return ()).Within
            (Store.Runs P (s.blocks.size :: t.held ++ operands) [] []) :=
        .ite (Block.copy_runs hnew hmem _) (.pure ())
      unfold moveBlock
      rw [ends_bind, ends_inspect, ends_bind, ends_inspect, ends_bind, ends_changing, ends_bind,
        ends_onFailure]
      refine (hcopy.ends _).mono (fun _ s₁ h => ?_) fun _ s₁ h => ?_
      · exact (hacquire.trans (h.onGiven _)).trans (t.replace_runs _ s₁)
      · exact (hacquire.trans (h.onGiven _)).trans (t.giveUp_runs _ s₁)

/-! ## Computed tensors -/

section Computed

variable {a b lhs rhs : Tensor}

theorem held_two_subset (ha : a.held ⊆ operands) (hb : b.held ⊆ operands) :
    [a, b].flatMap Tensor.held ⊆ operands := by
  rw [List.flatMap_cons, List.flatMap_singleton]
  exact List.append_subset.mpr ⟨ha, hb⟩

theorem held_one_subset (ha : a.held ⊆ operands) : [a].flatMap Tensor.held ⊆ operands := by
  rw [List.flatMap_singleton]
  exact ha

theorem map_trades (ht : t.held ⊆ operands) (op : Operation) (x : Double)
    (hdraws : op ∉ Operation.pointwise → P) : Trades P operands [] (t.map op x) :=
  building_into_trades (c := .map op t x) t.blankLike_trades (held_one_subset ht) hdraws

theorem zip_trades (hl : lhs.held ⊆ operands) (hr : rhs.held ⊆ operands) (op : Operation)
    (hdraws : op ∉ Operation.pairwise → P) : Trades P operands [] (lhs.zip op rhs) :=
  building_into_trades (c := .zip op lhs rhs) lhs.blankLike_trades (held_two_subset hl hr) hdraws

/-- The handle on the right side of an operator. -/
def RightSide.held : RightSide → List BlockId
  | .tensor t => t.held
  | .scalar _ => []

theorem operate_trades (ht : t.held ⊆ operands) (f : Operator) {right : RightSide}
    (hr : right.held ⊆ operands) : Trades P operands [] (t.operate f right) := by
  have hproper := Computation.proper_ofAssign f t right
  cases right with
  | tensor other => exact zip_trades ht hr _ fun h => absurd hproper h
  | scalar x => exact map_trades ht _ x fun h => absurd hproper h

theorem assign_runs (ht : t.held ⊆ operands) (f : Operator) {right : RightSide}
    (hr : right.held ⊆ operands) :
    (assign f t right).Within (Store.Runs P operands [] []) := by
  have hproper := Computation.proper_ofAssign f t right
  rw [Computation.assign_eq]
  refine Computation.into_runs ?_ ht fun h => absurd hproper h
  cases right with
  | tensor other => exact held_two_subset ht hr
  | scalar x => exact held_one_subset ht

theorem sums_trades (ht : t.held ⊆ operands) (which : Summation) :
    Trades P operands [] (t.sums which) := by
  intro s
  unfold sums
  rw [ends_bind, ends_ofExcept]
  refine ⟨fun dims _ => ?_, fun _ _ => .refl s⟩
  exact building_into_trades (c := .sums which t) (onDevice_trades _ _ _) (held_one_subset ht)
    (fun h => absurd trivial h) s

theorem sumAxis_trades (ht : t.held ⊆ operands) (axis : Nat) :
    Trades P operands [] (t.sumAxis axis) := by
  intro s
  unfold sumAxis
  rw [ends_bind, ends_ofExcept]
  refine ⟨fun c _ => ?_, fun _ _ => .refl s⟩
  exact building_into_trades (c := .sumAxis t axis) (onDevice_trades _ _ _) (held_one_subset ht)
    (fun h => absurd trivial h) s

theorem average_trades (ht : t.held ⊆ operands) (axis : Nat) :
    Trades P operands [] (t.average axis) := by
  intro s
  unfold average
  rw [ends_bind, ends_ofExcept]
  refine ⟨fun c _ => ?_, fun _ _ => .refl s⟩
  refine building_trades (sumAxis_trades ht axis) (fun out => ?_) s
  exact assign_runs (List.subset_append_left _ _) .div (List.nil_subset _)

theorem softmax_trades (ht : t.held ⊆ operands) (axis : Nat) :
    Trades P operands [] (t.softmax axis) :=
  building_into_trades (c := .softmax t axis) t.blankLike_trades (held_one_subset ht)
    fun h => absurd trivial h

theorem product_trades (ha : a.held ⊆ operands) (hb : b.held ⊆ operands) :
    Trades P operands [] (a.product b) := by
  intro s
  unfold product
  rw [ends_bind, ends_examine]
  refine ⟨fun _ _ => ?_, fun _ _ => .refl s⟩
  rw [ends_bind, ends_ofExcept]
  refine ⟨fun p _ => ?_, fun _ _ => .refl s⟩
  exact building_into_trades (c := .product Double.one a b Double.zero) (onDevice_trades _ _ _)
    (held_two_subset ha hb) (fun h => absurd trivial h) s

end Computed

/-! ## Numbers from whole tensors -/

theorem reduceBlock_runs {b : BlockId} {op : Operation} {out : Tensor} (hb : b ∈ operands)
    (hop : op ∉ Operation.sampling) (hout : out.held ⊆ operands) (t : Tensor) :
    (t.reduceBlock b op out).Within (Store.Runs P operands [] []) := by
  refine .ofExcept_bind fun dst hdst => .bind (.inspect _) fun _ => ?_
  have hmem := mem_of_held hout (requireBlock_eq_ok_iff.mp hdst)
  have hlaunch {inv : Invocation} (hin : inv.inputs = [b]) (ho : inv.output = dst) :
      (launch op t.dtype inv).Within (Store.Runs P operands [] []) := by
    refine launch_runs (fun c hc => ?_) (ho ▸ hmem) _ _ fun h => absurd h hop
    rw [hin] at hc
    obtain rfl := List.mem_singleton.mp hc
    exact hb
  exact .bind (hlaunch rfl rfl) fun _ => .bind (read_runs hout _) fun _ => .ofExcept _

theorem reduce_runs (ht : t.held ⊆ operands) {op : Operation} (hop : op ∉ Operation.sampling) :
    (t.reduce op).Within (Store.Runs P operands [] []) := by
  unfold reduce
  split
  · exact .pure _
  · rename_i b hb
    have hmem := mem_of_held ht hb
    have hwork (out : BlockId) :
        (t.reduceBlock b op ⟨[1], .float64, false, t.device, some out⟩).Within
          (Store.Runs P (out :: operands) [] []) := by
      refine reduceBlock_runs (List.mem_cons_of_mem _ hmem) hop ?_ t
      exact List.cons_subset_cons _ (List.nil_subset _)
    exact Block.temporary_runs t.device 8 hwork

theorem norm_runs (ht : t.held ⊆ operands) :
    t.norm.Within (Store.Runs P operands [] []) :=
  .bind (reduce_runs ht (by decide)) fun _ => .pure _

theorem sum_runs (ht : t.held ⊆ operands) (d : ElemType) :
    (t.sum d).Within (Store.Runs P operands [] []) := by
  refine .bind (reduce_runs ht (by decide)) fun total => ?_
  split
  · exact .pure _
  · exact .fail _

end Tensor

end DeviceTensor
