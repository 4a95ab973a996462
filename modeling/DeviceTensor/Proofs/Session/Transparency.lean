import DeviceTensor.Proofs.Session.Reachable
import DeviceTensor.Proofs.Tensor.Transparency
set_option autoImplicit false

/-!
# Transposed views are transparent

In a reachable session a transposed view can be replaced by any tensor with the same elements.  Only
what is stored element by element needs an output of the shape of its input: the check of the output
compares numbers of elements, and storage orders.
-/

namespace DeviceTensor.Session

variable {σ : Session}

/-- The handle of a tensor of the session is among those of its store. -/
theorem Reachable.owned {allowed : Command → Prop} (h : Reachable allowed σ) {t : Tensor}
    (ht : t ∈ σ.tensors.values) : t.Owned σ.store where
  valid := h.sound.valid t ht
  holds := by
    refine ⟨_, h.sound.holds, fun b hb => ?_⟩
    refine List.mem_append_right _ (List.mem_append_left _ ?_)
    exact List.mem_flatMap.mpr ⟨t, ht, hb⟩

/-- With host routines only, an evaluation on tensors of a session and the evaluation on
counterparts of them fail together, unless one of them is refused memory, and if they succeed their
results are counterparts. -/
theorem evaluations_on_counterparts_agree (h : Reachable HostOnly σ) {e e' : Evaluation}
    (he : e.Proper) (hr : e.Replaces σ.store σ.store e')
    (ho : ∀ t ∈ e.operands, t ∈ σ.tensors.values) (ho' : ∀ t ∈ e'.operands, t ∈ σ.tensors.values) :
    e.Agree σ.store e' σ.store :=
  Evaluation.run_agree hr he (fun t ht => h.owned (ho t ht)) (fun t ht => h.owned (ho' t ht))
    ⟨h.onHost.registry, rfl, rfl⟩

/-- A transposed view and the matrix with its elements are multiplied with one matrix. -/
theorem products_of_view_agree :
    ∃ (σ : Session) (view plain m : Tensor), (Reachable HostOnly σ ∧ view.transposed = true ∧
        plain.transposed = false ∧ view.Counterpart σ.store plain σ.store) ∧
      ((Evaluation.product view m).run σ.store).1.isOk = true ∧
      (Evaluation.product view m).Agree σ.store (.product plain m) σ.store := by
  let program := [Command.ofElements "m" [2, 3] .int32 #[1, 2, 3, 4, 5, 6], .transpose "m" "v",
    .ofElements "p" [3, 2] .int32 #[1, 4, 2, 5, 3, 6]]
  let σ := (run program (start [])).2
  let m : Tensor := ⟨[2, 3], .int32, false, 0, some 0⟩
  let v : Tensor := ⟨[3, 2], .int32, true, 0, some 0⟩
  let p : Tensor := ⟨[3, 2], .int32, false, 0, some 1⟩
  have hprogram : ∀ c ∈ program, HostOnly c := by
    intro c hc
    simp only [program, List.mem_cons, List.not_mem_nil, or_false] at hc
    rcases hc with rfl | rfl | rfl <;> trivial
  have hσ : Reachable HostOnly σ := (reachable_start []).run hprogram
  obtain ⟨hvalues, hsame, hok⟩ : σ.tensors.values = [p, v, m] ∧
      (∀ i < 3, ∀ j < 2, p.element .int32 σ.store i j = v.element .int32 σ.store i j) ∧
      ((Evaluation.product v m).run σ.store).1.isOk = true := by decide +kernel
  clear_value σ
  have hv : v.Counterpart σ.store p σ.store :=
    ⟨rfl, rfl, .refl _, fun i j hi hj => hsame i hi j hj⟩
  refine ⟨σ, v, p, m, ⟨hσ, rfl, rfl, hv⟩, hok, ?_⟩
  refine evaluations_on_counterparts_agree hσ trivial (.product hv (.refl m σ.store)) ?_ ?_
  · simp [Evaluation.operands, hvalues]
  · simp [Evaluation.operands, hvalues]

/-- What is stored element by element depends on storage orders: the squares of a transposed view
can be stored where those of the matrix with its elements cannot, and the sums of both can be stored
in counterparts of another shape, which are none afterwards.  And what is stored at all depends on
memory: a view of a block with memory is squared in place, where a matrix with the same zeros is
refused its memory. -/
theorem replacement_shows_in_other_shapes_and_in_memory :
    (∃ (σ : Session) (view plain out out' : Tensor),
      (Reachable HostOnly σ ∧ (∀ t ∈ [view, plain, out, out'], t ∈ σ.tensors.values) ∧
        (view.transposed = true ∧ out.transposed = true) ∧
        (plain.transposed = false ∧ out'.transposed = false) ∧
        view.Counterpart σ.store plain σ.store ∧ out.Counterpart σ.store out' σ.store) ∧
      ((Computation.map .square view Double.zero).into out σ.store).1.isOk = true ∧
      ((Computation.map .square plain Double.zero).into out σ.store).1.isOk = false ∧
      ((Computation.zip .add view view).into out σ.store).1.isOk = true ∧
      ((Computation.zip .add plain plain).into out' σ.store).1.isOk = true ∧
      out'.element .int32 ((Computation.zip .add plain plain).into out' σ.store).2 0 1 ≠
        out.element .int32 ((Computation.zip .add view view).into out σ.store).2 0 1) ∧
    ∃ (σ : Session) (view plain : Tensor),
      (Reachable HostOnly σ ∧ (∀ t ∈ [view, plain], t ∈ σ.tensors.values) ∧
        view.transposed = true ∧ plain.transposed = false ∧
        view.Counterpart σ.store plain σ.store) ∧
      ((Computation.map .square view Double.zero).into view σ.store).1 = .ok () ∧
      ((Computation.map .square plain Double.zero).into plain σ.store).1 =
        .error (.allocationFailed 24 .cpp "small" (.outOfMemory 24)) := by
  refine ⟨?_, ?_⟩
  · let program := [Command.ofElements "m" [3, 2] .int32 #[1, 2, 3, 4, 5, 6], .transpose "m" "v",
      .ofElements "p" [2, 3] .int32 #[1, 3, 5, 2, 4, 6], .create "n" [2, 3] "default" .int32,
      .transpose "n" "o", .create "q" [3, 2] "default" .int32]
    let σ := (run program (start [])).2
    let v : Tensor := ⟨[2, 3], .int32, true, 0, some 0⟩
    let p : Tensor := ⟨[2, 3], .int32, false, 0, some 1⟩
    let o : Tensor := ⟨[3, 2], .int32, true, 0, some 2⟩
    let q : Tensor := ⟨[3, 2], .int32, false, 0, some 3⟩
    have hprogram : ∀ c ∈ program, HostOnly c := by
      intro c hc
      simp only [program, List.mem_cons, List.not_mem_nil, or_false] at hc
      rcases hc with rfl | rfl | rfl | rfl | rfl | rfl <;> trivial
    have hσ : Reachable HostOnly σ := (reachable_start []).run hprogram
    obtain ⟨hmem, hsame, hsame', hmap, hmap', hok, hok', hne⟩ :
        (∀ t ∈ [v, p, o, q], t ∈ σ.tensors.values) ∧
        (∀ i < 2, ∀ j < 3, p.element .int32 σ.store i j = v.element .int32 σ.store i j) ∧
        (∀ i < 3, ∀ j < 2, q.element .int32 σ.store i j = o.element .int32 σ.store i j) ∧
        ((Computation.map .square v Double.zero).into o σ.store).1.isOk = true ∧
        ((Computation.map .square p Double.zero).into o σ.store).1.isOk = false ∧
        ((Computation.zip .add v v).into o σ.store).1.isOk = true ∧
        ((Computation.zip .add p p).into q σ.store).1.isOk = true ∧
        q.element .int32 ((Computation.zip .add p p).into q σ.store).2 0 1 ≠
          o.element .int32 ((Computation.zip .add v v).into o σ.store).2 0 1 := by decide +kernel
    exact ⟨σ, v, p, o, q, ⟨hσ, hmem, ⟨rfl, rfl⟩, ⟨rfl, rfl⟩,
      ⟨rfl, rfl, .refl _, fun i j hi hj => hsame i hi j hj⟩,
      ⟨rfl, rfl, .refl _, fun i j hi hj => hsame' i hi j hj⟩⟩, hmap, hmap', hok, hok', hne⟩
  · let program := [Command.create "m" [2, 3] "small" .int32, .fill "m" Double.zero,
      .transpose "m" "v", .create "p" [3, 2] "small" .int32]
    let σ := (run program (besideHost grantingOnce)).2
    let v : Tensor := ⟨[3, 2], .int32, true, 1, some 0⟩
    let p : Tensor := ⟨[3, 2], .int32, false, 1, some 1⟩
    have hprogram : ∀ c ∈ program, HostOnly c := by
      intro c hc
      simp only [program, List.mem_cons, List.not_mem_nil, or_false] at hc
      rcases hc with rfl | rfl | rfl | rfl <;> trivial
    have hσ : Reachable HostOnly σ := (reachable_besideHost grantingOnce).run hprogram
    obtain ⟨hmem, hsame, hview, hplain⟩ : (∀ t ∈ [v, p], t ∈ σ.tensors.values) ∧
        (∀ i < 3, ∀ j < 2, p.element .int32 σ.store i j = v.element .int32 σ.store i j) ∧
        ((Computation.map .square v Double.zero).into v σ.store).1 = .ok () ∧
        ((Computation.map .square p Double.zero).into p σ.store).1 =
          .error (.allocationFailed 24 .cpp "small" (.outOfMemory 24)) := by decide +kernel
    exact ⟨σ, v, p, ⟨hσ, hmem, rfl, rfl, rfl, rfl, .refl _, fun i j hi hj => hsame i hi j hj⟩,
      hview, hplain⟩

end DeviceTensor.Session
