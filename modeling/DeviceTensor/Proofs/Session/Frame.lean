import DeviceTensor.Proofs.Session.Conduct
import DeviceTensor.Proofs.Session.Reachable
set_option autoImplicit false

/-!
# What commands leave alone

A command changes the bytes of its destination and of no other block, and the tensor in the slot
that it fills and no other, whether it succeeds, is refused, or traps in the middle of a kernel.
-/

namespace DeviceTensor

namespace Session

open DeviceTensor.Action

variable {allowed : Command → Prop} {σ : Session}

/-! ## Tensors in slots -/

theorem withTensor_some {name : String} {t : Tensor} (h : σ.tensors.get? name = some t) (s : Store)
    (next : Tensor → Session → Reply × Session) :
    withTensor name next { σ with store := s } = next t { σ with store := s } := by
  unfold withTensor
  rw [show Session.tensors { σ with store := s } = σ.tensors from rfl, h]

theorem withTensor_none {name : String} (h : σ.tensors.get? name = none)
    (next : Tensor → Session → Reply × Session) : withTensor name next σ = (.badRequest, σ) := by
  unfold withTensor
  rw [h]

/-- The block of a tensor is held without any other slot. -/
theorem mem_handlesWithout {name other : String} {t : Tensor} {b : BlockId} (hne : name ≠ other)
    (h : σ.tensors.get? other = some t) (hb : t.block = some b) : b ∈ σ.handlesWithout name := by
  have hmem : t ∈ (σ.tensors.erase name).values :=
    Slots.mem_of_get? ((Slots.get?_erase_of_ne hne).trans h)
  exact List.mem_append_left _ (List.mem_flatMap.mpr ⟨t, hmem, Option.mem_toList.mpr hb⟩)

section Outcomes

variable {name : String} {t t' : Tensor} {s : Store} {f : Fault}

theorem perform_of_ok {α : Type} {x : Action Fault α} {a : α} (hrun : x σ.store = (.ok a, s))
    (next : α → Session → Reply × Session) :
    perform x next σ = next a { σ with store := s } := by
  unfold perform
  rw [hrun]

theorem perform_of_error {α : Type} {x : Action Fault α} (hrun : x σ.store = (.error f, s))
    (next : α → Session → Reply × Session) :
    perform x next σ = (faulted f, { σ with store := s }) := by
  unfold perform
  rw [hrun]

/-- A tensor that was changed is in its slot in its new form. -/
theorem changeTensor_of_ok {x : Tensor → Action Fault Tensor}
    (h : σ.tensors.get? name = some t) (hrun : x t σ.store = (.ok t', s)) :
    changeTensor name x σ =
      (.tensor (t'.report s), { σ with store := s, tensors := σ.tensors.put name t' }) :=
  (withTensor_some h σ.store _).trans (perform_of_ok hrun _)

/-- A tensor that was not changed stays in its slot. -/
theorem changeTensor_of_error {x : Tensor → Action Fault Tensor}
    (h : σ.tensors.get? name = some t) (hrun : x t σ.store = (.error f, s)) :
    changeTensor name x σ = (faulted f, { σ with store := s }) :=
  (withTensor_some h σ.store _).trans (perform_of_error hrun _)

end Outcomes

/-! ## Chained assignments -/

/-- The second reply is that of a second run on the store that the first has left, or the first
failed and the second is the first. -/
def Repeats (σ : Session) (once twice : Session → Reply × Session) : Prop :=
  (∃ s, (once σ).2 = { σ with store := s } ∧ twice σ = once { σ with store := s }) ∨
    twice σ = once σ

/-- An assignment, or two. -/
def assigning (f : Tensor.Operator) (rhs : Tensor.RightSide) (twice : Bool) (t : Tensor) :
    Action Fault Unit := do
  t.assign f rhs
  if twice then t.assign f rhs

theorem perform_repeats (f : Tensor.Operator) (rhs : Tensor.RightSide) (t : Tensor) (σ : Session) :
    Repeats σ (perform (assigning f rhs false t) fun () => reportTensor t)
      (perform (assigning f rhs true t) fun () => reportTensor t) := by
  have hrun (twice : Bool) (s : Store) : assigning f rhs twice t s =
      match t.assign f rhs s with
      | (.ok _, s) => (if twice then t.assign f rhs else Pure.pure ()) s
      | (.error e, s) => (.error e, s) := by
    unfold assigning
    rw [bind_apply]
    cases t.assign f rhs s with
    | mk r s' => cases r <;> rfl
  unfold Repeats perform
  rw [hrun, hrun]
  cases t.assign f rhs σ.store with
  | mk r s =>
    cases r with
    | error e => exact .inr rfl
    | ok u =>
      refine .inl ⟨s, rfl, ?_⟩
      dsimp only
      rw [hrun, if_pos rfl]
      cases t.assign f rhs s with
      | mk r' s' => cases r' <;> rfl

theorem workOn_repeats (f : Tensor.Operator) (rhs : Tensor.RightSide) (name : String)
    (σ : Session) :
    Repeats σ (workOn name (assigning f rhs false)) (workOn name (assigning f rhs true)) := by
  unfold workOn
  cases ht : σ.tensors.get? name with
  | none => exact .inr ((withTensor_none ht _).trans (withTensor_none ht _).symm)
  | some t =>
    have hon (twice : Bool) (s : Store) := withTensor_some ht s
      fun t => perform (assigning f rhs twice t) fun () => reportTensor t
    unfold Repeats
    rw [hon false σ.store, hon true σ.store]
    rcases perform_repeats f rhs t σ with ⟨s, hs, htwice⟩ | htwice
    · exact .inl ⟨s, hs, htwice.trans (hon false s).symm⟩
    · exact .inr htwice

/-- A chained assignment is two assignments, or one that failed. -/
theorem step_assign_repeats (f : Tensor.Operator) (t : String) (rhs : Rhs) (σ : Session) :
    Repeats σ (step (.assign f t rhs false)) (step (.assign f t rhs true)) := by
  cases rhs with
  | number x => exact workOn_repeats f (.scalar x) t σ
  | named name =>
    have hstep (twice : Bool) : step (.assign f t (.named name) twice) =
        withTensor name fun r => workOn t (assigning f (.tensor r) twice) := rfl
    rw [hstep, hstep]
    cases hr : σ.tensors.get? name with
    | none => exact .inr ((withTensor_none hr _).trans (withTensor_none hr _).symm)
    | some r =>
      have hon (twice : Bool) (s : Store) := withTensor_some hr s
        fun r => workOn t (assigning f (.tensor r) twice)
      unfold Repeats
      rw [hon false σ.store, hon true σ.store]
      rcases workOn_repeats f (.tensor r) t σ with ⟨s, hs, htwice⟩ | htwice
      · exact .inl ⟨s, hs, htwice.trans (hon false s).symm⟩
      · exact .inr htwice

/-! ## Frames -/

/-- What a command may change: the bytes of `dst`, the tensor in slot `recv`, and the block in slot
`brecv`. -/
structure Frames (dst : Option BlockId) (recv brecv : Option String) (σ σ' : Session) : Prop where
  bytes : σ.store.Leaves dst σ'.store
  tensors : ∀ name, recv ≠ some name → σ'.tensors.get? name = σ.tensors.get? name
  blocks : ∀ name, brecv ≠ some name → σ'.blocks.get? name = σ.blocks.get? name

theorem Conduct.frames {op? : Option Operation} {denies : Fault → Prop} {dst : Option BlockId}
    {recv brecv : Option String} {r : Reply × Session}
    (h : Conduct op? denies dst recv brecv σ r) : Frames dst recv brecv σ r.2 :=
  ⟨h.leaves, h.tensors, h.blocks⟩

theorem Frames.trans {dst : Option BlockId} {recv brecv : Option String} {σ₁ σ₂ : Session}
    (h : Frames dst recv brecv σ σ₁) (h' : Frames dst recv brecv σ₁ σ₂) :
    Frames dst recv brecv σ σ₂ where
  bytes := h.bytes.trans h'.bytes
  tensors name hne := (h'.tensors name hne).trans (h.tensors name hne)
  blocks name hne := (h'.blocks name hne).trans (h.blocks name hne)

theorem step_frames {P : Registry Routine → Prop} (h : σ.Sound P []) (c : Command)
    (hc : P σ.store.registry → P (registers c σ.store.registry)) :
    Frames (c.destination? σ) c.receiver? c.blockReceiver? σ (step c σ).2 := by
  by_cases hsingle : c.Single
  · exact (step_conduct h c hsingle).frames
  · cases c with
    | assign f t rhs twice =>
      obtain rfl : twice = true := by simpa [Command.Single] using hsingle
      have hfirst := (step_conduct h (.assign f t rhs false) rfl).frames
      rcases step_assign_repeats f t rhs σ with ⟨s, hs, htwice⟩ | htwice
      · have hsound := step_sound h (.assign f t rhs false) fun hr => hr
        rw [hs] at hfirst hsound
        rw [htwice]
        exact hfirst.trans (step_conduct hsound (.assign f t rhs false) rfl).frames
      · rw [htwice]
        exact hfirst
    | _ => exact absurd trivial hsingle

/-- In every reachable session, whatever the outcome of a command, the bytes of every block but its
destination are as before, unless the last holder of the block let go of it, and so is what every
tensor says of itself but the one in the slot that the command fills.  A conversion writes an
existing block only if no other holder shares it. -/
theorem command_changes_destination_only (h : Reachable allowed σ) (c : Command) :
    (∀ b, b < σ.store.blocks.size → c.destination? σ ≠ some b →
      ((step c σ).2.store.block b).memory ≠ .released →
      ((step c σ).2.store.block b).contents = (σ.store.block b).contents) ∧
    (∀ b ∈ (step c σ).2.handles, ((step c σ).2.store.block b).memory ≠ .released) ∧
    (∀ name, c.receiver? ≠ some name →
      (step c σ).2.tensors.get? name = σ.tensors.get? name) ∧
    (∀ name, c.blockReceiver? ≠ some name →
      (step c σ).2.blocks.get? name = σ.blocks.get? name) ∧
    (∀ t d b, c = .convert t d → c.destination? σ = some b → (σ.store.block b).handles = 1) := by
  have hframes := step_frames h.sound c fun _ => trivial
  have hsound := step_sound h.sound c fun _ => trivial
  refine ⟨hframes.bytes.contents, fun b hb hr => ?_, hframes.tensors, hframes.blocks, ?_⟩
  · exact hsound.holds.released b hr hb
  · rintro t d b rfl hdst
    obtain ⟨u, -, hsole⟩ := Option.bind_eq_some_iff.mp hdst
    exact of_decide_eq_true (Option.filter_eq_some_iff.mp hsole).2

/-- A division that traps at its second element has written its first, and nothing else. -/
theorem halted_division_changes_destination_only :
    ∃ (σ : Session) (c : Command), Reachable HostOnly σ ∧ c.destination? σ = some 0 ∧
      (step c σ).1 = .failed (.fault (.trap .divisionByZero)) ∧
      ((step c σ).2.store.block 0).contents ≠ (σ.store.block 0).contents ∧
      ((step c σ).2.store.block 1).contents = (σ.store.block 1).contents ∧
      (step c σ).2.tensors.get? "view" = σ.tensors.get? "view" := by
  let program := [Command.ofElements "a" [2] .int32 #[6, 4], .ofElements "b" [2] .int32 #[2, 0],
    .share "b" "view"]
  let c := Command.assign .div "a" (.named "b") false
  let σ := (run program (start [])).2
  have hprogram : ∀ c ∈ program, HostOnly c := by
    intro c hc
    simp only [program, List.mem_cons, List.not_mem_nil, or_false] at hc
    rcases hc with rfl | rfl | rfl <;> trivial
  have hσ : Reachable HostOnly σ := (reachable_start []).run hprogram
  obtain ⟨hdst, hreply, hwritten, hlt, hlive⟩ : c.destination? σ = some 0 ∧
      (step c σ).1.failure? = some (.fault (.trap .divisionByZero)) ∧
      ((step c σ).2.store.block 0).contents ≠ (σ.store.block 0).contents ∧
      1 < σ.store.blocks.size ∧ ((step c σ).2.store.block 1).memory ≠ .released := by
    decide +kernel
  obtain ⟨hbytes, -, htensors, -⟩ := command_changes_destination_only hσ c
  have hother : c.destination? σ ≠ some 1 := by
    rw [hdst]
    decide
  exact ⟨σ, c, hσ, hdst, Reply.failure?_eq_some_iff.mp hreply, hwritten,
    hbytes 1 hlt hother hlive, htensors "view" (by decide)⟩

end Session

end DeviceTensor
