import DeviceTensor.Proofs.Session.Form
import DeviceTensor.Proofs.Tensor.View
set_option autoImplicit false

/-!
# Programs of views

A program that takes views of a tensor, and views of those, fills slots with tensors on the block
of the first.  However clones, reshaped tensors and transposes follow on each other, nothing else
changes, no memory is bound, and a tensor that gets its shape and its order of storage back is the
first one again.
-/

namespace DeviceTensor

open DeviceTensor.Action

/-! ## Views in slots -/

/-- A command that takes a view of the tensor in a slot, or gives it another shape. -/
inductive ViewOp where
  | share (source target : String)
  | reshape (name : String) (shape : Shape)
  | reshaped (source target : String) (shape : Shape)
  | transpose (source target : String)

namespace ViewOp

/-- The slot that is looked at. -/
def source : ViewOp → String
  | share source _ => source
  | reshape name _ => name
  | reshaped source _ _ => source
  | transpose source _ => source

/-- The slot that holds the view. -/
def target : ViewOp → String
  | share _ target => target
  | reshape name _ => name
  | reshaped _ target _ => target
  | transpose _ target => target

/-- Whether rows and columns are exchanged. -/
def Turns : ViewOp → Prop
  | transpose _ _ => True
  | _ => False

def command : ViewOp → Command
  | share source target => .share source target
  | reshape name shape => .reshape name shape
  | reshaped source target shape => .reshaped source target shape
  | transpose source target => .transpose source target

end ViewOp

namespace Session

variable {σ σ₀ : Session} {t : Tensor} {b : BlockId} {turns : Prop} {names : List String}
  {v : ViewOp} {name : String}

/-- The views are taken one after the other, each of a tensor in one of the slots `names` or of an
earlier view, and each succeeds. -/
def TakesViews (names : List String) : List ViewOp → Session → Prop
  | [], _ => True
  | v :: vs, σ => v.source ∈ names ∧ (step v.command σ).1.done ∧
      TakesViews (names ++ [v.target]) vs (step v.command σ).2

instance decidableTakesViews :
    ∀ (names : List String) (vs : List ViewOp) (σ : Session), Decidable (TakesViews names vs σ)
  | _, [], _ => isTrue trivial
  | names, v :: vs, σ =>
    have := decidableTakesViews (names ++ [v.target]) vs (step v.command σ).2
    inferInstanceAs (Decidable (_ ∧ _ ∧ _))

/-! ## One view -/

theorem sheds_dropTensor (name : String) (σ : Session) :
    σ.store.Sheds (σ.dropTensor name).store := by
  unfold dropTensor
  split
  · exact Tensor.sheds_release _ _
  · exact .refl _

theorem makeTensor_view {out : String} {x : Tensor → Action Fault Tensor}
    (ht : σ.tensors.get? name = some t) (h : Tensor.GivesView turns (x t) t σ.store)
    (hdone : (withTensor name (fun t => makeTensor out (x t)) σ).1.done) :
    ∃ u, (withTensor name (fun t => makeTensor out (x t)) σ).2.tensors.get? out = some u ∧
      u.ViewOf turns t ∧
      σ.store.Sheds (withTensor name (fun t => makeTensor out (x t)) σ).2.store := by
  have hmake : withTensor name (fun t => makeTensor out (x t)) σ =
      perform (x t) (keepTensor out) σ := withTensor_some ht σ.store _
  rw [hmake] at hdone ⊢
  cases hx : x t σ.store with
  | mk r s =>
    cases r with
    | error f =>
      rw [perform_of_error hx] at hdone
      cases hdone
    | ok u =>
      obtain ⟨hview, hsheds⟩ := Ends.ok h hx
      rw [perform_of_ok hx]
      exact ⟨u, Slots.get?_put_self _ out u, hview,
        hsheds.trans (sheds_dropTensor out { σ with store := s })⟩

theorem changeTensor_view {x : Tensor → Action Fault Tensor} (ht : σ.tensors.get? name = some t)
    (h : Tensor.GivesView turns (x t) t σ.store) (hdone : (changeTensor name x σ).1.done) :
    ∃ u, (changeTensor name x σ).2.tensors.get? name = some u ∧ u.ViewOf turns t ∧
      σ.store.Sheds (changeTensor name x σ).2.store := by
  cases hx : x t σ.store with
  | mk r s =>
    cases r with
    | error f =>
      rw [changeTensor_of_error ht hx] at hdone
      cases hdone
    | ok u =>
      obtain ⟨hview, hsheds⟩ := Ends.ok h hx
      rw [changeTensor_of_ok ht hx]
      exact ⟨u, Slots.get?_put_self _ name u, hview, hsheds⟩

/-- A view that was taken is in its slot, on the block of its source. -/
theorem step_view (ht : σ.tensors.get? v.source = some t) (hb : t.block = some b)
    (hdone : (step v.command σ).1.done) :
    ∃ u, (step v.command σ).2.tensors.get? v.target = some u ∧ u.ViewOf v.Turns t ∧
      σ.store.Sheds (step v.command σ).2.store := by
  cases v with
  | share source target => exact makeTensor_view ht (t.share_givesView _) hdone
  | reshape name shape => exact changeTensor_view ht (t.reshape_givesView hb shape _) hdone
  | reshaped source target shape =>
    exact makeTensor_view ht (t.reshaped_givesView hb shape _) hdone
  | transpose source target => exact makeTensor_view ht (t.transpose_givesView _) hdone

/-! ## Programs -/

/-- Since `σ₀` the slots `names` have got views of `t`, which exchange rows and columns only if
`turns` holds; all other slots are as they were, and no memory was bound. -/
structure Viewed (turns : Prop) (t : Tensor) (names : List String) (σ₀ σ : Session) : Prop where
  views : ∀ name ∈ names, ∃ u, σ.tensors.get? name = some u ∧ u.ViewOf turns t
  tensors : ∀ name, name ∉ names → σ.tensors.get? name = σ₀.tensors.get? name
  blocks : ∀ name, σ.blocks.get? name = σ₀.blocks.get? name
  sheds : σ₀.store.Sheds σ.store

theorem viewed_self (ht : σ.tensors.get? name = some t) : Viewed turns t [name] σ σ where
  views y hy := by
    obtain rfl := List.mem_singleton.mp hy
    exact ⟨t, ht, .refl t⟩
  tensors _ _ := rfl
  blocks _ := rfl
  sheds := .refl _

theorem Viewed.step (h : Viewed turns t names σ₀ σ) (hσ : σ.Sound (fun _ => True) [])
    (hb : t.block = some b) (hsource : v.source ∈ names) (hturns : v.Turns → turns)
    (hdone : (Session.step v.command σ).1.done) :
    Viewed turns t (names ++ [v.target]) σ₀ (Session.step v.command σ).2 := by
  obtain ⟨src, hsrc, hview⟩ := h.views v.source hsource
  obtain ⟨u, hu, hview', hsheds⟩ := step_view hsrc (hview.block.trans hb) hdone
  have hframes := step_frames hσ v.command fun _ => trivial
  have hreceiver : v.command.receiver? = some v.target := by cases v <;> rfl
  have hblock : v.command.blockReceiver? = none := by cases v <;> rfl
  rw [hreceiver, hblock] at hframes
  have hother (y : String) (hne : v.target ≠ y) :
      (Session.step v.command σ).2.tensors.get? y = σ.tensors.get? y :=
    hframes.tensors y fun heq => hne (Option.some.inj heq)
  refine ⟨fun y hy => ?_, fun y hy => ?_, fun y => ?_, h.sheds.trans hsheds⟩
  · by_cases hne : v.target = y
    · subst hne
      exact ⟨u, hu, (hview'.mono hturns).trans hview⟩
    · rw [hother y hne]
      refine h.views y ((List.mem_append.mp hy).resolve_right fun hmem => ?_)
      exact hne (List.mem_singleton.mp hmem).symm
  · rw [List.mem_append, List.mem_singleton, not_or] at hy
    exact (hother y fun heq => hy.2 heq.symm).trans (h.tensors y hy.1)
  · exact (hframes.blocks y nofun).trans (h.blocks y)

/-- However views follow on each other, they stay views of the first tensor. -/
theorem Viewed.run {vs : List ViewOp} (h : Viewed turns t names σ₀ σ)
    (hσ : σ.Sound (fun _ => True) []) (hb : t.block = some b) (hvs : TakesViews names vs σ)
    (hturns : ∀ v ∈ vs, v.Turns → turns) :
    Viewed turns t (names ++ vs.map ViewOp.target) σ₀
      (Session.run (vs.map ViewOp.command) σ).2 := by
  induction vs generalizing σ names with
  | nil =>
    rw [List.map_nil, List.append_nil]
    exact h
  | cons v vs ih =>
    obtain ⟨hsource, hdone, hrest⟩ := hvs
    have hstep := h.step hσ hb hsource (hturns v List.mem_cons_self) hdone
    have hrun := ih hstep (step_sound hσ v.command fun _ => trivial) hrest
      fun w hw => hturns w (List.mem_cons_of_mem v hw)
    rw [List.append_assoc] at hrun
    exact hrun

/-! ## What views show -/

/-- The tensor `u` of `σ'`, a view of `t` of `σ`, has its elements: all of them in the order of
storage, and each at its indices if shape and order are those of `t`. -/
structure ShowsAgain (t : Tensor) (σ : Session) (u : Tensor) (σ' : Session) : Prop where
  count : u.count σ'.store = t.count σ.store
  stored : ∀ d, u.stored d σ'.store = t.stored d σ.store
  restored : u.shape = t.shape → u.transposed = t.transposed → u = t ∧
    ∀ d idx, t.shape.Contains idx →
      ∃ e, t.elementAt d σ.store idx = some e ∧ u.elementAt d σ'.store idx = some e

theorem Viewed.showsAgain {σ' : Session} {u : Tensor} (h : Viewed turns t names σ σ')
    (hσ : σ.Sound (fun _ => True) []) (hσ' : σ'.Sound (fun _ => True) [])
    (ht : t ∈ σ.tensors.values) (hb : t.block = some b) (hu : σ'.tensors.get? name = some u)
    (hview : u.ViewOf turns t) : ShowsAgain t σ u σ' := by
  have hlive : u.Live σ'.store := Tensor.live_of_holds hσ'.holds (held_subset hσ' hu)
  refine ⟨hview.count h.sheds, hview.stored h.sheds hlive, fun hshape horder => ?_⟩
  obtain rfl := hview.eq_of_shape hshape horder
  refine ⟨rfl, fun d idx hidx => ?_⟩
  obtain ⟨e, he⟩ := Tensor.exists_elementAt (hσ.valid u ht) hb hidx d
  refine ⟨e, he, ?_⟩
  unfold Tensor.elementAt at he ⊢
  rw [hview.stored h.sheds hlive, he]

/-- The transpose of a matrix is taken, and has its elements with rows and columns exchanged. -/
theorem step_transpose (h : σ.Sound (fun _ => True) []) (ht : σ.tensors.get? name = some t)
    (hb : t.block = some b) (hrank : t.rank = 2) (out : String) :
    (step (.transpose name out) σ).1.done ∧
      (step (.transpose name out) σ).2.tensors.get? out = some t.flipped ∧
      ∀ d i j, t.flipped.element d (step (.transpose name out) σ).2.store i j =
        t.element d σ.store j i := by
  obtain ⟨rows, cols, hshape⟩ := Tensor.matrix_of_rank hrank
  have hstep : step (.transpose name out) σ =
      keepTensor out t.flipped { σ with store := σ.store.retain b } := by
    have hmake : step (.transpose name out) σ = makeTensor out t.transpose σ :=
      withTensor_some ht σ.store _
    exact hmake.trans (perform_of_ok (Tensor.transpose_eq hshape hb) _)
  have hdone : (step (.transpose name out) σ).1.done := congrArg (Reply.done ·.1) hstep
  have hslot : (step (.transpose name out) σ).2.tensors.get? out = some t.flipped := by
    rw [hstep]
    exact Slots.get?_put_self _ out t.flipped
  have hstored (d : ElemType) :
      t.flipped.stored d (step (.transpose name out) σ).2.store = t.stored d σ.store := by
    obtain ⟨u, hu, hview, hsheds⟩ := step_view (v := .transpose name out) ht hb hdone
    obtain rfl : u = t.flipped := Option.some.inj (hu.symm.trans hslot)
    have hsound := step_sound h (.transpose name out) fun _ => trivial
    exact hview.stored hsheds (Tensor.live_of_holds hsound.holds (held_subset hsound hslot)) d
  have hrank' : t.flipped.rank = 2 := congrArg List.length (Tensor.shape_flipped hshape)
  refine ⟨hdone, hslot, fun d i j => ?_⟩
  rw [← Tensor.elementAt_matrix hrank', ← Tensor.elementAt_matrix hrank]
  unfold Tensor.elementAt
  rw [hstored]
  exact congrArg (fun n => (t.stored d σ.store)[n]?) (t.place_flipped [j, i])

/-- A transposed tensor takes no other shape, and neither does a view of it. -/
theorem step_reshape_transposed {shape : Shape} (h : σ.Sound (fun _ => True) [])
    (ht : σ.tensors.get? name = some t) (hb : t.block = some b) (horder : t.transposed = true)
    (hne : shape ≠ t.shape) :
    step (.reshape name shape) σ = (faulted (.reshapeTransposed t.shape shape), σ) ∧
      ∀ out, step (.reshaped name out shape) σ =
        (faulted (.reshapeTransposed t.shape shape), σ) := by
  have hpos : 0 < (σ.store.block b).handles :=
    h.holds.handles_pos (Tensor.mem_of_held (held_subset h ht) hb)
  refine ⟨changeTensor_of_error (x := (·.reshape shape)) ht
    (Tensor.reshape_of_transposed hb horder hne σ.store), fun out => ?_⟩
  have hmake : step (.reshaped name out shape) σ = makeTensor out (t.reshaped shape) σ :=
    withTensor_some ht σ.store _
  exact hmake.trans (perform_of_error (Tensor.reshaped_of_transposed hb hpos horder hne) _)

variable {allowed : Command → Prop}

/-- However clones, reshaped tensors and transposes of a tensor follow on each other, all of them
are on its block and have as many elements, and no memory is bound and no byte changes; one that has
the shape and the order of storage back has each element at its indices.  Exchanging rows and
columns twice gives the tensor again.  A transposed tensor takes no other shape. -/
theorem views_compose (h : Reachable allowed σ) (ht : σ.tensors.get? name = some t)
    (hb : t.block = some b) :
    (∀ vs σ', TakesViews [name] vs σ → (run (vs.map ViewOp.command) σ).2 = σ' →
      Viewed (∃ v ∈ vs, v.Turns) t (name :: vs.map ViewOp.target) σ σ' ∧
      (∀ c ∈ σ'.handles, (σ'.store.block c).memory = (σ.store.block c).memory) ∧
      ∀ y ∈ name :: vs.map ViewOp.target, ∀ u, σ'.tensors.get? y = some u →
        ShowsAgain t σ u σ') ∧
    (t.rank = 2 → ∀ out, ∃ u σ₁, (step (.transpose name out) σ).2 = σ₁ ∧
      (step (.transpose name out) σ).1.done ∧ σ₁.tensors.get? out = some u ∧
      u.transposed = !t.transposed ∧
      (∀ d i j, u.element d σ₁.store i j = t.element d σ.store j i) ∧
      ∀ out', (step (.transpose out out') σ₁).1.done ∧
        (step (.transpose out out') σ₁).2.tensors.get? out' = some t) ∧
    (t.transposed = true → ∀ shape, shape ≠ t.shape →
      step (.reshape name shape) σ = (faulted (.reshapeTransposed t.shape shape), σ) ∧
      ∀ out, step (.reshaped name out shape) σ =
        (faulted (.reshapeTransposed t.shape shape), σ)) := by
  have hσ := h.sound
  refine ⟨?_, fun hrank out => ?_, fun horder shape hne =>
    step_reshape_transposed hσ ht hb horder hne⟩
  · rintro vs _ hvs rfl
    have hσ' := run_sound hσ (vs.map ViewOp.command)
    have hviewed : Viewed (∃ v ∈ vs, v.Turns) t (name :: vs.map ViewOp.target) σ
        (run (vs.map ViewOp.command) σ).2 :=
      (viewed_self ht).run hσ hb hvs fun v hv hturns => ⟨v, hv, hturns⟩
    refine ⟨hviewed, fun c hc => ?_, fun y hy u hu => ?_⟩
    · exact hviewed.sheds.memory_of_live fun hgone => hσ'.holds.released c hgone hc
    · obtain ⟨u', hu', hview⟩ := hviewed.views y hy
      obtain rfl : u = u' := Option.some.inj (hu.symm.trans hu')
      exact hviewed.showsAgain hσ hσ' (Slots.mem_of_get? ht) hb hu hview
  · obtain ⟨hdone, hslot, helement⟩ := step_transpose hσ ht hb hrank out
    have hσ₁ := step_sound hσ (.transpose name out) fun _ => trivial
    have hrank' : t.flipped.rank = 2 := (List.length_reverse).trans hrank
    refine ⟨t.flipped, _, rfl, hdone, hslot, rfl, helement, fun out' => ?_⟩
    obtain ⟨hdone', hslot', -⟩ := step_transpose hσ₁ hslot hb hrank' out'
    rw [t.flipped_flipped] at hslot'
    exact ⟨hdone', hslot'⟩

/-- A matrix is cloned, reshaped and transposed until its first shape is back, and transposed twice;
its transpose takes no other shape. -/
theorem matrix_views_compose :
    ∃ (σ : Session) (t u : Tensor) (vs : List ViewOp), (Reachable HostOnly σ ∧
        σ.tensors.get? "a" = some t ∧ t.block = some 0 ∧ t.rank = 2 ∧
        σ.tensors.get? "b" = some u ∧ u.block = some 0 ∧ u.transposed = true ∧
        TakesViews ["a"] vs σ) ∧
      (∃ σ', (run (vs.map ViewOp.command) σ).2 = σ' ∧
        Viewed (∃ v ∈ vs, v.Turns) t ["a", "c", "d", "d", "e", "e", "d"] σ σ' ∧
        ∃ v x, σ'.tensors.get? "d" = some v ∧ t.elementAt .int32 σ.store [1, 2] = some x ∧
          v.elementAt .int32 σ'.store [1, 2] = some x) ∧
      (∃ v σ₁, (step (.transpose "a" "c") σ).2 = σ₁ ∧ σ₁.tensors.get? "c" = some v ∧
        v.element .int32 σ₁.store 2 1 = t.element .int32 σ.store 1 2 ∧
        (step (.transpose "c" "c") σ₁).2.tensors.get? "c" = some t) ∧
      step (.reshape "b" [2, 3]) σ = (faulted (.reshapeTransposed [3, 2] [2, 3]), σ) := by
  let program := [Command.ofElements "a" [2, 3] .int32 #[1, 2, 3, 4, 5, 6], .transpose "a" "b"]
  let σ := (run program (start [])).2
  let t : Tensor := ⟨[2, 3], .int32, false, 0, some 0⟩
  let u : Tensor := ⟨[3, 2], .int32, true, 0, some 0⟩
  let vs : List ViewOp := [.share "a" "c", .reshaped "c" "d" [3, 2], .reshape "d" [6],
    .transpose "c" "e", .transpose "e" "e", .reshape "d" [2, 3]]
  have hprogram : ∀ c ∈ program, HostOnly c := by
    intro c hc
    simp only [program, List.mem_cons, List.not_mem_nil, or_false] at hc
    rcases hc with rfl | rfl <;> trivial
  have hσ : Reachable HostOnly σ := (reachable_start []).run hprogram
  obtain ⟨ht, hu, hvs, hd⟩ : σ.tensors.get? "a" = some t ∧ σ.tensors.get? "b" = some u ∧
      TakesViews ["a"] vs σ ∧
      (run (vs.map ViewOp.command) σ).2.tensors.get? "d" = some t := by decide +kernel
  clear_value σ
  obtain ⟨hprograms, htwice, -⟩ := views_compose hσ ht rfl
  obtain ⟨-, -, hfixed⟩ := views_compose hσ hu rfl
  obtain ⟨hviewed, -, hagain⟩ := hprograms vs _ hvs rfl
  obtain ⟨-, hback⟩ := (hagain "d" (by decide) t hd).restored rfl rfl
  obtain ⟨x, hx, hx'⟩ := hback .int32 [1, 2] (by decide)
  obtain ⟨v, σ₁, hσ₁, -, hv, -, helements, hrestored⟩ := htwice rfl "c"
  refine ⟨σ, t, u, vs, ⟨hσ, ht, rfl, rfl, hu, rfl, rfl, hvs⟩,
    ⟨_, rfl, hviewed, t, x, hd, hx, hx'⟩, ⟨v, σ₁, hσ₁, hv, helements .int32 2 1, ?_⟩, ?_⟩
  · exact (hrestored "c").2
  · exact (hfixed rfl [2, 3] (by decide)).1

end Session

end DeviceTensor
