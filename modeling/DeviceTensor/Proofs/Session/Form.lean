import DeviceTensor.Proofs.Session.Sharing
import DeviceTensor.Proofs.Tensor.Form
set_option autoImplicit false

/-!
# Tensors that take a form in their slots

A tensor that is resized, or takes the form of another, changes nothing but itself.  If it keeps its
block, the store is as it was; if not, it leaves the old block to whoever else holds it, and holds a
new one alone.  Taking the same form again changes nothing.
-/

namespace DeviceTensor

open DeviceTensor.Action

/-- A name that is given twice stands for what it was given last. -/
theorem Slots.put_put {α : Type} (slots : Slots α) (name : String) (x y : α) :
    (slots.put name x).put name y = slots.put name y := by
  unfold put erase
  simp

namespace Session

variable {σ : Session} {t t' o : Tensor} {name other : String} {fits : Prop} {b : BlockId}
  {s : Store} {R : Registry Routine → Prop} {shape : Shape}

/-- The session with a store and a tensor in a slot. -/
def refit (name : String) (t : Tensor) (s : Store) (σ : Session) : Session :=
  { σ with store := s, tensors := σ.tensors.put name t }

/-- The tensor `t` in a slot has become `t'`.  It has kept its block, and nothing has changed in the
store, exactly if `fits` holds; a block that it got instead is new, has no memory and is held by
nothing else.  All other slots are as they were, and so is the memory that they hold. -/
structure Refitted (name : String) (t t' : Tensor) (fits : Prop) (σ σ' : Session) : Prop where
  slot : σ'.tensors.get? name = some t'
  kept_iff : (∃ b, t.block = some b ∧ t'.block = some b) ↔ fits
  kept : fits → σ'.store = σ.store
  fresh : ¬fits → ∀ b, t'.block = some b → b = σ.store.blocks.size ∧
    (σ'.store.block b).memory = .unbound ∧ σ'.Alone (.tensor name)
  tensors : ∀ other, other ≠ name → σ'.tensors.get? other = σ.tensors.get? other
  blocks : σ'.blocks = σ.blocks
  memory : ∀ b, b ∈ σ.handlesWithout name →
    (σ'.store.block b).memory = (σ.store.block b).memory ∧
      (σ'.store.block b).size = (σ.store.block b).size

/-! ## Steps -/

theorem step_takeForm (ht : σ.tensors.get? name = some t) (ho : σ.tensors.get? other = some o)
    (hrun : t.takeForm o σ.store = (.ok t', s)) :
    step (.takeForm name other) σ = (.tensor (t'.report s), σ.refit name t' s) := by
  have hstep : step (.takeForm name other) σ = changeTensor name (·.takeForm o) σ :=
    withTensor_some ho σ.store _
  rw [hstep]
  exact changeTensor_of_ok ht hrun

theorem step_resize (ht : σ.tensors.get? name = some t)
    (hrun : t.resize shape σ.store = (.ok t', s)) :
    step (.resize name shape) σ = (.tensor (t'.report s), σ.refit name t' s) :=
  changeTensor_of_ok (x := (·.resize shape)) ht hrun

theorem step_resize_of_error {f : Fault} (ht : σ.tensors.get? name = some t)
    (hrun : t.resize shape σ.store = (.error f, σ.store)) :
    step (.resize name shape) σ = (faulted f, σ) :=
  changeTensor_of_error (x := (·.resize shape)) ht hrun

/-! ## Blocks that are kept, and blocks that are replaced -/

theorem refitted_kept (hb : t.block = some b) (hb' : t'.block = some b) (hfits : fits) :
    Refitted name t t' fits σ (σ.refit name t' σ.store) where
  slot := Slots.get?_put_self _ name t'
  kept_iff := iff_of_true ⟨b, hb, hb'⟩ hfits
  kept _ := rfl
  fresh hnot := absurd hfits hnot
  tensors _ hne := Slots.get?_put_of_ne hne.symm t'
  blocks := rfl
  memory _ _ := ⟨rfl, rfl⟩

/-- The tensor has let go of its block in a store where nothing else has happened to the old
blocks. -/
theorem refitted_replaced (h : σ.Sound R []) (ht : σ.tensors.get? name = some t) {u : Store}
    (hold : ∀ c, c < σ.store.blocks.size → u.block c = σ.store.block c)
    (hnew : ∀ b, t'.block = some b → b = σ.store.blocks.size ∧
      ((t.release u).block b).memory = .unbound ∧
      (σ.refit name t' (t.release u)).Alone (.tensor name)) (hnot : ¬fits) :
    Refitted name t t' fits σ (σ.refit name t' (t.release u)) where
  slot := Slots.get?_put_self _ name t'
  kept_iff := by
    refine iff_of_false ?_ hnot
    rintro ⟨b, hb, hb'⟩
    have hlt := ((h.valid t (Slots.mem_of_get? ht)).filled b hb).lt
    obtain ⟨rfl, -⟩ := hnew b hb'
    exact Nat.lt_irrefl _ hlt
  kept hfits := absurd hfits hnot
  fresh _ := hnew
  tensors _ hne := Slots.get?_put_of_ne hne.symm t'
  blocks := rfl
  memory b hb := by
    have hh : σ.store.Holds (t.held ++ σ.handlesWithout name) := h.holds.perm (handles_perm h ht)
    exact Tensor.memory_release_of_held hh hold hb

/-- The block that a command has made for the tensor is new. -/
theorem refitted_fresh (h : σ.Sound (fun _ => True) []) (ht : σ.tensors.get? name = some t)
    {c : Command} (hc : c.filled? = some (.tensor name)) {d : DeviceId} {n : Nat}
    (hstep : (step c σ).2 = σ.refit name t' (t.release (σ.store.acquire d n).2))
    (hb' : t'.block = some σ.store.blocks.size) (hnot : ¬fits) :
    Refitted name t t' fits σ (σ.refit name t' (t.release (σ.store.acquire d n).2)) ∧
      t'.byteSize (t.release (σ.store.acquire d n).2) = n := by
  have hblock := Tensor.block_release_acquire
    (fun b hb => ((h.valid t (Slots.mem_of_get? ht)).filled b hb).lt) d n
  refine ⟨refitted_replaced h ht (fun c hc => Store.block_acquire_of_lt hc) (fun b hb => ?_) hnot,
    (Tensor.byteSize_of_block hb').trans (congrArg Block.size hblock)⟩
  obtain rfl := Option.some.inj (hb'.symm.trans hb)
  have hslot : (step c σ).2.tensors.get? name = some t' := by
    rw [hstep]
    exact Slots.get?_put_self _ name t'
  have halone := alone_of_new h hc ((tensorBlock?_of_get? hslot).trans hb')
  exact ⟨rfl, congrArg Block.memory hblock, hstep ▸ halone⟩

/-! ## The form of another tensor -/

/-- The tensor `t'` has the form, the device and the byte size of `o`, and has a block if `o` has
one. -/
structure FormedAs (t' : Tensor) (s' : Store) (o : Tensor) (s : Store) : Prop where
  shape : t'.shape = o.shape
  dtype : t'.dtype = o.dtype
  transposed : t'.transposed = o.transposed
  device : t'.device = o.device
  byteSize : t'.byteSize s' = o.byteSize s
  bare : t'.block = none ↔ o.block = none

/-- A tensor that has the form already keeps all it has. -/
theorem FormedAs.takeForm (h : FormedAs t s o s) : t.takeForm o s = (.ok t, s) := by
  obtain ⟨shape, dtype, transposed, device, block⟩ := t
  obtain ⟨shape', dtype', transposed', device', block'⟩ := o
  obtain ⟨rfl, rfl, rfl, rfl, hsize, hbare⟩ := h
  cases block' with
  | none =>
    obtain rfl : block = none := hbare.mpr rfl
    exact Tensor.takeForm_of_bare rfl
  | some c =>
    cases block with
    | none => cases hbare.mp rfl
    | some b => exact Tensor.takeForm_of_suited ⟨Option.some_ne_none c, ⟨b, rfl, hsize⟩, rfl⟩

/-- A step in which a tensor takes the form of another. -/
theorem takeForm_refits (h : σ.Sound (fun _ => True) []) (ht : σ.tensors.get? name = some t)
    (ho : σ.tensors.get? other = some o) :
    ∃ t' s', step (.takeForm name other) σ = (.tensor (t'.report s'), σ.refit name t' s') ∧
      FormedAs t' s' o σ.store ∧
      Refitted name t t' (t.Suited o σ.store) σ (σ.refit name t' s') := by
  by_cases hsuited : t.Suited o σ.store
  · obtain ⟨hc, ⟨b, hb, hsize⟩, hdevice⟩ := hsuited
    have hrun := Tensor.takeForm_of_suited ⟨hc, ⟨b, hb, hsize⟩, hdevice⟩
    refine ⟨_, _, step_takeForm ht ho hrun, ⟨rfl, rfl, rfl, rfl, ?_, ?_⟩,
      refitted_kept hb hb ⟨hc, ⟨b, hb, hsize⟩, hdevice⟩⟩
    · exact (Tensor.byteSize_of_block hb).trans hsize
    · exact iff_of_false (hb ▸ Option.some_ne_none b) hc
  · cases hc : o.block with
    | none =>
      have hrun : t.takeForm o σ.store = (.ok o, t.release σ.store) := Tensor.takeForm_of_bare hc
      refine ⟨_, _, step_takeForm ht ho hrun, ⟨rfl, rfl, rfl, rfl, ?_, Iff.rfl⟩,
        refitted_replaced h ht (fun _ _ => rfl) (fun b hb => ?_) hsuited⟩
      · unfold Tensor.byteSize
        rw [hc]
      · rw [hc] at hb
        cases hb
    | some c =>
      have hrun := Tensor.takeForm_of_not_suited hsuited hc
      have hstep := step_takeForm ht ho hrun
      obtain ⟨hrefitted, hsize⟩ := refitted_fresh h ht rfl (congrArg Prod.snd hstep) rfl hsuited
      refine ⟨_, _, hstep, ⟨rfl, rfl, rfl, rfl, ?_, ?_⟩, hrefitted⟩
      · exact hsize.trans (Tensor.byteSize_of_block hc).symm
      · exact iff_of_false (Option.some_ne_none _) (hc ▸ Option.some_ne_none c)

/-- The other tensors have the bytes that they had. -/
theorem Refitted.byteSize_other {σ' : Session} (h : Refitted name t t' fits σ σ')
    (hne : other ≠ name) (ho : σ.tensors.get? other = some o) :
    o.byteSize σ'.store = o.byteSize σ.store := by
  unfold Tensor.byteSize
  cases hc : o.block with
  | none => rfl
  | some c => exact (h.memory c (mem_handlesWithout hne.symm ho hc)).2

/-- Taking the same form again changes nothing. -/
theorem takeForm_again (hrefitted : Refitted name t t' fits σ (σ.refit name t' s))
    (ho : σ.tensors.get? other = some o) (hformed : FormedAs t' s o σ.store) :
    step (.takeForm name other) (σ.refit name t' s) =
      (.tensor (t'.report s), σ.refit name t' s) := by
  have hsame : (σ.refit name t' s).refit name t' s = σ.refit name t' s := by
    unfold refit
    rw [Slots.put_put]
  by_cases hne : other = name
  · subst hne
    have hself : FormedAs t' s t' s := ⟨rfl, rfl, rfl, rfl, rfl, Iff.rfl⟩
    rw [step_takeForm hrefitted.slot hrefitted.slot hself.takeForm, hsame]
  · have hother := (hrefitted.tensors other hne).trans ho
    have hsize : o.byteSize s = o.byteSize σ.store := hrefitted.byteSize_other hne ho
    have hagain : FormedAs t' s o s :=
      { hformed with byteSize := hformed.byteSize.trans hsize.symm }
    rw [step_takeForm hrefitted.slot hother hagain.takeForm, hsame]

/-! ## New shapes -/

/-- A step in which a tensor gets a shape whose bytes are counted by sizes. -/
theorem resize_refits (h : σ.Sound (fun _ => True) []) (ht : σ.tensors.get? name = some t)
    (hshape : shape.Measured t.dtype) :
    ∃ t' s', step (.resize name shape) σ = (.tensor (t'.report s'), σ.refit name t' s') ∧
      t' = { t with shape := shape, transposed := false, block := t'.block } ∧ t'.block ≠ none ∧
      t'.byteSize s' = shape.prod * t.dtype.width ∧
      Refitted name t t' (t.HasBytes (shape.prod * t.dtype.width) σ.store) σ
        (σ.refit name t' s') := by
  by_cases hbytes : t.HasBytes (shape.prod * t.dtype.width) σ.store
  · obtain ⟨b, hb, hsize⟩ := hbytes
    have hrun := Tensor.resize_of_hasBytes hshape ⟨b, hb, hsize⟩
    exact ⟨_, _, step_resize ht hrun, rfl, hb ▸ Option.some_ne_none b,
      (Tensor.byteSize_of_block hb).trans hsize, refitted_kept hb hb ⟨b, hb, hsize⟩⟩
  · have hstep := step_resize ht (Tensor.resize_of_not_hasBytes hshape hbytes)
    obtain ⟨hrefitted, hsize⟩ := refitted_fresh h ht rfl (congrArg Prod.snd hstep) rfl hbytes
    exact ⟨_, _, hstep, rfl, Option.some_ne_none _, hsize, hrefitted⟩

/-! ## Both commands -/

variable {allowed : Command → Prop}

/-- A tensor that takes the form of another keeps its block exactly if both have blocks of one size
on one device, and has otherwise a new block without memory, or none if the other has none; it never
comes to share the block of the other.  Taking the form again changes nothing.  A tensor that is
resized keeps its block exactly if the block has the bytes of the new shape, and has otherwise a new
one; a shape whose product overflows changes nothing.  No other slot is touched. -/
theorem forms_keep_or_replace_block (h : Reachable allowed σ)
    (ht : σ.tensors.get? name = some t) :
    (∀ other o, σ.tensors.get? other = some o →
      ∃ t' σ', step (.takeForm name other) σ = (.tensor (t'.report σ'.store), σ') ∧
        FormedAs t' σ'.store o σ.store ∧ Refitted name t t' (t.Suited o σ.store) σ σ' ∧
        (t'.block = o.block → o.block ≠ none → t.block = o.block) ∧
        step (.takeForm name other) σ' = (.tensor (t'.report σ'.store), σ')) ∧
    ∀ shape,
      (shape.Measured t.dtype →
        ∃ t' σ', step (.resize name shape) σ = (.tensor (t'.report σ'.store), σ') ∧
          t' = { t with shape := shape, transposed := false, block := t'.block } ∧
          t'.block ≠ none ∧ t'.byteSize σ'.store = shape.prod * t.dtype.width ∧
          Refitted name t t' (t.HasBytes (shape.prod * t.dtype.width) σ.store) σ σ') ∧
      (¬shape.Measured t.dtype →
        step (.resize name shape) σ = (faulted (.trap (.overflow .mul)), σ)) := by
  refine ⟨fun other o ho => ?_, fun shape => ⟨fun hshape => ?_, fun hshape => ?_⟩⟩
  · obtain ⟨t', s', hstep, hformed, hrefitted⟩ := takeForm_refits h.sound ht ho
    refine ⟨t', _, hstep, hformed, hrefitted, fun hsame hsome => ?_,
      takeForm_again hrefitted ho hformed⟩
    obtain ⟨c, hc⟩ := Option.ne_none_iff_exists'.mp hsome
    have hlt := ((h.sound.valid o (Slots.mem_of_get? ho)).filled c hc).lt
    by_cases hfits : t.Suited o σ.store
    · obtain ⟨b, hb, hb'⟩ := hrefitted.kept_iff.mpr hfits
      rw [hb, ← hb', hsame]
    · obtain ⟨rfl, -⟩ := hrefitted.fresh hfits c (hsame.trans hc)
      exact absurd hlt (Nat.lt_irrefl _)
  · obtain ⟨t', s', hstep, hform, hsome, hsize, hrefitted⟩ := resize_refits h.sound ht hshape
    exact ⟨t', _, hstep, hform, hsome, hsize, hrefitted⟩
  · exact step_resize_of_error ht (Tensor.resize_of_not_measured hshape)

/-- A tensor whose block is shared takes the form of a tensor of as many bytes, and that of a longer
one on another device; it is resized to as many bytes, and to a shape that is too large. -/
theorem shared_tensor_takes_forms :
    ∃ (σ : Session) (t o p : Tensor), (Reachable HostOnly σ ∧ σ.tensors.get? "t" = some t ∧
        σ.tensors.get? "o" = some o ∧ σ.tensors.get? "p" = some p ∧ t.block = some 0 ∧
        t.Suited o σ.store ∧ ¬t.Suited p σ.store) ∧
      (step (.takeForm "t" "o") σ).2.store = σ.store ∧
      (∃ (t' : Tensor) (σ' : Session),
        step (.takeForm "t" "p") σ = (.tensor (t'.report σ'.store), σ') ∧
        t'.block = some 3 ∧ σ'.Alone (.tensor "t") ∧
        (σ'.store.block 0).memory = (σ.store.block 0).memory ∧
        (step (.takeForm "t" "p") σ').2 = σ') ∧
      (step (.resize "t" [2, 1]) σ).2.store = σ.store ∧
      step (.resize "t" [4294967296, 4294967296, 0]) σ =
        (faulted (.trap (.overflow .mul)), σ) := by
  let specs := [DeviceSpec.simulated "gpu" none { backend := .cuda, addressable := false }]
  let program := [Command.ofElements "t" [2] .int32 #[7, 8], .share "t" "u",
    .create "o" [8] "default" .char, .create "p" [3] "gpu" .float64]
  let σ := (run program (start specs)).2
  let t : Tensor := ⟨[2], .int32, false, 0, some 0⟩
  let o : Tensor := ⟨[8], .char, false, 0, some 1⟩
  let p : Tensor := ⟨[3], .float64, false, 1, some 2⟩
  have hprogram : ∀ c ∈ program, HostOnly c := by
    intro c hc
    simp only [program, List.mem_cons, List.not_mem_nil, or_false] at hc
    rcases hc with rfl | rfl | rfl | rfl <;> trivial
  have hσ : Reachable HostOnly σ := (reachable_start specs).run hprogram
  obtain ⟨ht, hu, ho, hp, hsize, hsize', hcount⟩ :
      σ.tensors.get? "t" = some t ∧ σ.tensors.get? "u" = some t ∧ σ.tensors.get? "o" = some o ∧
      σ.tensors.get? "p" = some p ∧ (σ.store.block 0).size = 8 ∧ o.byteSize σ.store = 8 ∧
      σ.store.blocks.size = 3 := by decide +kernel
  clear_value σ
  have hbytes : t.HasBytes 8 σ.store := ⟨0, rfl, hsize⟩
  have hsuited : t.Suited o σ.store := ⟨Option.some_ne_none 1, hsize' ▸ hbytes, rfl⟩
  have hnot : ¬t.Suited p σ.store := fun h => absurd h.2.2 (by decide)
  have hmeasured : Shape.Measured [2, 1] .int32 := ⟨by decide, by decide⟩
  have hlarge : ¬Shape.Measured [4294967296, 4294967296, 0] .int32 := fun h =>
    absurd (h.partials 1 (by decide)) (by decide)
  obtain ⟨hforms, hshapes⟩ := forms_keep_or_replace_block hσ ht
  obtain ⟨_, σ₁, hstep₁, -, hrefitted₁, -⟩ := hforms "o" o ho
  obtain ⟨t₂, σ₂, hstep₂, hformed, hrefitted₂, -, hagain⟩ := hforms "p" p hp
  obtain ⟨_, σ₃, hstep₃, -, -, -, hrefitted₃⟩ := (hshapes [2, 1]).1 hmeasured
  have hsome : t₂.block ≠ none := fun h => absurd (hformed.bare.mp h) (Option.some_ne_none 2)
  obtain ⟨b, hb⟩ := Option.ne_none_iff_exists'.mp hsome
  obtain ⟨hnew, -, halone⟩ := hrefitted₂.fresh hnot b hb
  have hshared : 0 ∈ σ.handlesWithout "t" := mem_handlesWithout (by decide) hu rfl
  refine ⟨σ, t, o, p, ⟨hσ, ht, ho, hp, rfl, hsuited, hnot⟩, ?_,
    ⟨t₂, σ₂, hstep₂, hb.trans (congrArg some (hnew.trans hcount)), halone,
      (hrefitted₂.memory 0 hshared).1, congrArg Prod.snd hagain⟩, ?_, (hshapes _).2 hlarge⟩
  · rw [hstep₁]
    exact hrefitted₁.kept hsuited
  · rw [hstep₃]
    exact hrefitted₃.kept hbytes

end Session

end DeviceTensor
