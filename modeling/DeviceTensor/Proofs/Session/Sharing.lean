import DeviceTensor.Proofs.Session.Isolation
set_option autoImplicit false

/-!
# Sharing and copies

Which slots share a block is decided by where their blocks come from: a view has the block of its
source, and what is made or copied has a block that nothing else holds.  A duplicate has the form and
the bytes of its source and is apart from it for good, so that nothing that is written through one of
the two is read through the other.
-/

namespace DeviceTensor

namespace Session

open DeviceTensor.Action

variable {σ : Session} {R : Registry Routine → Prop} {c : Command}

/-! ## Blocks that are held once -/

/-- The slot holds a block that no other slot holds and that has one handle. -/
def Alone (σ : Session) (w : Slot) : Prop :=
  ∃ b, σ.block? w = some b ∧ (∀ w', w' ≠ w → σ.block? w' ≠ some b) ∧ (σ.store.block b).handles = 1

/-- A block that tensors hold is found in a slot. -/
theorem exists_get?_of_held {slots : Slots Tensor} (hu : slots.Unique) {b : BlockId}
    (hb : b ∈ slots.values.flatMap Tensor.held) :
    ∃ name t, slots.get? name = some t ∧ t.block = some b := by
  obtain ⟨t, ht, hheld⟩ := List.mem_flatMap.mp hb
  obtain ⟨name, hget⟩ := hu.exists_get? ht
  exact ⟨name, t, hget, Option.mem_toList.mp hheld⟩

theorem ne_of_get?_erase {α : Type} {slots : Slots α} {name other : String} {x : α}
    (h : (slots.erase name).get? other = some x) : name ≠ other ∧ slots.get? other = some x := by
  have hne : name ≠ other := by
    rintro rfl
    rw [Slots.get?_erase_self] at h
    cases h
  exact ⟨hne, (Slots.get?_erase_of_ne hne).symm.trans h⟩

/-- A block that one slot holds has one handle. -/
theorem handles_of_sole (h : σ.Sound R []) {w : Slot} {b : BlockId} (hw : σ.block? w = some b)
    (hothers : ∀ w', w' ≠ w → σ.block? w' ≠ some b) : (σ.store.block b).handles = 1 := by
  have hcount : (σ.store.block b).handles = σ.handles.count b :=
    h.holds.handles b (lt_of_block? h hw)
  rw [hcount]
  cases w with
  | tensor name =>
    obtain ⟨t, ht, hblock⟩ := Option.bind_eq_some_iff.mp hw
    have hrest : b ∉ σ.handlesWithout name := by
      intro hmem
      rcases List.mem_append.mp hmem with htensor | hslot
      · obtain ⟨other, u, hget, hub⟩ := exists_get?_of_held (h.tensors.erase name) htensor
        obtain ⟨hne, hget⟩ := ne_of_get?_erase hget
        have hother : Slot.tensor other ≠ .tensor name := fun he => hne (Slot.tensor.inj he).symm
        exact hothers _ hother ((tensorBlock?_of_get? hget).trans hub)
      · obtain ⟨other, hget⟩ := h.blocks.exists_get? hslot
        exact hothers (.block other) Slot.noConfusion hget
    rw [(handles_perm h ht).count_eq, Tensor.held_of_block hblock, List.count_append,
      List.count_singleton_self, List.count_eq_zero_of_not_mem hrest]
  | block name =>
    have hrest : b ∉ σ.tensors.values.flatMap Tensor.held ++ (σ.blocks.erase name).values := by
      intro hmem
      rcases List.mem_append.mp hmem with htensor | hslot
      · obtain ⟨other, u, hget, hub⟩ := exists_get?_of_held h.tensors htensor
        exact hothers (.tensor other) Slot.noConfusion ((tensorBlock?_of_get? hget).trans hub)
      · obtain ⟨other, hget⟩ := (h.blocks.erase name).exists_get? hslot
        obtain ⟨hne, hget⟩ := ne_of_get?_erase hget
        exact hothers (.block other) (fun he => hne (Slot.block.inj he).symm) hget
    rw [(blocks_perm h hw).count_eq, List.count_cons_self, List.count_eq_zero_of_not_mem hrest]

/-- A block with one handle that a tensor holds is held by no other slot. -/
theorem sole_of_handles (h : σ.Sound R []) {name : String} {b : BlockId}
    (hname : σ.block? (.tensor name) = some b) (hone : (σ.store.block b).handles = 1) {w : Slot}
    (hw : w ≠ .tensor name) : σ.block? w ≠ some b := by
  intro hb
  obtain ⟨t, ht, hblock⟩ := Option.bind_eq_some_iff.mp hname
  have hrest : b ∈ σ.handlesWithout name := by
    cases w with
    | tensor other =>
      obtain ⟨u, hu, hub⟩ := Option.bind_eq_some_iff.mp hb
      have hne : name ≠ other := by
        rintro rfl
        exact hw rfl
      exact mem_handlesWithout hne hu hub
    | block other => exact List.mem_append_right _ (Slots.mem_of_get? hb)
  have hcount : (σ.store.block b).handles = σ.handles.count b :=
    h.holds.handles b (lt_of_block? h hname)
  rw [(handles_perm h ht).count_eq, Tensor.held_of_block hblock, List.count_append,
    List.count_singleton_self] at hcount
  have hpos := List.count_pos_iff.mpr hrest
  omega

theorem alone_tensor_iff (h : σ.Sound R []) {name : String} {b : BlockId}
    (hname : σ.block? (.tensor name) = some b) :
    σ.Alone (.tensor name) ↔ (σ.store.block b).handles = 1 := by
  constructor
  · rintro ⟨c, hc, -, hone⟩
    rw [hname] at hc
    exact Option.some.inj hc ▸ hone
  · intro hone
    exact ⟨b, hname, fun _ hw => sole_of_handles h hname hone hw, hone⟩

/-- A slot that a command has filled with a new block is alone on it. -/
theorem alone_of_new (h : σ.Sound (fun _ => True) []) {w : Slot} (hw : c.filled? = some w)
    (hnew : (step c σ).2.block? w = some σ.store.blocks.size) : (step c σ).2.Alone w := by
  have hothers (w' : Slot) (hne : w' ≠ w) : (step c σ).2.block? w' ≠ some σ.store.blocks.size := by
    have hfilled : c.filled? ≠ some w' := fun he => hne (Option.some.inj (he.symm.trans hw))
    rw [step_block?_of_ne h hfilled]
    exact not_held_of_new h (.inr rfl) rfl w'
  exact ⟨_, hnew, hothers, handles_of_sole (step_sound h c fun _ => trivial) hnew hothers⟩

end Session

/-- What the origin of the block in slot `w` decides about sharing, when a command has led from `σ` to
`σ'`. -/
def Origin.Decides (σ σ' : Session) (w : Slot) : Origin → Prop
  | .made => σ'.Alone w
  | .viewOf src => σ.block? src ≠ none → σ'.block? w = σ.block? src
  | .copyOf src => if σ.block? src = none then σ'.block? w = none else σ'.Alone w
  | .kept => σ'.block? w = σ.block? w ∨ σ'.block? w = none ∨ σ'.Alone w
  | .nowhere => σ'.block? w = none

namespace Session

open DeviceTensor.Action

variable {σ : Session} {c : Command} {allowed : Command → Prop}

theorem step_decides (h : σ.Sound (fun _ => True) []) {w : Slot} (hw : c.filled? = some w)
    (hdone : (step c σ).1.done) : c.origin.Decides σ (step c σ).2 w := by
  have hrefills := step_refills c σ hw
  unfold Refills at hrefills
  rw [if_pos hdone] at hrefills
  cases horigin : c.origin with
  | made =>
    rw [horigin] at hrefills
    exact alone_of_new h hw hrefills
  | viewOf src =>
    rw [horigin] at hrefills
    intro hsrc
    rcases hrefills with hsame | ⟨hnone, -⟩
    · exact hsame
    · exact absurd hnone hsrc
  | copyOf src =>
    rw [horigin] at hrefills
    cases hsrc : σ.block? src with
    | none =>
      refine (if_pos hsrc).mpr ?_
      exact hrefills.trans (congrArg _ hsrc)
    | some b =>
      refine (if_neg ?_).mpr (alone_of_new h hw (hrefills.trans (congrArg _ hsrc)))
      rw [hsrc]
      exact Option.some_ne_none b
  | kept =>
    rw [horigin] at hrefills
    exact hrefills.imp_right (Or.imp_right (alone_of_new h hw))
  | nowhere =>
    rw [horigin] at hrefills
    exact hrefills

/-- A slot that a command does not fill, or would have filled if it had been done, is as it was. -/
theorem step_block?_of_not (h : σ.Sound (fun _ => True) []) {w : Slot}
    (hn : ¬((step c σ).1.done ∧ c.filled? = some w)) : (step c σ).2.block? w = σ.block? w := by
  by_cases hw : c.filled? = some w
  · have hrefills := step_refills c σ hw
    unfold Refills at hrefills
    rw [if_neg fun hdone => hn ⟨hdone, hw⟩] at hrefills
    exact hrefills
  · exact step_block?_of_ne h hw

/-! ## Duplicates -/

/-- A duplicate that was made has the form and the bytes of its source. -/
theorem step_duplicate (h : σ.Sound (fun _ => True) []) {a out : String} {t : Tensor}
    (ht : σ.tensors.get? a = some t) (hdone : (step (.duplicate a out) σ).1.done) :
    ∃ t', (step (.duplicate a out) σ).2.tensors.get? out = some t' ∧
      t' = { t with block := t'.block } ∧
      t'.contents? (step (.duplicate a out) σ).2.store = t.contents? σ.store := by
  have hsound := step_sound h (.duplicate a out) fun _ => trivial
  have hstep : step (.duplicate a out) σ = makeTensor out t.duplicate σ :=
    withTensor_some ht σ.store _
  rw [hstep] at hdone hsound ⊢
  unfold makeTensor perform at hdone hsound ⊢
  cases hrun : t.duplicate σ.store with
  | mk r s =>
    rw [hrun] at hdone hsound
    cases r with
    | error f => cases hdone
    | ok t' =>
      have hget : (keepTensor out t' { σ with store := s }).2.tensors.get? out = some t' :=
        Slots.get?_put_self _ out t'
      obtain ⟨-, hbare, hmade⟩ := Tensor.duplicate_of_ok (h.valid t (Slots.mem_of_get? ht)) h.holds
        (held_subset h ht) hrun
      refine ⟨t', hget, ?_⟩
      cases hb : t.block with
      | none =>
        obtain rfl := hbare hb
        refine ⟨rfl, ?_⟩
        unfold Tensor.contents?
        rw [hb]
        rfl
      | some b =>
        obtain ⟨rfl, htwin⟩ := hmade b hb
        refine ⟨rfl, ?_⟩
        have hensues : Ensues (some out) none { σ with store := s } _ :=
          keepTensor_ensues out { t with block := some σ.store.blocks.size } { σ with store := s }
        have hmem := Tensor.mem_of_held (held_subset hsound hget) rfl
        have hkept := hensues.leaves.contents _ htwin.lt (fun hn => by cases hn)
          fun hr => hsound.holds.released _ hr hmem
        unfold Tensor.contents?
        rw [hb]
        exact congrArg some (hkept.trans (congrArg Sight.contents htwin.sight))

/-- The members of a family hold no other block than its tensor. -/
theorem block?_of_familyOf {x : String} {w : Slot} {b : BlockId} (hw : familyOf σ x w)
    (hb : σ.block? w = some b) : σ.block? (.tensor x) = some b := by
  rcases of_decide_eq_true hw with rfl | ⟨-, hsame⟩
  · exact hb
  · exact hsame.symm.trans hb

/-- Tensors on different blocks, or on none, have families that are apart. -/
theorem apart_of_different {x y : String} (hne : x ≠ y)
    (hblocks : ∀ b, σ.block? (.tensor x) = some b → σ.block? (.tensor y) ≠ some b) :
    Apart (familyOf σ x) (familyOf σ y) σ := by
  have hapart (w w' : Slot) (b : BlockId) (hw : familyOf σ x w) (hw' : familyOf σ y w')
      (hb : σ.block? w = some b) : σ.block? w' ≠ some b :=
    fun hb' => hblocks b (block?_of_familyOf hw hb) (block?_of_familyOf hw' hb')
  refine ⟨fun w hw hw' => ?_, hapart⟩
  cases hb : σ.block? w with
  | some b => exact hapart w w b hw hw' hb hb
  | none =>
    rcases of_decide_eq_true hw with rfl | ⟨hsome, -⟩
    · rcases of_decide_eq_true hw' with heq | ⟨hsome, -⟩
      · exact hne (Slot.tensor.inj heq)
      · rw [hb] at hsome
        cases hsome
    · rw [hb] at hsome
      cases hsome

/-- A duplicate and its source have families that are apart. -/
theorem apart_of_duplicate (h : σ.Sound (fun _ => True) []) {a out : String} (hne : a ≠ out)
    (hdone : (step (.duplicate a out) σ).1.done) {x y : String}
    (hxy : x = a ∧ y = out ∨ x = out ∧ y = a) :
    let σ' := (step (.duplicate a out) σ).2
    Apart (familyOf σ' x) (familyOf σ' y) σ' := by
  intro σ'
  have hdecides := step_decides h (c := .duplicate a out) (w := .tensor out) rfl hdone
  have hother : ∀ b, σ'.block? (.tensor out) = some b → σ'.block? (.tensor a) ≠ some b := by
    intro b hb
    change if σ.block? (.tensor a) = none then σ'.block? (.tensor out) = none else _ at hdecides
    split at hdecides
    · rw [hdecides] at hb
      cases hb
    · obtain ⟨b', hb', halone, -⟩ := hdecides
      obtain rfl : b' = b := Option.some.inj (hb'.symm.trans hb)
      exact halone (.tensor a) fun he => hne (Slot.tensor.inj he)
  rcases hxy with ⟨rfl, rfl⟩ | ⟨rfl, rfl⟩
  · exact apart_of_different hne fun b hb hb' => hother b hb' hb
  · exact apart_of_different hne.symm hother

/-! ## Sharing -/

/-- In every reachable session, what a command does to sharing is decided by the origin of the slot
that it fills, and by whether it was done.  A duplicate has the form and the bytes of its source and
is read as its source, unless a device does not serve a read: it may grant memory or make a copy
once, and refuse it the next time.  Let any program run then, and after it one that writes only
through one of the two and its clones and views, old and new, whatever fails in it: the other, and
its clones and views, keep their bytes, and what is read from them stays the same.  Tensors of one
type on one block always read the same. -/
theorem sharing_is_decided_by_provenance (h : Reachable allowed σ) :
    (∀ c w, if (step c σ).1.done ∧ c.filled? = some w then c.origin.Decides σ (step c σ).2 w
      else (step c σ).2.block? w = σ.block? w) ∧
    (∀ a out t, σ.tensors.get? a = some t → (step (.duplicate a out) σ).1.done →
      let σ' := (step (.duplicate a out) σ).2
      (∃ t', σ'.tensors.get? out = some t' ∧ t'.shape = t.shape ∧ t'.dtype = t.dtype ∧
        t'.transposed = t.transposed ∧ t'.device = t.device ∧
        t'.contents? σ'.store = t.contents? σ.store ∧
        ∀ dtype, Reply.SameIfServed (step (.read a dtype) σ).1 (step (.read out dtype) σ').1) ∧
      (a ≠ out → ∀ x y, x = a ∧ y = out ∨ x = out ∧ y = a → ∀ earlier later z,
        let τ := (run earlier σ').2
        lineage (familyOf σ' y) earlier σ' (.tensor z) →
        WritesWithin z (lineage (familyOf σ' x) earlier σ') later τ →
        let υ := (run later τ).2
        υ.tensors.get? z = τ.tensors.get? z ∧
        (∀ u, τ.tensors.get? z = some u → u.contents? υ.store = u.contents? τ.store) ∧
        ∀ dtype, Reply.SameIfServed (step (.read z dtype) τ).1 (step (.read z dtype) υ).1)) ∧
    (∀ x y t u, σ.tensors.get? x = some t → σ.tensors.get? y = some u → t.block ≠ none →
      u.block = t.block → u.dtype = t.dtype →
      ∀ dtype, (step (.read y dtype) σ).1 = (step (.read x dtype) σ).1) := by
  have hsound : σ.Sound (fun _ => True) [] := h.sound
  refine ⟨fun c w => ?_, fun a out t ht hdone => ⟨?_, ?_⟩, ?_⟩
  · split
    · rename_i hd
      exact step_decides hsound hd.2 hd.1
    · rename_i hn
      exact step_block?_of_not hsound hn
  · obtain ⟨t', hget, hform, hcontents⟩ := step_duplicate hsound ht hdone
    have hread := step_read_of_contents hsound (step_sound hsound _ fun _ => trivial) ht hget hform
      (step_device hsound _) hcontents
    exact ⟨t', hget, by rw [hform], by rw [hform], by rw [hform], by rw [hform], hcontents, hread⟩
  · intro hne x y hxy earlier later z τ hz hwrites υ
    have hsound' := step_sound hsound (.duplicate a out) fun _ => trivial
    have hapart := run_apart hsound' (apart_of_duplicate hsound hne hdone hxy) earlier
    have hτ := run_sound hsound' earlier
    have hintact : Intact z τ υ := run_isolates hτ hapart hz hwrites
    exact ⟨hintact.slot, hintact.contents, hintact.read hτ (run_sound hτ later)⟩
  · intro x y t u ht hu hblock hsame hdtype
    obtain ⟨b, hb⟩ := Option.ne_none_iff_exists'.mp hblock
    have hplace := ((hsound.valid t (Slots.mem_of_get? ht)).filled b hb).place
    have hplace' := ((hsound.valid u (Slots.mem_of_get? hu)).filled b (hsame.trans hb)).place
    have hread := Tensor.read_eq_of_block hdtype (hplace'.symm.trans hplace) hsame
    intro dtype
    rw [step_read_reply ht, step_read_reply hu, hdtype, hread]

/-- A transposed view on a device that the host cannot reach is duplicated, and the duplicate is written
through itself, a view of it and a handle on its block.  Two of the commands fail.  The bytes of the
duplicate have changed, and a clone of its source has those that it had. -/
theorem duplicate_of_remote_view_is_independent :
    ∃ (σ : Session) (later : List Command), Reachable (fun _ => True) σ ∧
      let σ' := (step (.duplicate "a" "copy") σ).2
      let τ := (run later σ').2
      σ'.Alone (.tensor "copy") ∧
      (∀ dtype, Reply.SameIfServed (step (.read "a" dtype) σ).1 (step (.read "copy" dtype) σ').1) ∧
      (run later σ').1.countP (fun r => r.failure?.isSome) = 2 ∧
      (τ.store.block 2).contents ≠ (σ'.store.block 2).contents ∧
      (∀ u, σ'.tensors.get? "b" = some u → u.contents? τ.store = u.contents? σ'.store) ∧
      ∀ dtype, Reply.SameIfServed (step (.read "b" dtype) σ').1 (step (.read "b" dtype) τ).1 := by
  let specs := [DeviceSpec.simulated "gpu" none { backend := .cuda, addressable := false }]
  let program := [Command.ofElements "m" [2, 2] .int32 #[1, 2, 3, 4], .moveTo "m" "gpu",
    .transpose "m" "a", .share "a" "b"]
  let later := [Command.upload "copy" .int32 #[7] 2, .fill "copy" Double.one, .transpose "copy" "c",
    .blockOf "c" "h", .reshape "c" [3], .drop "copy", .copyFrom "c" "a", .upload "c" .int32 #[8] 0,
    .newBlock "i" "gpu" 4, .copyBlock "h" 4 "i" 0 4]
  let t : Tensor := ⟨[2, 2], .int32, true, 1, some 1⟩
  have hσ : Reachable (fun _ => True) (run program (start specs)).2 :=
    (reachable_start specs).run fun _ _ => trivial
  have hrun : let σ := (run program (start specs)).2
      let σ' := (step (.duplicate "a" "copy") σ).2
      σ.tensors.get? "a" = some t ∧ (step (.duplicate "a" "copy") σ).1.done ∧
      σ.block? (.tensor "a") = some 1 ∧ familyOf σ' "a" (.tensor "b") ∧
      WritesWithin "b" (familyOf σ' "copy") later σ' ∧
      (run later σ').1.countP (fun r => r.failure?.isSome) = 2 ∧
      ((run later σ').2.store.block 2).contents ≠ (σ'.store.block 2).contents := by
    decide +kernel
  generalize (run program (start specs)).2 = σ at hσ hrun
  obtain ⟨ht, hdone, hblock, hfamily, hwrites, hfailed, hchanged⟩ := hrun
  obtain ⟨hdecides, hcopies, -⟩ := sharing_is_decided_by_provenance hσ
  have hfilled := hdecides (.duplicate "a" "copy") (.tensor "copy")
  rw [if_pos ⟨hdone, rfl⟩] at hfilled
  have halone : (step (.duplicate "a" "copy") σ).2.Alone (.tensor "copy") := by
    refine (if_neg ?_).mp hfilled
    rw [hblock]
    exact Option.some_ne_none 1
  obtain ⟨⟨_, -, -, -, -, -, -, hread⟩, hapart⟩ := hcopies "a" "copy" t ht hdone
  have hsame := hapart (by decide) "copy" "a" (.inr ⟨rfl, rfl⟩) [] later "b" hfamily hwrites
  dsimp only [run] at hsame
  exact ⟨σ, later, hσ, halone, hread, hfailed, hchanged, hsame.2⟩

end Session

end DeviceTensor
