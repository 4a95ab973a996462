import DeviceTensor.Proofs.Tensor.Change
import DeviceTensor.Session.Step
set_option autoImplicit false

/-!
# Sound sessions

A session is sound if its tensors are valid and the handles of its slots are all the handles there
are.  `Session.Sound σ P extra` says so with handles `extra` beside those of the slots, which a
command holds while it runs, and with a condition `P` on the registry.  Every command, whether it
succeeds or fails, leads from a sound session to a sound one: `Session.step_sound`.
-/

namespace DeviceTensor

/-! ## Slots -/

namespace Slots

variable {α : Type} {slots : Slots α} {name : String} {x : α}

/-- No name stands for two things. -/
def Unique (slots : Slots α) : Prop := (slots.entries.map (·.1)).Nodup

theorem mem_of_get? (h : slots.get? name = some x) : x ∈ slots.values := by
  obtain ⟨l₁, l₂, heq, -⟩ := List.lookup_eq_some_iff.mp h
  unfold values
  rw [heq]
  simp

theorem Unique.erase (h : slots.Unique) (name : String) : (slots.erase name).Unique :=
  h.sublist (List.filter_sublist.map _)

theorem Unique.put (h : slots.Unique) (name : String) (x : α) : (slots.put name x).Unique := by
  refine List.nodup_cons.mpr ⟨?_, h.erase name⟩
  simp [Slots.erase]

theorem values_put (slots : Slots α) (name : String) (x : α) :
    (slots.put name x).values = x :: (slots.erase name).values := rfl

theorem mem_of_mem_erase {y : α} (h : y ∈ (slots.erase name).values) : y ∈ slots.values := by
  obtain ⟨e, he, rfl⟩ := List.mem_map.mp h
  exact List.mem_map_of_mem (List.mem_filter.mp he).1

theorem erase_of_get?_eq_none (h : slots.get? name = none) : slots.erase name = slots := by
  have hne : ∀ e ∈ slots.entries, (e.1 != name) = true := by
    intro e he
    have hlookup := List.lookup_eq_none_iff.mp h e he
    simpa [bne, BEq.comm] using hlookup
  unfold erase
  rw [List.filter_eq_self.mpr hne]

/-- Erasing a name takes away what it stood for. -/
theorem perm_erase (hu : slots.Unique) (h : slots.get? name = some x) :
    slots.values.Perm (x :: (slots.erase name).values) := by
  obtain ⟨l₁, l₂, heq, hne⟩ := List.lookup_eq_some_iff.mp h
  have hnodup : ((l₁ ++ (name, x) :: l₂).map (·.1)).Nodup := heq ▸ hu
  have h₁ : l₁.filter (·.1 != name) = l₁ := by
    refine List.filter_eq_self.mpr fun e he => ?_
    simpa [bne, BEq.comm] using hne e he
  have h₂ : l₂.filter (·.1 != name) = l₂ := by
    refine List.filter_eq_self.mpr fun e he => ?_
    simp only [List.map_append, List.map_cons, List.nodup_append, List.nodup_cons] at hnodup
    have hnot := hnodup.2.1.1
    simp only [bne_iff_ne, ne_eq]
    intro hname
    exact hnot (hname ▸ List.mem_map_of_mem he)
  unfold erase values
  rw [heq, List.filter_append, List.filter_cons_of_neg (by simp), h₁, h₂]
  simp only [List.map_append, List.map_cons]
  exact List.perm_middle

end Slots

/-! ## Soundness -/

namespace Session

open DeviceTensor.Action

/-- The handles of the slots. -/
def handles (σ : Session) : List BlockId :=
  σ.tensors.values.flatMap Tensor.held ++ σ.blocks.values

/-- The tensors are valid, the handles are those of the slots and `extra`, and the registry
satisfies `P`. -/
structure Sound (σ : Session) (P : Registry Routine → Prop) (extra : List BlockId) : Prop where
  registry : P σ.store.registry
  tensors : σ.tensors.Unique
  blocks : σ.blocks.Unique
  valid : ∀ t ∈ σ.tensors.values, t.Valid σ.store
  holds : σ.store.Holds (extra ++ σ.handles)

variable {σ : Session} {s : Store} {P : Registry Routine → Prop} {extra extra' : List BlockId}

theorem Sound.withStore (h : σ.Sound P extra) (hs : σ.store.Extends s)
    (hh : s.Holds (extra' ++ σ.handles)) : Sound { σ with store := s } P extra' where
  registry := hs.registry.symm ▸ h.registry
  tensors := h.tensors
  blocks := h.blocks
  valid t ht := (h.valid t ht).mono hs
  holds := hh

theorem Sound.keeps (h : σ.Sound P extra) (hs : σ.store.Keeps s) :
    Sound { σ with store := s } P extra :=
  h.withStore hs.extend (hs.holds _ h.holds)

/-- The handles of the slots other than the tensor `name`. -/
def handlesWithout (name : String) (σ : Session) : List BlockId :=
  (σ.tensors.erase name).values.flatMap Tensor.held ++ σ.blocks.values

theorem handles_perm_of_unique {name : String} {t : Tensor} (h : σ.tensors.Unique)
    (ht : σ.tensors.get? name = some t) :
    σ.handles.Perm (t.held ++ σ.handlesWithout name) := by
  unfold handles handlesWithout
  have hp := (Slots.perm_erase h ht).flatMap_right Tensor.held
  rw [← List.append_assoc]
  exact hp.append_right _

theorem handles_perm {name : String} {t : Tensor} (h : σ.Sound P extra)
    (ht : σ.tensors.get? name = some t) :
    σ.handles.Perm (t.held ++ σ.handlesWithout name) :=
  handles_perm_of_unique h.tensors ht

theorem held_subset {name : String} {t : Tensor} (h : σ.Sound P extra)
    (ht : σ.tensors.get? name = some t) : t.held ⊆ σ.handles := by
  intro b hb
  exact (handles_perm h ht).mem_iff.mpr (List.mem_append_left _ hb)

theorem blocks_perm_of_unique {name : String} {b : BlockId} (h : σ.blocks.Unique)
    (hb : σ.blocks.get? name = some b) :
    σ.handles.Perm
      (b :: (σ.tensors.values.flatMap Tensor.held ++ (σ.blocks.erase name).values)) := by
  unfold handles
  exact ((Slots.perm_erase h hb).append_left _).trans List.perm_middle

theorem blocks_perm {name : String} {b : BlockId} (h : σ.Sound P extra)
    (hb : σ.blocks.get? name = some b) :
    σ.handles.Perm
      (b :: (σ.tensors.values.flatMap Tensor.held ++ (σ.blocks.erase name).values)) :=
  blocks_perm_of_unique h.blocks hb

theorem block_mem_handles {name : String} {b : BlockId} (h : σ.Sound P extra)
    (hb : σ.blocks.get? name = some b) : b ∈ σ.handles :=
  (blocks_perm h hb).mem_iff.mpr List.mem_cons_self

/-! ## Slots of tensors and blocks -/

theorem dropTensor_sound (h : σ.Sound P extra) (name : String) :
    (σ.dropTensor name).Sound P extra := by
  unfold dropTensor
  split
  · rename_i t ht
    have hext := t.extends_release σ.store
    refine ⟨hext.registry.symm ▸ h.registry, h.tensors.erase name, h.blocks, fun u hu => ?_, ?_⟩
    · exact (h.valid u (Slots.mem_of_mem_erase hu)).mono hext
    · have hp : (extra ++ σ.handles).Perm (t.held ++ (extra ++ σ.handlesWithout name)) := by
        refine ((handles_perm h ht).append_left extra).trans ?_
        rw [← List.append_assoc, ← List.append_assoc]
        exact List.perm_append_comm.append_right _
      exact Tensor.holds_release (h.holds.perm hp)
  · exact h

theorem erase_dropTensor (σ : Session) (name : String) :
    (σ.dropTensor name).tensors.erase name = (σ.dropTensor name).tensors := by
  unfold dropTensor
  split
  · simp [Slots.erase, List.filter_filter]
  · rename_i hnone
    exact Slots.erase_of_get?_eq_none hnone

theorem values_keepTensor (name : String) (t : Tensor) (σ : Session) :
    (keepTensor name t σ).2.tensors.values = t :: (σ.dropTensor name).tensors.values := by
  change ((σ.dropTensor name).tensors.put name t).values = _
  rw [Slots.values_put, erase_dropTensor]

theorem extends_dropTensor (σ : Session) (name : String) :
    σ.store.Extends (σ.dropTensor name).store := by
  unfold dropTensor
  split
  · exact Tensor.extends_release _ _
  · exact .refl _

theorem extends_dropBlock (σ : Session) (name : String) :
    σ.store.Extends (σ.dropBlock name).store := by
  unfold dropBlock
  split
  · exact Store.extends_release _ _
  · exact .refl _

theorem keepTensor_sound {t : Tensor} (h : σ.Sound P t.held) (ht : t.Valid σ.store)
    (name : String) : (keepTensor name t σ).2.Sound P [] := by
  have hd := dropTensor_sound h name
  have hext := σ.extends_dropTensor name
  refine ⟨hd.registry, hd.tensors.put name t, hd.blocks, fun u hu => ?_, ?_⟩
  · rw [values_keepTensor] at hu
    cases hu with
    | head => exact ht.mono hext
    | tail _ hu => exact hd.valid u hu
  · have hold := hd.holds
    unfold handles at hold ⊢
    rw [values_keepTensor, List.flatMap_cons, List.nil_append, List.append_assoc]
    exact hold

theorem dropBlock_sound (h : σ.Sound P extra) (name : String) :
    (σ.dropBlock name).Sound P extra := by
  unfold dropBlock
  split
  · rename_i b hb
    have hext := Store.extends_release σ.store b
    refine ⟨hext.registry.symm ▸ h.registry, h.tensors, h.blocks.erase name,
      fun u hu => (h.valid u hu).mono hext, ?_⟩
    exact (h.holds.perm (((blocks_perm h hb).append_left extra).trans List.perm_middle)).release
  · exact h

theorem erase_dropBlock (σ : Session) (name : String) :
    (σ.dropBlock name).blocks.erase name = (σ.dropBlock name).blocks := by
  unfold dropBlock
  split
  · simp [Slots.erase, List.filter_filter]
  · rename_i hnone
    exact Slots.erase_of_get?_eq_none hnone

theorem values_keepBlock (name : String) (b : BlockId) (σ : Session) :
    (keepBlock name b σ).2.blocks.values = b :: (σ.dropBlock name).blocks.values := by
  change ((σ.dropBlock name).blocks.put name b).values = _
  rw [Slots.values_put, erase_dropBlock]

theorem keepBlock_sound {b : BlockId} (h : σ.Sound P [b]) (name : String) :
    (keepBlock name b σ).2.Sound P [] := by
  have hd := dropBlock_sound h name
  refine ⟨hd.registry, hd.tensors, hd.blocks.put name b, hd.valid, ?_⟩
  have hold := hd.holds
  unfold handles at hold ⊢
  rw [values_keepBlock, List.nil_append]
  have hp : (b :: (σ.dropBlock name).handles).Perm
      ((σ.dropBlock name).tensors.values.flatMap Tensor.held ++
        b :: (σ.dropBlock name).blocks.values) :=
    List.perm_middle.symm
  exact hold.perm hp

/-! ## Running actions -/

section Actions

variable {α : Type}

theorem perform_sound {x : Action Fault α} {next : α → Session → Reply × Session}
    (h : x.Ends σ.store (fun a s => (next a { σ with store := s }).2.Sound P [])
      (fun _ s => Sound { σ with store := s } P [])) : (perform x next σ).2.Sound P [] := by
  unfold perform
  cases hx : x σ.store with
  | mk r s =>
    cases r with
    | ok a => exact h.ok hx
    | error f => exact h.error hx

/-- Work that keeps the handles, and a reply. -/
theorem perform_keeps (h : σ.Sound P []) {x : Action Fault α} (hx : x.Within Store.Keeps)
    {next : α → Session → Reply × Session} (hn : ∀ a σ, (next a σ).2 = σ) :
    (perform x next σ).2.Sound P [] := by
  refine perform_sound ((hx.ends σ.store).mono (fun a s hs => ?_) fun _ s hs => h.keeps hs)
  rw [hn]
  exact h.keeps hs

theorem makeTensor_sound (h : σ.Sound P []) {x : Action Fault Tensor}
    (hx : Tensor.Yields x σ.store σ.handles σ.handles) (name : String) :
    (makeTensor name x σ).2.Sound P [] := by
  refine perform_sound (hx.mono ?_ ?_)
  · rintro t s ⟨he, hv, hh⟩
    exact keepTensor_sound (h.withStore he hh) hv name
  · rintro e s ⟨he, hh⟩
    exact h.withStore he hh

theorem withTensor_sound (h : σ.Sound P []) {name : String}
    {next : Tensor → Session → Reply × Session}
    (hn : ∀ t, σ.tensors.get? name = some t → (next t σ).2.Sound P []) :
    (withTensor name next σ).2.Sound P [] := by
  unfold withTensor
  split
  · rename_i t ht
    exact hn t ht
  · exact h

theorem withBlock_sound (h : σ.Sound P []) {name : String}
    {next : BlockId → Session → Reply × Session}
    (hn : ∀ b, σ.blocks.get? name = some b → (next b σ).2.Sound P []) :
    (withBlock name next σ).2.Sound P [] := by
  unfold withBlock
  split
  · rename_i b hb
    exact hn b hb
  · exact h

theorem onDeviceNamed_sound (h : σ.Sound P []) {name : String}
    {next : DeviceId → Session → Reply × Session} (hn : ∀ d, (next d σ).2.Sound P []) :
    (onDeviceNamed name next σ).2.Sound P [] := by
  unfold onDeviceNamed
  split
  · exact hn _
  · exact h

/-- The tensor in a slot changes, and with it the handle of the slot. -/
theorem changeTensor_sound (h : σ.Sound P []) {name : String} {x : Tensor → Action Fault Tensor}
    (hx : ∀ t hs, t.Valid σ.store → σ.store.Holds (t.held ++ hs) →
      Tensor.Yields (x t) σ.store hs (t.held ++ hs)) :
    (changeTensor name x σ).2.Sound P [] := by
  refine withTensor_sound h fun t ht => perform_sound ?_
  have hp := handles_perm h ht
  have hy := hx t (σ.handlesWithout name) (h.valid t (Slots.mem_of_get? ht)) (h.holds.perm hp)
  refine hy.mono ?_ ?_
  · rintro u s ⟨he, hv, hh⟩
    refine ⟨he.registry.symm ▸ h.registry, h.tensors.put name u, h.blocks, fun v hm => ?_, ?_⟩
    · cases hm with
      | head => exact hv
      | tail _ hm => exact (h.valid v (Slots.mem_of_mem_erase hm)).mono he
    · have hsame : Session.handles { σ with store := s, tensors := σ.tensors.put name u } =
          u.held ++ σ.handlesWithout name := by
        unfold handles handlesWithout
        rw [Slots.values_put, List.flatMap_cons, List.append_assoc]
      exact hsame ▸ hh
  · rintro e s ⟨he, hh⟩
    exact h.withStore he (hh.perm hp.symm)

theorem workOn_sound (h : σ.Sound P []) {name : String} {x : Tensor → Action Fault Unit}
    (hx : ∀ t, (x t).Within Store.Keeps) : (workOn name x σ).2.Sound P [] :=
  withTensor_sound h fun t _ => perform_keeps h (hx t) fun _ _ => rfl

theorem ask_sound (h : σ.Sound P []) {name : String} {x : Tensor → Action Fault α}
    {answer : α → Reply} (hx : ∀ t, (x t).Within Store.Keeps) :
    (ask name x answer σ).2.Sound P [] :=
  withTensor_sound h fun t _ => perform_keeps h (hx t) fun _ _ => rfl

theorem compute_sound (h : σ.Sound P []) {out : Target} {make : Action Fault Tensor}
    {into : Tensor → Action Fault Unit}
    (hm : Tensor.Yields make σ.store σ.handles σ.handles)
    (hi : ∀ t, (into t).Within Store.Keeps) : (compute out make into σ).2.Sound P [] := by
  unfold compute
  split
  · exact workOn_sound h hi
  · exact makeTensor_sound h hm out.name

theorem withRhs_sound (h : σ.Sound P []) {rhs : Rhs}
    {next : Tensor.RightSide → Session → Reply × Session} (hn : ∀ r, (next r σ).2.Sound P []) :
    (withRhs rhs next σ).2.Sound P [] := by
  cases rhs with
  | number x => exact hn (.scalar x)
  | named name => exact withTensor_sound h fun t _ => hn (.tensor t)

end Actions

/-! ## Launches and registrations -/

theorem runDirect_sound (h : σ.Sound P []) (key : RoutineKey) (inv : Invocation) (out : BlockId) :
    (runDirect key inv out σ).2.Sound P [] := by
  unfold runDirect
  split
  · exact h
  · rename_i routine _
    have hk := (routine.run_settles inv).keeps σ.store
    split <;> rename_i hrun <;> rw [hrun] at hk <;> exact h.keeps hk

theorem runLaunch_sound (h : σ.Sound P []) (call : NamedInvocation) :
    (runLaunch call σ).2.Sound P [] := by
  refine onDeviceNamed_sound h fun d => withBlock_sound h fun b _ => ?_
  split
  · exact h
  · dsimp only
    split
    · exact runDirect_sound h _ _ _
    · exact perform_keeps h (launch_keeps _ _ _) fun _ _ => rfl

theorem registerRoutine_sound (h : σ.Sound P []) (f : Registry Routine → Registry Routine)
    (hf : P σ.store.registry → P (f σ.store.registry)) : (registerRoutine f σ).2.Sound P [] where
  registry := hf h.registry
  tensors := h.tensors
  blocks := h.blocks
  valid t ht :=
    ⟨fun b hb =>
      let hf := (h.valid t ht).filled b hb
      ⟨hf.lt, hf.place, hf.size, hf.small, hf.counted⟩,
      (h.valid t ht).bare, (h.valid t ht).rank⟩
  holds := ⟨h.holds.lt, h.holds.handles, h.holds.bound, h.holds.released⟩

/-! ## Commands -/

theorem numbers_keeps (t : Tensor) : (numbers t).Within Store.Keeps :=
  .bind (t.read_keeps t.dtype) fun _ => .pure _

/-- What a command registers. -/
def registers : Command → Registry Routine → Registry Routine
  | .registerCatalog backend, r => r.registerCatalog backend
  | .registerProbe key p, r => r.register key (.probe p)
  | _, r => r

/-- Every command leads from a sound session to a sound one. -/
theorem step_sound (h : σ.Sound P []) (c : Command)
    (hc : P σ.store.registry → P (registers c σ.store.registry)) : (step c σ).2.Sound P [] := by
  have hholds : σ.store.Holds σ.handles := h.holds
  have hvalid {name : String} {t : Tensor} (ht : σ.tensors.get? name = some t) :
      t.Valid σ.store := h.valid t (Slots.mem_of_get? ht)
  have hheld {name : String} {t : Tensor} (ht : σ.tensors.get? name = some t) :
      t.held ⊆ σ.handles := held_subset h ht
  cases c with
  | create out shape device dtype =>
    exact onDeviceNamed_sound h fun d =>
      makeTensor_sound h (Tensor.onDevice_yields shape d dtype hholds) out
  | createEmpty out =>
    have hempty : Tensor.Yields (Pure.pure .empty) σ.store σ.handles σ.handles :=
      ⟨.refl _, Tensor.valid_of_bare rfl ⟨rfl, rfl⟩, hholds⟩
    exact makeTensor_sound h hempty out
  | ofElements out shape d xs =>
    exact makeTensor_sound h (Tensor.ofElements_yields shape xs hholds) out
  | share t out =>
    exact withTensor_sound h fun t ht =>
      makeTensor_sound h (Tensor.share_yields (hvalid ht) hholds (hheld ht)) out
  | duplicate t out =>
    exact withTensor_sound h fun t ht =>
      makeTensor_sound h (Tensor.duplicate_yields (hvalid ht) hholds) out
  | transpose t out =>
    exact withTensor_sound h fun t ht =>
      makeTensor_sound h (Tensor.transpose_yields (hvalid ht) hholds (hheld ht)) out
  | reshaped t out shape =>
    exact withTensor_sound h fun t ht =>
      makeTensor_sound h (Tensor.reshaped_yields (hvalid ht) shape hholds (hheld ht)) out
  | drop t => exact dropTensor_sound h t
  | reshape t shape =>
    exact changeTensor_sound h fun t hs hv hh => Tensor.reshape_yields hv shape hh
  | resize t shape =>
    exact changeTensor_sound h fun t hs hv hh => Tensor.resize_yields hv shape hh
  | takeForm t other =>
    exact withTensor_sound h fun other ho =>
      changeTensor_sound h fun t hs hv hh => Tensor.takeForm_yields hv (hvalid ho) hh
  | convert t dtype =>
    exact changeTensor_sound h fun t hs hv hh => Tensor.convert_yields hv dtype hh
  | moveTo t device =>
    exact onDeviceNamed_sound h fun d =>
      changeTensor_sound h fun t hs hv hh => Tensor.moveTo_yields hv d hh
  | fill t x => exact workOn_sound h fun t => t.fill_keeps x
  | upload t d xs offset => exact workOn_sound h fun t => t.upload_keeps xs offset
  | copyFrom t other =>
    exact withTensor_sound h fun other _ => workOn_sound h fun t => t.copyFrom_keeps other
  | copyRange t other count dstOffset srcOffset =>
    exact withTensor_sound h fun other _ =>
      workOn_sound h fun t => t.copyRange_keeps other count dstOffset srcOffset
  | state t => exact withTensor_sound h fun _ _ => h
  | read t dtype =>
    cases dtype with
    | none =>
      exact withTensor_sound h fun t _ => perform_keeps h (t.read_keeps t.dtype) fun _ _ => rfl
    | some d => exact ask_sound h fun t => t.read_keeps d
  | dimension t i => exact ask_sound h fun t => .ofExcept _
  | norm t => exact ask_sound h fun t => t.norm_keeps
  | sum t d => exact ask_sound h fun t => t.sum_keeps d
  | describe t => exact ask_sound h fun t => .inspect _
  | sharing a b => exact withTensor_sound h fun _ _ => withTensor_sound h fun _ _ => h
  | check a b => exact withTensor_sound h fun _ _ => ask_sound h fun _ => .examine _
  | sameElements a b =>
    refine withTensor_sound h fun a _ => withTensor_sound h fun b _ => ?_
    refine perform_keeps h ?_ fun _ _ => rfl
    exact .bind (numbers_keeps a) fun _ => .bind (numbers_keeps b) fun _ => .pure _
  | statistics t low high mean tolerance => exact ask_sound h numbers_keeps
  | map op t x out =>
    exact withTensor_sound h fun t ht =>
      compute_sound h (Tensor.map_yields (hvalid ht) op x hholds) (Tensor.mapTo_keeps op t x)
  | zip op a b out =>
    exact withTensor_sound h fun a ha => withTensor_sound h fun b _ =>
      compute_sound h (Tensor.zip_yields (hvalid ha) op b hholds) (Tensor.zipTo_keeps op a b)
  | sums which t out =>
    exact withTensor_sound h fun t _ =>
      compute_sound h (Tensor.sums_yields which t hholds) (Tensor.sumsTo_keeps which t)
  | sumAxis t axis out =>
    exact withTensor_sound h fun t _ =>
      compute_sound h (Tensor.sumAxis_yields t axis hholds) (Tensor.sumAxisTo_keeps t axis)
  | average t axis out =>
    exact withTensor_sound h fun t _ => makeTensor_sound h (Tensor.average_yields t axis hholds) out
  | softmax t axis out =>
    exact withTensor_sound h fun t ht =>
      compute_sound h (Tensor.softmax_yields (hvalid ht) axis hholds)
        (Tensor.softmaxTo_keeps t axis)
  | product a b out =>
    exact withTensor_sound h fun a _ => withTensor_sound h fun b _ =>
      compute_sound h (Tensor.product_yields a b hholds) (Tensor.productScaled_keeps _ a b _)
  | operate f a rhs out =>
    exact withTensor_sound h fun a ha => withRhs_sound h fun rhs =>
      makeTensor_sound h (Tensor.operate_yields (hvalid ha) f rhs hholds) out
  | assign f t rhs twice =>
    refine withRhs_sound h fun rhs => workOn_sound h fun t => ?_
    have hkeeps := Tensor.assign_keeps f t rhs
    exact .bind hkeeps fun _ => .ite hkeeps (.pure ())
  | broadcast op alpha beta v m =>
    exact withTensor_sound h fun v _ => workOn_sound h (Tensor.broadcast_keeps op alpha beta v)
  | addScaled alpha t out =>
    exact withTensor_sound h fun t _ => workOn_sound h (Tensor.addScaled_keeps alpha t)
  | productScaled alpha a b beta c =>
    exact withTensor_sound h fun a _ => withTensor_sound h fun b _ =>
      workOn_sound h (Tensor.productScaled_keeps alpha a b beta)
  | random t D => exact workOn_sound h fun t => t.fillSamples_keeps D
  | deviceInfo device => exact onDeviceNamed_sound h fun _ => h
  | synchronize device =>
    refine onDeviceNamed_sound h fun d => ?_
    have hasked := h.keeps (Store.keeps_modifyDevice (f := (·.after .wait)) σ.store d rfl)
    dsimp only
    split <;> exact hasked
  | reseed device seed =>
    exact onDeviceNamed_sound h fun d => h.keeps (Store.keeps_modifyDevice σ.store d rfl)
  | registerCatalog backend => exact registerRoutine_sound h (·.registerCatalog backend) hc
  | lookup key =>
    simp only [step]
    split <;> exact h
  | registerProbe key p => exact registerRoutine_sound h (·.register key (.probe p)) hc
  | newBlock out device size =>
    refine onDeviceNamed_sound h fun d => perform_sound ?_
    rw [ends_changing]
    exact keepBlock_sound
      (h.withStore (σ.store.extends_acquire d size) (hholds.acquire d size)) out
  | blockOf t out =>
    refine withTensor_sound h fun t ht => ?_
    cases hb : t.block with
    | none => exact h
    | some b =>
      have hr := Tensor.holds_retain hholds (hheld ht)
      unfold Tensor.held at hr
      rw [hb] at hr
      exact perform_sound (keepBlock_sound (h.withStore (t.extends_retain _) hr) out)
  | shareBlock b out =>
    refine withBlock_sound h fun b hb => perform_sound ?_
    exact keepBlock_sound
      (h.withStore (σ.store.extends_retain b) (hholds.retain (block_mem_handles h hb))) out
  | dropBlock b => exact dropBlock_sound h b
  | blockState b => exact withBlock_sound h fun _ _ => h
  | bindBlock b =>
    exact withBlock_sound h fun b _ => perform_keeps h (Block.bindMemory_keeps b) fun _ _ => rfl
  | writeBlock b d xs =>
    exact withBlock_sound h fun b _ => perform_keeps h (Block.write_keeps b xs) fun _ _ => rfl
  | readBlock b d count =>
    exact withBlock_sound h fun b _ => perform_keeps h (Block.view_keeps b d count) fun _ _ => rfl
  | sameBlock a b => exact withBlock_sound h fun _ _ => withBlock_sound h fun _ _ => h
  | copyBlock dst dstOffset src srcOffset size =>
    exact withBlock_sound h fun dst _ => withBlock_sound h fun src _ =>
      perform_keeps h (Block.copy_keeps _ _ _) fun _ _ => rfl
  | launch call => exact runLaunch_sound h call

end Session

end DeviceTensor
