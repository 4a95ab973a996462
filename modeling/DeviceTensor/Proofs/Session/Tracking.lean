import DeviceTensor.Proofs.Session.Conduct
import DeviceTensor.Proofs.Session.Reachable
import DeviceTensor.Proofs.Tensor.Tracking
set_option autoImplicit false

/-!
# Commands on sessions that resemble each other

Two sessions resemble each other, `Session.Resembles`, if they have the same slots and their stores
differ in nothing but the memory of blank blocks and what devices account for.  Every command gives
replies that are alike on such sessions, `Reply.Alike`, and leaves sessions that resemble each
other, unless a device refuses memory: `Session.step_tracks`.
-/

namespace DeviceTensor

open DeviceTensor.Action

/-! ## Replies that are alike -/

/-- The report of a tensor as if its memory were bound: without memory its elements are those of
zeroed bytes. -/
def TensorReport.asBound (r : TensorReport) : TensorReport :=
  let zeros := Elem.decode r.dtype r.count (Array.replicate r.byteSize 0)
  { r with bound := true, elements := some (r.elements.getD zeros) }

/-- The reports of a block agree, but for whether its memory is bound: without memory its bytes are
zeros, and the description tells no more. -/
structure BlockReport.Alike (r r' : BlockReport) : Prop where
  device : r'.device = r.device
  size : r'.size = r.size
  handles : r'.handles = r.handles
  bytes : r'.bytes.getD (Array.replicate r'.size 0) = r.bytes.getD (Array.replicate r.size 0)
  text : r'.bound = r.bound → r'.text = r.text

namespace Reply

/-- The replies agree in everything but whether memory is bound and what devices account for. -/
inductive Alike : Reply → Reply → Prop where
  | same (r : Reply) : Alike r r
  | tensor {r r' : TensorReport} (h : r'.asBound = r.asBound) : Alike (.tensor r) (.tensor r')
  | block {r r' : BlockReport} (h : r.Alike r') : Alike (.block r) (.block r')
  | device {r r' : DeviceReport} (backend : r'.backend = r.backend)
      (addressable : r'.addressable = r.addressable) : Alike (.device r) (.device r')

end Reply

variable {s s' : Store}

/-- The bytes behind a tensor; without a block they are zeros. -/
def Tensor.bytes (t : Tensor) (s : Store) : Array UInt8 :=
  (t.block.map fun b => (s.block b).contents).getD (Array.replicate (t.byteSize s) 0)

theorem Tensor.bytes_congr (hs : s.Resembles s') (t : Tensor) : t.bytes s' = t.bytes s := by
  unfold bytes
  rw [byteSize_congr hs]
  cases t.block with
  | none => rfl
  | some b => exact (hs.block b).contents

/-- The elements that are reported, as if memory were bound. -/
theorem Tensor.visibleElements_asBound (hserve : s.Serviceable) (t : Tensor) :
    (t.visibleElements s).getD
        (Elem.decode t.dtype (t.count s) (Array.replicate (t.byteSize s) 0)) =
      Elem.decode t.dtype (t.count s) (t.bytes s) := by
  unfold visibleElements isVisible isBound bytes byteSize
  cases t.block with
  | none => rfl
  | some b =>
    dsimp only [Option.map_some, Option.getD_some]
    rw [hserve.addressable, Bool.and_true]
    unfold Block.contents
    cases (s.block b).memory <;> rfl

theorem Tensor.report_alike (hs : s.Resembles s') (hserve : s.Serviceable) (t : Tensor) :
    (t.report s').asBound = (t.report s).asBound := by
  have hhandles : (t.report s').handles = (t.report s).handles := by
    unfold report
    cases t.block with
    | none => rfl
    | some b => exact (hs.block b).handles
  unfold TensorReport.asBound
  rw [hhandles]
  unfold report
  dsimp only
  rw [visibleElements_asBound hserve, visibleElements_asBound (hs.serviceable hserve), hs.name,
    byteSize_congr hs, count_congr hs, bytes_congr hs]

theorem Block.report_alike (hs : s.Resembles s') (hserve : s.Serviceable) (b : BlockId) :
    (Block.report b s).Alike (Block.report b s') := by
  have howner := Device.mk.inj (hs.owner b)
  have hbytes {s : Store} (hserve : s.Serviceable) :
      (Block.report b s).bytes.getD (Array.replicate (Block.report b s).size 0) =
        (s.block b).contents := by
    unfold report Store.owner
    dsimp only
    rw [hserve.addressable, Bool.and_true]
    unfold contents
    cases (s.block b).memory <;> rfl
  refine ⟨howner.1, (hs.block b).size, (hs.block b).handles, ?_, fun hbound => ?_⟩
  · rw [hbytes hserve, hbytes (hs.serviceable hserve), (hs.block b).contents]
  · change (s'.block b).memory.isBound = (s.block b).memory.isBound at hbound
    unfold Store.owner at howner
    unfold report text
    dsimp only
    rw [howner.1, howner.2.1, (hs.block b).size, hbound]

namespace Session

/-! ## Sessions that resemble each other -/

/-- The sessions have the same slots, and their stores differ in nothing but blank memory and what
devices account for. -/
structure Resembles (σ σ' : Session) : Prop where
  store : σ.store.Resembles σ'.store
  tensors : σ'.tensors = σ.tensors
  blocks : σ'.blocks = σ.blocks

/-- The replies are alike, the sessions after them resemble each other, and the devices are
described as they were in `σ`. -/
structure Agrees (σ : Session) (r r' : Reply × Session) : Prop where
  reply : r.1.Alike r'.1
  session : r.2.Resembles r'.2
  device : ∀ d, (r.2.store.device d).description = (σ.store.device d).description

/-- What comes of a command agrees, unless memory is refused. -/
def Tracks (σ : Session) (r r' : Reply × Session) : Prop :=
  r.1.refusesMemory = true ∨ r'.1.refusesMemory = true ∨ Agrees σ r r'

variable {σ σ' : Session} {P : Registry Routine → Prop} {α : Type}

theorem Resembles.refl (σ : Session) : σ.Resembles σ := ⟨.refl _, rfl, rfl⟩

theorem Resembles.withStore (h : σ.Resembles σ') (hs : s.Resembles s') :
    Resembles { σ with store := s } { σ' with store := s' } := ⟨hs, h.tensors, h.blocks⟩

/-- Memory that is bound between commands is not seen. -/
theorem Resembles.binds (h : σ.Resembles σ') (hs : σ.store.Binds s) (hs' : σ'.store.Binds s') :
    Resembles { σ with store := s } { σ' with store := s' } :=
  h.withStore (h.store.binds hs hs')

theorem Resembles.dropTensor (h : σ.Resembles σ') (name : String) :
    (σ.dropTensor name).Resembles (σ'.dropTensor name) := by
  unfold Session.dropTensor
  rw [h.tensors]
  split
  · rename_i t _
    exact ⟨t.tidies_release.resembles h.store, rfl, h.blocks⟩
  · exact h

theorem Resembles.dropBlock (h : σ.Resembles σ') (name : String) :
    (σ.dropBlock name).Resembles (σ'.dropBlock name) := by
  unfold Session.dropBlock
  rw [h.blocks]
  split
  · rename_i b _
    exact ⟨h.store.release b, h.tensors, rfl⟩
  · exact h

/-! ## Running actions -/

theorem tracks_same (h : σ.Resembles σ') (r : Reply) : Tracks σ (r, σ) (r, σ') :=
  .inr (.inr ⟨.same r, h, fun _ => rfl⟩)

theorem Tracks.after {r r' : Reply × Session} (h : Tracks { σ with store := s } r r')
    (he : σ.store.Extends s) : Tracks σ r r' :=
  h.imp_right (.imp_right fun h => ⟨h.reply, h.session, fun d => (h.device d).trans (he.device d)⟩)

/-- The session goes on with the result of an action that tracks. -/
theorem perform_tracks (h : σ.Resembles σ') {x : Action Fault α}
    {next : α → Session → Reply × Session} (hx : x.Tracks σ.store σ'.store)
    (hn : ∀ a s s', s.Resembles s' → σ.store.Extends s →
      Tracks { σ with store := s } (next a { σ with store := s })
        (next a { σ' with store := s' })) :
    Tracks σ (perform x next σ) (perform x next σ') := by
  have hrefused {σ : Session} (hx : Except.Refused (x σ.store).1) :
      (perform x next σ).1.refusesMemory = true := by
    unfold perform
    cases hrun : x σ.store with
    | mk r s =>
      rw [hrun] at hx
      cases r with
      | ok a => exact hx.elim
      | error f => exact hx
  rcases hx with hx | hx | ⟨hr, hs, he⟩
  · exact .inl (hrefused hx)
  · exact .inr (.inl (hrefused hx))
  · unfold perform
    cases hrun : x σ.store with
    | mk r s =>
      cases hrun' : x σ'.store with
      | mk r' s' =>
        rw [hrun, hrun'] at hr hs
        rw [hrun] at he
        change r' = r at hr
        subst hr
        cases r' with
        | ok a => exact (hn a s s' hs he).after he
        | error f => exact (tracks_same (h.withStore hs) (faulted f)).after he

theorem withTensor_tracks (h : σ.Resembles σ') {name : String}
    {next : Tensor → Session → Reply × Session}
    (hn : ∀ t, σ.tensors.get? name = some t → Tracks σ (next t σ) (next t σ')) :
    Tracks σ (withTensor name next σ) (withTensor name next σ') := by
  unfold withTensor
  rw [h.tensors]
  split
  · exact hn _ ‹_›
  · exact tracks_same h .badRequest

theorem withBlock_tracks (h : σ.Resembles σ') {name : String}
    {next : BlockId → Session → Reply × Session}
    (hn : ∀ b, σ.blocks.get? name = some b → Tracks σ (next b σ) (next b σ')) :
    Tracks σ (withBlock name next σ) (withBlock name next σ') := by
  unfold withBlock
  rw [h.blocks]
  split
  · exact hn _ ‹_›
  · exact tracks_same h .badRequest

theorem onDeviceNamed_tracks (h : σ.Resembles σ') {name : String}
    {next : DeviceId → Session → Reply × Session} (hn : ∀ d, Tracks σ (next d σ) (next d σ')) :
    Tracks σ (onDeviceNamed name next σ) (onDeviceNamed name next σ') := by
  unfold onDeviceNamed
  rw [h.store.deviceNamed?]
  split
  · exact hn _
  · exact tracks_same h .badRequest

theorem withRhs_tracks (h : σ.Resembles σ') {rhs : Rhs}
    {next : Tensor.RightSide → Session → Reply × Session}
    (hn : ∀ r, Tracks σ (next r σ) (next r σ')) :
    Tracks σ (withRhs rhs next σ) (withRhs rhs next σ') := by
  cases rhs with
  | number x => exact hn (.scalar x)
  | named name => exact withTensor_tracks h fun t _ => hn (.tensor t)

/-! ## Reports and slots -/

theorem reportTensor_tracks (h : σ.Resembles σ') (hserve : σ.store.Serviceable) (t : Tensor) :
    Tracks σ (reportTensor t σ) (reportTensor t σ') :=
  .inr (.inr ⟨.tensor (t.report_alike h.store hserve), h, fun _ => rfl⟩)

theorem reportBlock_tracks (h : σ.Resembles σ') (hserve : σ.store.Serviceable) (b : BlockId) :
    Tracks σ (reportBlock b σ) (reportBlock b σ') :=
  .inr (.inr ⟨.block (Block.report_alike h.store hserve b), h, fun _ => rfl⟩)

theorem keepTensor_tracks (h : σ.Resembles σ') (hserve : σ.store.Serviceable) (name : String)
    (t : Tensor) : Tracks σ (keepTensor name t σ) (keepTensor name t σ') := by
  have hd := h.dropTensor name
  have he := σ.extends_dropTensor name
  refine .inr (.inr ⟨?_, ⟨hd.store, ?_, hd.blocks⟩, he.device⟩)
  · exact .tensor (t.report_alike hd.store (hserve.mono he))
  · exact congrArg (Slots.put · name t) hd.tensors

theorem keepBlock_tracks (h : σ.Resembles σ') (hserve : σ.store.Serviceable) (name : String)
    (b : BlockId) : Tracks σ (keepBlock name b σ) (keepBlock name b σ') := by
  have hd := h.dropBlock name
  have he := σ.extends_dropBlock name
  refine .inr (.inr ⟨?_, ⟨hd.store, hd.tensors, ?_⟩, he.device⟩)
  · exact .block (Block.report_alike hd.store (hserve.mono he) b)
  · exact congrArg (Slots.put · name b) hd.blocks

theorem makeTensor_tracks (h : σ.Resembles σ') (hserve : σ.store.Serviceable) (name : String)
    {x : Action Fault Tensor} (hx : x.Tracks σ.store σ'.store) :
    Tracks σ (makeTensor name x σ) (makeTensor name x σ') :=
  perform_tracks h hx fun t _ _ hs he =>
    keepTensor_tracks (h.withStore hs) (hserve.mono he) name t

theorem changeTensor_tracks (h : σ.Resembles σ') (hserve : σ.store.Serviceable) {name : String}
    {x : Tensor → Action Fault Tensor}
    (hx : ∀ t, σ.tensors.get? name = some t → (x t).Tracks σ.store σ'.store) :
    Tracks σ (changeTensor name x σ) (changeTensor name x σ') := by
  refine withTensor_tracks h fun t ht => perform_tracks h (hx t ht) fun u s s' hs he => ?_
  refine .inr (.inr ⟨.tensor (u.report_alike hs (hserve.mono he)), ⟨hs, ?_, h.blocks⟩, ?_⟩)
  · exact congrArg (Slots.put · name u) h.tensors
  · exact fun _ => rfl

theorem workOn_tracks (h : σ.Resembles σ') (hserve : σ.store.Serviceable) {name : String}
    {x : Tensor → Action Fault Unit}
    (hx : ∀ t, σ.tensors.get? name = some t → (x t).Tracks σ.store σ'.store) :
    Tracks σ (workOn name x σ) (workOn name x σ') :=
  withTensor_tracks h fun t ht => perform_tracks h (hx t ht) fun _ _ _ hs he =>
    reportTensor_tracks (h.withStore hs) (hserve.mono he) t

theorem ask_tracks (h : σ.Resembles σ') {name : String} {x : Tensor → Action Fault α}
    {answer : α → Reply}
    (hx : ∀ t, σ.tensors.get? name = some t → (x t).Tracks σ.store σ'.store) :
    Tracks σ (ask name x answer σ) (ask name x answer σ') :=
  withTensor_tracks h fun t ht => perform_tracks h (hx t ht) fun a _ _ hs _ =>
    tracks_same (h.withStore hs) (answer a)

theorem compute_tracks (h : σ.Resembles σ') (hserve : σ.store.Serviceable) {out : Target}
    {make : Action Fault Tensor} {into : Tensor → Action Fault Unit}
    (hm : make.Tracks σ.store σ'.store)
    (hi : ∀ t, σ.tensors.get? out.name = some t → (into t).Tracks σ.store σ'.store) :
    Tracks σ (compute out make into σ) (compute out make into σ') := by
  unfold compute
  split
  · exact workOn_tracks h hserve hi
  · exact makeTensor_tracks h hserve out.name hm

/-! ## Launches -/

/-- The reply tells that the routine was refused memory. -/
theorem refused_runDirect {key : RoutineKey} {routine : Routine} {inv : Invocation} {out : BlockId}
    (hroutine : σ.store.registry.lookup key = .ok routine)
    (h : Except.Refused (routine.run inv σ.store).1) :
    (runDirect key inv out σ).1.refusesMemory = true := by
  unfold runDirect
  rw [hroutine]
  dsimp only
  cases hrun : routine.run inv σ.store with
  | mk r s =>
    rw [hrun] at h
    cases r with
    | ok u => exact h.elim
    | error e =>
      cases e with
      | fault f => exact h
      | refused e => cases h

theorem runDirect_tracks (h : σ.Resembles σ') (hserve : σ.store.Serviceable) {inv : Invocation}
    (hpos : 0 < (σ.store.block inv.output).handles) (key : RoutineKey) (out : BlockId) :
    Tracks σ (runDirect key inv out σ) (runDirect key inv out σ') := by
  cases hroutine : σ.store.registry.lookup key with
  | error e =>
    unfold runDirect
    rw [h.store.registry, hroutine]
    exact tracks_same h _
  | ok routine =>
    have hroutine' : σ'.store.registry.lookup key = .ok routine := h.store.registry ▸ hroutine
    rcases routine.run_tracks h.store hpos with hx | hx | ⟨hr, hs, he⟩
    · exact .inl (refused_runDirect hroutine hx)
    · exact .inr (.inl (refused_runDirect hroutine' hx))
    unfold runDirect
    rw [hroutine, hroutine']
    dsimp only
    cases hrun : routine.run inv σ.store with
    | mk r s =>
      cases hrun' : routine.run inv σ'.store with
      | mk r' s' =>
        rw [hrun, hrun'] at hr hs
        rw [hrun] at he
        change r' = r at hr
        subst hr
        cases r' with
        | ok u => exact (reportBlock_tracks (h.withStore hs) (hserve.mono he) out).after he
        | error e => exact (tracks_same (h.withStore hs) _).after he

theorem runLaunch_tracks (h : σ.Resembles σ') (hσ : σ.Sound P []) (hserve : σ.store.Serviceable)
    (call : NamedInvocation) : Tracks σ (runLaunch call σ) (runLaunch call σ') := by
  refine onDeviceNamed_tracks h fun d => withBlock_tracks h fun b hb => ?_
  have hpos : 0 < (σ.store.block b).handles :=
    hσ.holds.handles_pos (block_mem_handles hσ hb)
  have hnamed : σ'.blocksNamed? call.inputs = σ.blocksNamed? call.inputs := by
    unfold blocksNamed?
    rw [h.blocks]
  have hkey : RoutineKey.onDevice call.dtype call.op d σ'.store =
      .onDevice call.dtype call.op d σ.store := by
    unfold RoutineKey.onDevice
    rw [h.store.shows.backend]
  rw [hnamed]
  split
  · exact tracks_same h .badRequest
  · dsimp only
    rw [hkey]
    split
    · exact runDirect_tracks h hserve hpos _ b
    · exact perform_tracks h (launch_tracks h.store hpos _ _) fun _ _ _ hs he =>
        reportBlock_tracks (h.withStore hs) (hserve.mono he) b

/-! ## Registrations and questions about elements -/

theorem registerRoutine_tracks (h : σ.Resembles σ') (f : Registry Routine → Registry Routine) :
    Tracks σ (registerRoutine f σ) (registerRoutine f σ') := by
  refine .inr (.inr ⟨?_, h.withStore (h.store.register f), fun _ => rfl⟩)
  unfold registerRoutine
  dsimp only
  rw [h.store.registry]
  exact .same _

theorem numbers_tracks {s s' : Store} (hs : s.Resembles s') (hserve : s.Serviceable) (t : Tensor) :
    (numbers t).Tracks s s' :=
  .bind_pure (t.read_tracks hs hserve t.dtype) _

/-! ## Commands -/

/-- Every command does the same on sessions that resemble each other, unless memory is refused. -/
theorem step_tracks (h : σ.Resembles σ') (hσ : σ.Sound P []) (hserve : σ.store.Serviceable)
    (c : Command) : Tracks σ (step c σ) (step c σ') := by
  have hs := h.store
  have hholds : σ.store.Holds σ.handles := hσ.holds
  have hvalid {name : String} {t : Tensor} (ht : σ.tensors.get? name = some t) :
      t.Valid σ.store := hσ.valid t (Slots.mem_of_get? ht)
  have hlives {name : String} {t : Tensor} (ht : σ.tensors.get? name = some t) :
      t.Lives σ.store := Tensor.lives_of_holds hholds (held_subset hσ ht)
  have hpos {name : String} {b : BlockId} (hb : σ.blocks.get? name = some b) :
      0 < (σ.store.block b).handles := hholds.handles_pos (block_mem_handles hσ hb)
  cases c with
  | create out shape device dtype =>
    exact onDeviceNamed_tracks h fun d =>
      makeTensor_tracks h hserve out (Tensor.onDevice_tracks hs shape d dtype)
  | createEmpty out => exact makeTensor_tracks h hserve out (.pure hs _)
  | ofElements out shape d xs =>
    exact makeTensor_tracks h hserve out (Tensor.ofElements_tracks hs hserve hholds shape xs)
  | share t out =>
    exact withTensor_tracks h fun t ht =>
      makeTensor_tracks h hserve out (Tensor.share_tracks hs (hlives ht))
  | duplicate t out =>
    exact withTensor_tracks h fun t ht =>
      makeTensor_tracks h hserve out (Tensor.duplicate_tracks hs hserve hholds (hvalid ht))
  | transpose t out =>
    exact withTensor_tracks h fun t ht =>
      makeTensor_tracks h hserve out (Tensor.transpose_tracks hs (hlives ht))
  | reshaped t out shape =>
    exact withTensor_tracks h fun t ht =>
      makeTensor_tracks h hserve out (Tensor.reshaped_tracks hs (hlives ht) shape)
  | drop t =>
    refine .inr (.inr ⟨?_, h.dropTensor t, (σ.extends_dropTensor t).device⟩)
    simp only [step]
    rw [h.tensors]
    exact .same _
  | reshape t shape =>
    exact changeTensor_tracks h hserve fun t _ => Tensor.reshape_tracks hs t shape
  | resize t shape =>
    exact changeTensor_tracks h hserve fun t _ => Tensor.resize_tracks hs t shape
  | takeForm t other =>
    exact withTensor_tracks h fun other _ =>
      changeTensor_tracks h hserve fun t _ => Tensor.takeForm_tracks hs t other
  | convert t dtype =>
    exact changeTensor_tracks h hserve fun t ht =>
      Tensor.convert_tracks hs hserve (hvalid ht) (hlives ht) dtype
  | moveTo t device =>
    exact onDeviceNamed_tracks h fun d =>
      changeTensor_tracks h hserve fun t ht => Tensor.moveTo_tracks hs hserve (hvalid ht) d
  | fill t x => exact workOn_tracks h hserve fun t ht => Tensor.fill_tracks hs (hlives ht) x
  | upload t d xs offset =>
    exact workOn_tracks h hserve fun t ht =>
      Tensor.upload_tracks hs hserve (hlives ht) xs offset
  | copyFrom t other =>
    exact withTensor_tracks h fun other _ =>
      workOn_tracks h hserve fun t ht => Tensor.copyFrom_tracks hs hserve.toCopies (hlives ht) other
  | copyRange t other count dstOffset srcOffset =>
    exact withTensor_tracks h fun other _ => workOn_tracks h hserve fun t ht =>
      Tensor.copyRange_tracks hs hserve.toCopies (hlives ht) other count dstOffset srcOffset
  | state t => exact withTensor_tracks h fun t _ => reportTensor_tracks h hserve t
  | read t dtype =>
    cases dtype with
    | none =>
      exact withTensor_tracks h fun t _ =>
        perform_tracks h (t.read_tracks hs hserve t.dtype) fun xs _ _ hs _ =>
          tracks_same (h.withStore hs) (.elements _ xs)
    | some d => exact ask_tracks h fun t _ => t.read_tracks hs hserve d
  | dimension t i => exact ask_tracks h fun t _ => .ofExcept hs _
  | norm t => exact ask_tracks h fun t _ => t.norm_tracks hs hserve hholds
  | sum t d => exact ask_tracks h fun t _ => t.sum_tracks hs hserve hholds d
  | describe t => exact ask_tracks h fun t _ => .inspect hs (t.text_congr hs)
  | sharing a b =>
    exact withTensor_tracks h fun _ _ => withTensor_tracks h fun _ _ => tracks_same h _
  | check a b =>
    exact withTensor_tracks h fun a _ => ask_tracks h fun b _ =>
      .examine hs (Tensor.checkSameKind_congr hs.shows (a.similar_self hs) (b.similar_self hs))
  | sameElements a b =>
    refine withTensor_tracks h fun a _ => withTensor_tracks h fun b _ => ?_
    refine perform_tracks h ?_ fun same _ _ hs _ => tracks_same (h.withStore hs) (.equal same)
    refine .bind (numbers_tracks hs hserve a) fun _ _ _ _ _ hu he => ?_
    exact .bind_pure (numbers_tracks hu (hserve.mono he) b) _
  | statistics t low high mean tolerance =>
    exact ask_tracks h fun t _ => numbers_tracks hs hserve t
  | map op t x out =>
    exact withTensor_tracks h fun t ht =>
      compute_tracks h hserve (Tensor.map_tracks hs hholds (hvalid ht) op x) fun _ ho =>
        Computation.into_tracks hs (.map op t x) (hlives ho)
  | zip op a b out =>
    exact withTensor_tracks h fun a ha => withTensor_tracks h fun b _ =>
      compute_tracks h hserve (Tensor.zip_tracks hs hholds (hvalid ha) op b) fun _ ho =>
        Computation.into_tracks hs (.zip op a b) (hlives ho)
  | sums which t out =>
    exact withTensor_tracks h fun t _ =>
      compute_tracks h hserve (Tensor.sums_tracks hs hholds which t) fun _ ho =>
        Computation.into_tracks hs (.sums which t) (hlives ho)
  | sumAxis t axis out =>
    exact withTensor_tracks h fun t _ =>
      compute_tracks h hserve (Tensor.sumAxis_tracks hs hholds t axis) fun _ ho =>
        Computation.into_tracks hs (.sumAxis t axis) (hlives ho)
  | average t axis out =>
    exact withTensor_tracks h fun t _ =>
      makeTensor_tracks h hserve out (Tensor.average_tracks hs hholds t axis)
  | softmax t axis out =>
    exact withTensor_tracks h fun t ht =>
      compute_tracks h hserve (Tensor.softmax_tracks hs hholds (hvalid ht) axis) fun _ ho =>
        Computation.into_tracks hs (.softmax t axis) (hlives ho)
  | product a b out =>
    exact withTensor_tracks h fun a _ => withTensor_tracks h fun b _ =>
      compute_tracks h hserve (Tensor.product_tracks hs hholds a b) fun _ ho =>
        Computation.into_tracks hs (.product _ a b _) (hlives ho)
  | operate f a rhs out =>
    exact withTensor_tracks h fun a ha => withRhs_tracks h fun rhs =>
      makeTensor_tracks h hserve out (Tensor.operate_tracks hs hholds (hvalid ha) f rhs)
  | assign f t rhs twice =>
    refine withRhs_tracks h fun rhs => workOn_tracks h hserve fun t ht => ?_
    refine .bind (Tensor.assign_tracks hs f (hlives ht) rhs) fun _ u _ hu _ hr _ => ?_
    have hkept := (((Tensor.assign_keeps f t rhs).ends σ.store).ok hu).holds _ hholds
    refine .ite (fun _ => ?_) fun _ => .pure hr ()
    exact Tensor.assign_tracks hr f (Tensor.lives_of_holds hkept (held_subset hσ ht)) rhs
  | broadcast op alpha beta v m =>
    exact withTensor_tracks h fun v _ => workOn_tracks h hserve fun _ ho =>
      Computation.into_tracks hs (.broadcast op alpha beta v) (hlives ho)
  | addScaled alpha t out =>
    exact withTensor_tracks h fun t _ => workOn_tracks h hserve fun _ ho =>
      Computation.into_tracks hs (.addScaled alpha t) (hlives ho)
  | productScaled alpha a b beta c =>
    exact withTensor_tracks h fun a _ => withTensor_tracks h fun b _ =>
      workOn_tracks h hserve fun _ ho =>
        Computation.into_tracks hs (.product alpha a b beta) (hlives ho)
  | random t D => exact workOn_tracks h hserve fun t ht => t.fillSamples_tracks hs (hlives ht) D
  | deviceInfo device =>
    simp only [step]
    refine onDeviceNamed_tracks h fun d => ?_
    have hd := Device.mk.inj (hs.device d)
    exact .inr (.inr ⟨.device hd.2.1 hd.2.2.1, h, fun _ => rfl⟩)
  | synchronize device =>
    refine onDeviceNamed_tracks h fun d => ?_
    have hwaits : (σ.store.device d).answer .wait = .ok () := hserve.waits d _
    have hwaits' : (σ'.store.device d).answer .wait = .ok () := (hs.serviceable hserve).waits d _
    rw [hwaits, hwaits']
    refine .inr (.inr ⟨.same .accepted, h.withStore (hs.modifyDevice d fun _ _ hk => hk), ?_⟩)
    exact (Store.keeps_modifyDevice σ.store d rfl).extend.device
  | reseed device seed =>
    refine onDeviceNamed_tracks h fun d => ?_
    refine .inr (.inr ⟨.same .accepted, h.withStore (hs.modifyDevice d ?_), ?_⟩)
    · intro k k' hk
      exact congrArg (fun k : Device => { k with stream := { seed := seed } }) hk
    · exact (Store.keeps_modifyDevice σ.store d rfl).extend.device
  | registerCatalog backend => exact registerRoutine_tracks h (·.registerCatalog backend)
  | lookup key =>
    simp only [step]
    rw [hs.registry]
    split <;> exact tracks_same h _
  | registerProbe key p => exact registerRoutine_tracks h (·.register key (.probe p))
  | newBlock out device size =>
    exact onDeviceNamed_tracks h fun d =>
      perform_tracks h (.acquire hs d size) fun b _ _ hs he =>
        keepBlock_tracks (h.withStore hs) (hserve.mono he) out b
  | blockOf t out =>
    refine withTensor_tracks h fun t ht => ?_
    cases t.block with
    | none => exact tracks_same h .noBlock
    | some b =>
      have hr := Tensor.retain_resembles hs (hlives ht)
      exact perform_tracks h (.change hr (t.extends_retain _)) fun _ _ _ hs he =>
        keepBlock_tracks (h.withStore hs) (hserve.mono he) out b
  | shareBlock b out =>
    refine withBlock_tracks h fun b hb => ?_
    exact perform_tracks h (.change (hs.retain (hpos hb)) (σ.store.extends_retain b))
      fun _ _ _ hs he => keepBlock_tracks (h.withStore hs) (hserve.mono he) out b
  | dropBlock b =>
    refine .inr (.inr ⟨?_, h.dropBlock b, (σ.extends_dropBlock b).device⟩)
    simp only [step]
    rw [h.blocks]
    exact .same _
  | blockState b => exact withBlock_tracks h fun b _ => reportBlock_tracks h hserve b
  | bindBlock b =>
    exact withBlock_tracks h fun b _ =>
      perform_tracks h (Block.bindMemory_tracks hs b) fun _ _ _ hs he =>
        reportBlock_tracks (h.withStore hs) (hserve.mono he) b
  | writeBlock b d xs =>
    exact withBlock_tracks h fun b hb =>
      perform_tracks h (Block.write_tracks hs (hpos hb) xs) fun _ _ _ hs he =>
        reportBlock_tracks (h.withStore hs) (hserve.mono he) b
  | readBlock b d count =>
    exact withBlock_tracks h fun b _ =>
      perform_tracks h (Block.view_tracks hs b d count) fun xs _ _ hs _ =>
        tracks_same (h.withStore hs) (.elements d xs)
  | sameBlock a b =>
    exact withBlock_tracks h fun _ _ => withBlock_tracks h fun _ _ => tracks_same h _
  | copyBlock dst dstOffset src srcOffset size =>
    exact withBlock_tracks h fun dst hdst => withBlock_tracks h fun src _ =>
      perform_tracks h (Block.copy_tracks hs hserve.toCopies (hpos hdst) _ _) fun _ _ _ hs he =>
        reportBlock_tracks (h.withStore hs) (hserve.mono he) dst
  | launch call => exact runLaunch_tracks h hσ hserve call

/-- If no memory is refused, replies are alike and the sessions go on resembling each other. -/
theorem step_agrees (h : σ.Resembles σ') (hσ : σ.Sound P []) (hserve : σ.store.Serviceable)
    (c : Command) (hr : (step c σ).1.refusesMemory = false)
    (hr' : (step c σ').1.refusesMemory = false) : Agrees σ (step c σ) (step c σ') := by
  rcases step_tracks h hσ hserve c with hrefused | hrefused | hagrees
  · exact absurd hrefused (ne_true_of_eq_false hr)
  · exact absurd hrefused (ne_true_of_eq_false hr')
  · exact hagrees

end Session

end DeviceTensor
