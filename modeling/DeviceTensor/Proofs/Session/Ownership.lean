import DeviceTensor.Proofs.Session.Conduct
import DeviceTensor.Proofs.Session.Reachable
import DeviceTensor.Proofs.Tensor.Doubling
set_option autoImplicit false

/-!
# Who owns memory

Every command is a path of small steps from the store and the handles of the slots before it to those
after it, whatever its outcome: `Session.step_leads`.  Of the paths that start on devices that hold
nothing the ledger is true, so that handles are counted, memory is returned once, and devices hold
the bytes of the bound blocks: `Session.memory_is_accounted_for`.
-/

namespace DeviceTensor

/-- The command may move the stream of a device. -/
def Command.Draws : Command → Prop
  | .random _ _ => True
  | .reseed _ _ => True
  | .launch call => call.op ∈ Operation.sampling
  | .map op _ _ _ => op ∉ Operation.pointwise
  | .zip op _ _ _ => op ∉ Operation.pairwise
  | .broadcast op _ _ _ _ => op ∉ Operation.broadcasting
  | _ => False

namespace Session

open DeviceTensor.Action

/-! ## Slots -/

section Slots

variable {P : Prop} {σ : Session}

theorem dropTensor_runs (hu : σ.tensors.Unique) (name : String) :
    Store.Runs P [] σ.handles (σ.dropTensor name).handles σ.store (σ.dropTensor name).store := by
  unfold dropTensor
  split
  · rename_i t ht
    have hperm : Store.Runs P [] σ.handles (t.held ++ σ.handlesWithout name) σ.store σ.store :=
      .perm _ (handles_perm_of_unique hu ht)
    exact hperm.trans ((t.release_runs σ.store).beside _)
  · exact .refl _

theorem dropBlock_runs (hu : σ.blocks.Unique) (name : String) :
    Store.Runs P [] σ.handles (σ.dropBlock name).handles σ.store (σ.dropBlock name).store := by
  unfold dropBlock
  split
  · rename_i b hb
    have hperm : Store.Runs P [] σ.handles ([b] ++ (σ.tensors.values.flatMap Tensor.held ++
        (σ.blocks.erase name).values)) σ.store σ.store :=
      .perm _ (blocks_perm_of_unique hu hb)
    exact hperm.trans ((Store.Runs.release σ.store b).beside _)
  · exact .refl _

/-- The slot takes over the handle of a new tensor. -/
theorem keepTensor_runs (hu : σ.tensors.Unique) (name : String) (t : Tensor) :
    Store.Runs P [] (t.held ++ σ.handles) (keepTensor name t σ).2.handles σ.store
      (keepTensor name t σ).2.store := by
  have hhandles : (keepTensor name t σ).2.handles = t.held ++ (σ.dropTensor name).handles := by
    unfold handles
    rw [values_keepTensor, List.flatMap_cons, List.append_assoc]
    rfl
  have hdrop : Store.Runs P [] (σ.handles ++ t.held) ((σ.dropTensor name).handles ++ t.held)
      σ.store (σ.dropTensor name).store := (dropTensor_runs hu name).beside _
  rw [hhandles]
  exact ((Store.Runs.perm _ List.perm_append_comm).trans hdrop).trans
    (.perm _ List.perm_append_comm)

/-- The slot takes over a new handle on a block. -/
theorem keepBlock_runs (hu : σ.blocks.Unique) (name : String) (b : BlockId) :
    Store.Runs P [] ([b] ++ σ.handles) (keepBlock name b σ).2.handles σ.store
      (keepBlock name b σ).2.store := by
  have hhandles : ((σ.dropBlock name).handles ++ [b]).Perm (keepBlock name b σ).2.handles := by
    unfold handles
    rw [values_keepBlock, List.append_assoc]
    exact List.perm_append_comm.append_left _
  have hdrop : Store.Runs P [] (σ.handles ++ [b]) ((σ.dropBlock name).handles ++ [b])
      σ.store (σ.dropBlock name).store := (dropBlock_runs hu name).beside _
  exact ((Store.Runs.perm _ List.perm_append_comm).trans hdrop).trans (.perm _ hhandles)

end Slots

/-! ## Running actions -/

/-- A path leads from the store and the handles of `σ` to those of `σ'`.  On a regular registry
samples are drawn only if `P` holds. -/
def Leads (P : Prop) (σ σ' : Session) : Prop :=
  ∃ log, Store.Path ⟨σ.store, σ.handles⟩ log ⟨σ'.store, σ'.handles⟩ ∧
    ∀ d, .drawn d ∈ log → σ.store.registry.Regular → P

section Actions

variable {P : Prop} {R : Registry Routine → Prop} {σ σ' : Session} {α : Type}

theorem Leads.refl (σ : Session) : Leads P σ σ := ⟨[], .refl _, fun _ hd => by cases hd⟩

theorem Leads.of_runs (h : Store.Runs P [] σ.handles σ'.handles σ.store σ'.store) :
    Leads P σ σ' := by
  obtain ⟨log, hp, hdraws⟩ := h.path [] (List.nil_subset _)
  rw [List.append_nil, List.append_nil] at hp
  exact ⟨log, hp, hdraws⟩

/-- A path on the store, beside the handles of the slots. -/
theorem runs_beside {taken : List BlockId} {s : Store}
    (h : Store.Runs P σ.handles [] taken σ.store s) :
    Store.Runs P [] σ.handles (taken ++ σ.handles) σ.store s :=
  (h.mono id (List.subset_append_left σ.handles [])).onGiven σ.handles

theorem perform_leads {x : Action Fault α} {next : α → Session → Reply × Session}
    (h : x.Ends σ.store (fun a s => Leads P σ (next a { σ with store := s }).2)
      (fun _ s => Leads P σ { σ with store := s })) : Leads P σ (perform x next σ).2 := by
  unfold perform
  cases hx : x σ.store with
  | mk r s =>
    cases r with
    | ok a => exact h.ok hx
    | error f => exact h.error hx

/-- Work on what the slots hold, and a reply. -/
theorem perform_work {x : Action Fault α} (hx : x.Within (Store.Runs P σ.handles [] []))
    {next : α → Session → Reply × Session} (hn : ∀ a σ, (next a σ).2 = σ) :
    Leads P σ (perform x next σ).2 := by
  have hleads (s : Store) (h : Store.Runs P σ.handles [] [] σ.store s) :
      Leads P σ { σ with store := s } := .of_runs (runs_beside h)
  refine perform_leads ((hx.ends σ.store).mono (fun a s hs => ?_) fun _ s hs => hleads s hs)
  rw [hn]
  exact hleads s hs

/-- A new block goes into a slot. -/
theorem keepBlock_leads (h : σ.Sound R []) {s : Store} {b : BlockId}
    (hs : Store.Runs P σ.handles [] [b] σ.store s) (name : String) :
    Leads P σ (keepBlock name b { σ with store := s }).2 :=
  .of_runs ((runs_beside hs).trans (keepBlock_runs (σ := { σ with store := s }) h.blocks name b))

theorem makeTensor_leads (h : σ.Sound R []) {x : Action Fault Tensor}
    (hx : Tensor.Trades P σ.handles [] x) (name : String) :
    Leads P σ (makeTensor name x σ).2 := by
  refine perform_leads ((hx σ.store).mono (fun t s hs => ?_) fun _ s hs => ?_)
  · exact .of_runs ((runs_beside hs).trans
      (keepTensor_runs (σ := { σ with store := s }) h.tensors name t))
  · exact .of_runs (runs_beside hs)

theorem withTensor_leads {name : String} {next : Tensor → Session → Reply × Session}
    (hn : ∀ t, σ.tensors.get? name = some t → Leads P σ (next t σ).2) :
    Leads P σ (withTensor name next σ).2 := by
  unfold withTensor
  split
  · rename_i t ht
    exact hn t ht
  · exact .refl σ

theorem withBlock_leads {name : String} {next : BlockId → Session → Reply × Session}
    (hn : ∀ b, σ.blocks.get? name = some b → Leads P σ (next b σ).2) :
    Leads P σ (withBlock name next σ).2 := by
  unfold withBlock
  split
  · rename_i b hb
    exact hn b hb
  · exact .refl σ

theorem onDeviceNamed_leads {name : String} {next : DeviceId → Session → Reply × Session}
    (hn : ∀ d, Leads P σ (next d σ).2) : Leads P σ (onDeviceNamed name next σ).2 := by
  unfold onDeviceNamed
  split
  · exact hn _
  · exact .refl σ

/-- The tensor in a slot changes, and with it the handle of the slot. -/
theorem changeTensor_leads (h : σ.Sound R []) {name : String} {x : Tensor → Action Fault Tensor}
    (hx : ∀ t, Tensor.Trades P [] t.held (x t)) : Leads P σ (changeTensor name x σ).2 := by
  refine withTensor_leads fun t ht => perform_leads ?_
  have hp := handles_perm h ht
  have hfirst : Store.Runs P [] σ.handles (t.held ++ σ.handlesWithout name) σ.store σ.store :=
    .perm _ hp
  refine (hx t σ.store).mono (fun u s hs => .of_runs ?_) fun _ s hs => .of_runs ?_
  · have hsame : Session.handles { σ with store := s, tensors := σ.tensors.put name u } =
        u.held ++ σ.handlesWithout name := by
      unfold handles handlesWithout
      rw [Slots.values_put, List.flatMap_cons, List.append_assoc]
    have hlast := hfirst.trans (hs.beside (σ.handlesWithout name))
    rw [← hsame] at hlast
    exact hlast
  · exact (hfirst.trans (hs.beside (σ.handlesWithout name))).trans (.perm _ hp.symm)

theorem workOn_leads (h : σ.Sound R []) {name : String} {x : Tensor → Action Fault Unit}
    (hx : ∀ t, t.held ⊆ σ.handles → (x t).Within (Store.Runs P σ.handles [] [])) :
    Leads P σ (workOn name x σ).2 :=
  withTensor_leads fun t ht => perform_work (hx t (held_subset h ht)) fun _ _ => rfl

theorem ask_leads (h : σ.Sound R []) {name : String} {x : Tensor → Action Fault α}
    {answer : α → Reply}
    (hx : ∀ t, t.held ⊆ σ.handles → (x t).Within (Store.Runs P σ.handles [] [])) :
    Leads P σ (ask name x answer σ).2 :=
  withTensor_leads fun t ht => perform_work (hx t (held_subset h ht)) fun _ _ => rfl

/-- A computation makes its result, or writes it into a slot. -/
theorem compute_leads (h : σ.Sound R []) {out : Target} {make : Action Fault Tensor}
    {c : Computation} (hm : Tensor.Trades P σ.handles [] make)
    (hin : c.inputs.flatMap Tensor.held ⊆ σ.handles) (hdraws : ¬c.Proper → P) :
    Leads P σ (compute out make c.into σ).2 := by
  unfold compute
  split
  · exact workOn_leads h fun t ht => Computation.into_runs hin ht hdraws
  · exact makeTensor_leads h hm out.name

theorem withRhs_leads (h : σ.Sound R []) {rhs : Rhs}
    {next : Tensor.RightSide → Session → Reply × Session}
    (hn : ∀ r : Tensor.RightSide, r.held ⊆ σ.handles → Leads P σ (next r σ).2) :
    Leads P σ (withRhs rhs next σ).2 := by
  cases rhs with
  | number x => exact hn (.scalar x) (List.nil_subset _)
  | named name => exact withTensor_leads fun t ht => hn (.tensor t) (held_subset h ht)

end Actions

/-! ## Launches -/

section Launches

variable {P : Prop} {R : Registry Routine → Prop} {σ : Session}

/-- Named blocks are blocks of slots. -/
theorem blocksNamed_subset {names : List String} {inputs : List BlockId}
    (h : σ.blocksNamed? names = some inputs) : inputs ⊆ σ.handles := by
  unfold blocksNamed? at h
  induction names generalizing inputs with
  | nil =>
    cases h
    exact List.nil_subset _
  | cons name names ih =>
    rw [List.mapM_cons] at h
    obtain ⟨b, hb, h⟩ := Option.bind_eq_some_iff.mp h
    obtain ⟨bs, hbs, h⟩ := Option.bind_eq_some_iff.mp h
    cases h
    exact List.cons_subset.mpr ⟨List.mem_append_right _ (Slots.mem_of_get? hb), ih hbs⟩

theorem runDirect_leads {key : RoutineKey} {inv : Invocation} {out : BlockId}
    (hin : inv.inputs ⊆ σ.handles) (hout : inv.output ∈ σ.handles)
    (hop : key.op ∈ Operation.sampling → P) : Leads P σ (runDirect key inv out σ).2 := by
  unfold runDirect
  split
  · exact .refl σ
  · rename_i routine hlookup
    have hget := Registry.lookup_eq_ok_iff.mp hlookup
    have hruns := Routine.run_runs_of_get? hin hout hop hget
    split <;> rename_i hrun <;> rw [hrun] at hruns <;> exact .of_runs (runs_beside hruns)

theorem runLaunch_leads (h : σ.Sound R []) (call : NamedInvocation)
    (hop : call.op ∈ Operation.sampling → P) : Leads P σ (runLaunch call σ).2 := by
  refine onDeviceNamed_leads fun d => withBlock_leads fun b hb => ?_
  split
  · exact .refl σ
  · rename_i inputs hinputs
    have hin : inputs ⊆ σ.handles := blocksNamed_subset hinputs
    have hout : b ∈ σ.handles := block_mem_handles h hb
    dsimp only
    split
    · exact runDirect_leads hin hout hop
    · exact perform_work (launch_runs hin hout call.op call.dtype hop) fun _ _ => rfl

theorem registerRoutine_leads (f : Registry Routine → Registry Routine) :
    Leads P σ (registerRoutine f σ).2 :=
  ⟨[], .single (.register σ.store σ.handles _), fun _ hd => by cases hd⟩

end Launches

/-! ## Commands -/

variable {R : Registry Routine → Prop} {σ : Session}

theorem numbers_runs {P : Prop} {operands : List BlockId} {t : Tensor} (ht : t.held ⊆ operands) :
    (numbers t).Within (Store.Runs P operands [] []) :=
  .bind (Tensor.read_runs ht t.dtype) fun _ => .pure _

/-- Every command is a path, and draws samples only if it is a random fill. -/
theorem step_leads (h : σ.Sound R []) (c : Command) : Leads c.Draws σ (step c σ).2 := by
  have hheld {name : String} {t : Tensor} (ht : σ.tensors.get? name = some t) :
      t.held ⊆ σ.handles := held_subset h ht
  cases c with
  | create out shape device dtype =>
    exact onDeviceNamed_leads fun d =>
      makeTensor_leads h (Tensor.onDevice_trades shape d dtype) out
  | createEmpty out =>
    have hempty : Tensor.Trades False σ.handles [] (Pure.pure .empty) :=
      fun s => Store.Runs.refl s
    exact makeTensor_leads h hempty out
  | ofElements out shape d xs => exact makeTensor_leads h (Tensor.ofElements_trades shape xs) out
  | share t out =>
    exact withTensor_leads fun t ht => makeTensor_leads h (Tensor.share_trades (hheld ht)) out
  | duplicate t out =>
    exact withTensor_leads fun t ht => makeTensor_leads h (Tensor.duplicate_trades (hheld ht)) out
  | transpose t out =>
    exact withTensor_leads fun t ht => makeTensor_leads h (Tensor.transpose_trades (hheld ht)) out
  | reshaped t out shape =>
    exact withTensor_leads fun t ht =>
      makeTensor_leads h (Tensor.reshaped_trades (hheld ht) shape) out
  | drop t => exact .of_runs (dropTensor_runs h.tensors t)
  | reshape t shape => exact changeTensor_leads h fun t => Tensor.reshape_trades shape
  | resize t shape => exact changeTensor_leads h fun t => Tensor.resize_trades shape
  | takeForm t other =>
    exact withTensor_leads fun other _ =>
      changeTensor_leads h fun t => Tensor.takeForm_trades other
  | convert t dtype => exact changeTensor_leads h fun t => Tensor.convert_trades dtype
  | moveTo t device =>
    exact onDeviceNamed_leads fun d => changeTensor_leads h fun t => Tensor.moveTo_trades d
  | fill t x => exact workOn_leads h fun t ht => Tensor.fill_runs ht x
  | upload t d xs offset => exact workOn_leads h fun t ht => Tensor.upload_runs ht xs offset
  | copyFrom t other =>
    exact withTensor_leads fun other ho =>
      workOn_leads h fun t ht => Tensor.copyFrom_runs ht (hheld ho)
  | copyRange t other count dstOffset srcOffset =>
    exact withTensor_leads fun other ho =>
      workOn_leads h fun t ht => Tensor.copyRange_runs ht (hheld ho) count dstOffset srcOffset
  | state t => exact withTensor_leads fun _ _ => .refl σ
  | read t dtype =>
    cases dtype with
    | none =>
      exact withTensor_leads fun t ht =>
        perform_work (Tensor.read_runs (hheld ht) t.dtype) fun _ _ => rfl
    | some d => exact ask_leads h fun t ht => Tensor.read_runs ht d
  | dimension t i => exact ask_leads h fun t _ => .ofExcept _
  | norm t => exact ask_leads h fun t ht => Tensor.norm_runs ht
  | sum t d => exact ask_leads h fun t ht => Tensor.sum_runs ht d
  | describe t => exact ask_leads h fun t _ => .inspect _
  | sharing a b => exact withTensor_leads fun _ _ => withTensor_leads fun _ _ => .refl σ
  | check a b => exact withTensor_leads fun _ _ => ask_leads h fun _ _ => .examine _
  | sameElements a b =>
    refine withTensor_leads fun a ha => withTensor_leads fun b hb => ?_
    refine perform_work ?_ fun _ _ => rfl
    exact .bind (numbers_runs (hheld ha)) fun _ => .bind (numbers_runs (hheld hb)) fun _ => .pure _
  | statistics t low high mean tolerance => exact ask_leads h fun t ht => numbers_runs ht
  | map op t x out =>
    refine withTensor_leads fun t ht => ?_
    exact compute_leads (c := .map op t x) h (Tensor.map_trades (hheld ht) op x id)
      (Tensor.held_one_subset (hheld ht)) id
  | zip op a b out =>
    refine withTensor_leads fun a ha => withTensor_leads fun b hb => ?_
    exact compute_leads (c := .zip op a b) h (Tensor.zip_trades (hheld ha) (hheld hb) op id)
      (Tensor.held_two_subset (hheld ha) (hheld hb)) id
  | sums which t out =>
    refine withTensor_leads fun t ht => ?_
    exact compute_leads (c := .sums which t) h (Tensor.sums_trades (hheld ht) which)
      (Tensor.held_one_subset (hheld ht)) fun hc => absurd trivial hc
  | sumAxis t axis out =>
    refine withTensor_leads fun t ht => ?_
    exact compute_leads (c := .sumAxis t axis) h (Tensor.sumAxis_trades (hheld ht) axis)
      (Tensor.held_one_subset (hheld ht)) fun hc => absurd trivial hc
  | average t axis out =>
    exact withTensor_leads fun t ht =>
      makeTensor_leads h (Tensor.average_trades (hheld ht) axis) out
  | softmax t axis out =>
    refine withTensor_leads fun t ht => ?_
    exact compute_leads (c := .softmax t axis) h (Tensor.softmax_trades (hheld ht) axis)
      (Tensor.held_one_subset (hheld ht)) fun hc => absurd trivial hc
  | product a b out =>
    refine withTensor_leads fun a ha => withTensor_leads fun b hb => ?_
    exact compute_leads (c := .product Double.one a b Double.zero) h
      (Tensor.product_trades (hheld ha) (hheld hb))
      (Tensor.held_two_subset (hheld ha) (hheld hb)) fun hc => absurd trivial hc
  | operate f a rhs out =>
    exact withTensor_leads fun a ha => withRhs_leads h fun rhs hr =>
      makeTensor_leads h (Tensor.operate_trades (hheld ha) f hr) out
  | assign f t rhs twice =>
    refine withRhs_leads h fun rhs hr => workOn_leads h fun t ht => ?_
    have hruns := Tensor.assign_runs (P := False) ht f hr
    exact .bind hruns fun _ => .ite hruns (.pure ())
  | broadcast op alpha beta v m =>
    refine withTensor_leads fun v hv => workOn_leads h fun m hm => ?_
    exact Computation.into_runs (c := .broadcast op alpha beta v)
      (Tensor.held_one_subset (hheld hv)) hm id
  | addScaled alpha t out =>
    refine withTensor_leads fun t ht => workOn_leads h fun out hout => ?_
    exact Computation.into_runs (c := .addScaled alpha t) (Tensor.held_one_subset (hheld ht)) hout
      fun hc => absurd trivial hc
  | productScaled alpha a b beta c =>
    refine withTensor_leads fun a ha => withTensor_leads fun b hb => workOn_leads h fun c hc => ?_
    exact Computation.into_runs (c := .product alpha a b beta)
      (Tensor.held_two_subset (hheld ha) (hheld hb)) hc fun hn => absurd trivial hn
  | random t D => exact workOn_leads h fun t ht => Tensor.fillSamples_runs trivial ht D
  | deviceInfo device => exact onDeviceNamed_leads fun _ => .refl σ
  | synchronize device =>
    refine onDeviceNamed_leads fun d => ?_
    have hasked : Store.Runs False σ.handles [] [] σ.store
        (σ.store.modifyDevice d (·.after .wait)) := .ask σ.store d nofun
    dsimp only
    split <;> exact .of_runs (runs_beside hasked)
  | reseed device seed =>
    refine onDeviceNamed_leads fun d => ?_
    have hdraw : Store.Runs True σ.handles [] [] σ.store (σ.store.modifyDevice d _) :=
      .draw trivial σ.store d { seed := seed }
    exact .of_runs (runs_beside hdraw)
  | registerCatalog backend => exact registerRoutine_leads (·.registerCatalog backend)
  | lookup key =>
    simp only [step]
    split <;> exact .refl σ
  | registerProbe key p => exact registerRoutine_leads (·.register key (.probe p))
  | newBlock out device size =>
    refine onDeviceNamed_leads fun d => perform_leads ?_
    rw [ends_changing]
    exact keepBlock_leads h (.acquire σ.store d size) out
  | blockOf t out =>
    refine withTensor_leads fun t ht => ?_
    cases hb : t.block with
    | none => exact .refl σ
    | some b =>
      have hretain := Tensor.retain_runs (P := False) (hheld ht) σ.store
      rw [Tensor.held_of_block hb] at hretain
      exact perform_leads (keepBlock_leads h hretain out)
  | shareBlock b out =>
    refine withBlock_leads fun b hb => perform_leads ?_
    exact keepBlock_leads h (.retain σ.store (block_mem_handles h hb)) out
  | dropBlock b => exact .of_runs (dropBlock_runs h.blocks b)
  | blockState b => exact withBlock_leads fun _ _ => .refl σ
  | bindBlock b =>
    exact withBlock_leads fun b hb =>
      perform_work (Block.bindMemory_runs (block_mem_handles h hb)) fun _ _ => rfl
  | writeBlock b d xs =>
    exact withBlock_leads fun b hb =>
      perform_work (Block.write_runs (block_mem_handles h hb) xs) fun _ _ => rfl
  | readBlock b d count =>
    exact withBlock_leads fun b hb =>
      perform_work (Block.view_runs (block_mem_handles h hb) d count) fun _ _ => rfl
  | sameBlock a b => exact withBlock_leads fun _ _ => withBlock_leads fun _ _ => .refl σ
  | copyBlock dst dstOffset src srcOffset size =>
    refine withBlock_leads fun dst hdst => withBlock_leads fun src hsrc => ?_
    have hd : dst ∈ σ.handles := block_mem_handles h hdst
    have hs : src ∈ σ.handles := block_mem_handles h hsrc
    have hcopy : (Block.copy ⟨dst, dstOffset⟩ ⟨src, srcOffset⟩ size).Within
        (Store.Runs False σ.handles [] []) := Block.copy_runs hd hs size
    exact perform_work hcopy fun _ _ => rfl
  | launch call => exact runLaunch_leads h call id

/-! ## Programs -/

/-- Every program is a path. -/
theorem run_path (h : σ.Sound (fun _ => True) []) (cs : List Command) :
    ∃ log, Store.Path ⟨σ.store, σ.handles⟩ log ⟨(run cs σ).2.store, (run cs σ).2.handles⟩ := by
  induction cs generalizing σ with
  | nil => exact ⟨[], .refl _⟩
  | cons c cs ih =>
    obtain ⟨log, hp, -⟩ := step_leads h c
    obtain ⟨log', hp'⟩ := ih (step_sound h c fun _ => trivial)
    exact ⟨log ++ log', hp.trans hp'⟩

/-- No program changes how a device answers. -/
theorem run_start_answers (specs : List DeviceSpec) (cs : List Command) (d : DeviceId) :
    ((run cs (start specs)).2.store.device d).answers =
      ((start specs).store.device d).answers := by
  have hstart : (start specs).Sound (fun _ => True) [] := onDevices_sound _ .plain trivial
  obtain ⟨_, hp⟩ := run_path hstart cs
  exact Device.answers_of_description (hp.device d).1

/-- On devices that hold nothing, whatever a program does and however its commands end, a path leads
to the session after it, and compound assignments and conversions in place may hold a second handle
on their tensor while they run.  At every point of every such path, with the dealings `log` so far
and the live handles `hs`, the handles of a block are counted; a block without memory has had no
dealings with a device; memory was granted once, and it is returned once, to the device that granted
it and with the size that was granted, when the last handle goes and not before; and a device holds
the bytes of its bound blocks that have a handle, which are none once they are dropped. -/
theorem memory_is_accounted_for (devices : Array Device) (library : Library)
    (hheld : ∀ k ∈ devices, k.held = 0) (cs : List Command) :
    let start := (onDevices devices library).store
    let σ := (run cs (onDevices devices library)).2
    (∃ log, Store.Path ⟨start, []⟩ log ⟨σ.store, σ.handles⟩) ∧
    (∀ t ∈ σ.tensors.values, ∀ f rhs d b,
      t.doubled (t.assign f rhs) σ.store = t.assign f rhs σ.store ∧
      t.doubled (t.castTo b d b) σ.store = t.castTo b d b σ.store) ∧
    ∀ log s hs, Store.Path ⟨start, []⟩ log ⟨s, hs⟩ →
      (∀ b, b < s.blocks.size → (s.block b).handles = hs.count b) ∧
      (∀ b, let about := log.filter fun e => e.block? = some b
        match (s.block b).memory with
        | .unbound => about = []
        | .bound _ => about = [.granted b (s.block b).device (s.block b).size] ∧ b ∈ hs
        | .released => about = [.granted b (s.block b).device (s.block b).size,
            .returned b (s.block b).device (s.block b).size] ∧ b ∉ hs) ∧
      (∀ d, d < devices.size →
        (s.device d).held = ∑ b ∈ Finset.range s.blocks.size with
          (s.block b).device = d ∧ (s.block b).memory.isBound = true ∧ b ∈ hs,
            (s.block b).size) ∧
      (∀ d, d < devices.size → (∀ b ∈ hs, (s.block b).device ≠ d) → (s.device d).held = 0) := by
  intro start σ
  have hstart : (onDevices devices library).Sound (fun _ => True) [] :=
    onDevices_sound devices library trivial
  have hempty : Store.Accounted [] ⟨start, []⟩ := by
    refine .start rfl fun d hd => ?_
    have hd' : d < devices.size := hd
    have hdevice : start.device d = devices[d] := by
      change devices.getD d default = devices[d]
      simp [Array.getD_eq_getD_getElem?, hd']
    rw [hdevice]
    exact hheld _ (Array.getElem_mem hd')
  have hσ : Reachable (fun _ => True) σ := (Reachable.start devices library).run fun _ _ => trivial
  refine ⟨run_path hstart cs, fun t ht f rhs d b => ?_, fun log s hs hp => ?_⟩
  · have hh : σ.store.Holds σ.handles := hσ.sound.holds
    have hheld : t.held ⊆ σ.handles := fun c hc =>
      List.mem_append_left _ (List.mem_flatMap.mpr ⟨t, ht, hc⟩)
    have hassign := (Tensor.assign_keeps f t rhs σ.store).holds _ hh
    have hcast := (t.castTo_keeps b d b σ.store).holds _ hh
    exact ⟨Tensor.doubled_eq (fun _ => Tensor.assign_heedless f t rhs) hassign hheld,
      Tensor.doubled_eq (fun _ => t.castTo_heedless b d b) hcast hheld⟩
  · have haccounted : Store.Accounted log ⟨s, hs⟩ := hempty.path hp
    have hsize : s.devices.size = devices.size := hp.size_devices
    refine ⟨haccounted.holds.handles, haccounted.memory, fun d hd => ?_, fun d hd hnone => ?_⟩
    · exact haccounted.held_eq (hsize ▸ hd)
    · rw [haccounted.held_eq (hsize ▸ hd)]
      refine Finset.sum_eq_zero fun b hb => ?_
      obtain ⟨-, hplace, -, hmem⟩ := Finset.mem_filter.mp hb
      exact absurd hplace (hnone b hmem)

/-- A division traps while its result is held, and memory is refused.  The refused block has had no
dealings with its device; the one that a second handle outlived was granted and returned once; and
once all are dropped the device holds nothing. -/
theorem program_with_failures_is_accounted_for :
    ∃ (devices : Array Device) (program : List Command) (log : List Store.Dealing),
      let σ := (run program (onDevices devices)).2
      (run program (onDevices devices)).1.countP (fun r => r.failure?.isSome) = 2 ∧
      Store.Path ⟨(onDevices devices).store, []⟩ log ⟨σ.store, σ.handles⟩ ∧ σ.handles = [1, 0] ∧
      (log.filter fun e => e.block? = some 3) = [] ∧
      (log.filter fun e => e.block? = some 4) = [.granted 4 1 16, .returned 4 1 16] ∧
      (σ.store.device 1).held = 0 := by
  let devices : Array Device :=
    #[.host "default" none { seed := 1 }, .host "small" (some 16) { seed := 2 }]
  let program := [Command.ofElements "a" [2] .int32 #[6, 4], .ofElements "b" [2] .int32 #[2, 0],
    .operate .div "a" (.named "b") "c", .create "lazy" [3] "small" .float64,
    .fill "lazy" Double.one, .create "own" [2] "small" .float64, .fill "own" Double.one,
    .blockOf "own" "kept", .drop "own", .dropBlock "kept", .drop "lazy"]
  have hheld : ∀ k ∈ devices, k.held = 0 := by
    intro k hk
    rcases List.mem_cons.mp (Array.mem_def.mp hk) with rfl | hk
    · rfl
    · obtain rfl := List.mem_singleton.mp hk
      rfl
  obtain ⟨⟨log, hp⟩, -, hall⟩ := memory_is_accounted_for devices .plain hheld program
  obtain ⟨-, hmemory, -, hnone⟩ := hall log _ _ hp
  have hrun : let σ := (run program (onDevices devices)).2
      (run program (onDevices devices)).1.countP (fun r => r.failure?.isSome) = 2 ∧
      σ.handles = [1, 0] ∧ (σ.store.block 3).memory = .unbound ∧
      (σ.store.block 4).memory = .released ∧ (σ.store.block 4).device = 1 ∧
      (σ.store.block 4).size = 16 ∧ ∀ b ∈ σ.handles, (σ.store.block b).device ≠ 1 := by
    decide +kernel
  refine ⟨devices, program, log, ?_⟩
  generalize run program (onDevices devices) = r at *
  obtain ⟨hfailed, hhandles, hbare, hback, hplace, hsize, hothers⟩ := hrun
  have hfirst := hmemory 3
  have hsecond := hmemory 4
  rw [hbare] at hfirst
  rw [hback, hplace, hsize] at hsecond
  exact ⟨hfailed, hp, hhandles, hfirst, hsecond.1, hnone 1 (by decide) hothers⟩

end Session

end DeviceTensor
