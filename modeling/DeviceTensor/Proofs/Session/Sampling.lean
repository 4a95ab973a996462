import DeviceTensor.Proofs.Routine.Sampling
import DeviceTensor.Proofs.Session.Ownership
set_option autoImplicit false

/-!
# Random fills in programs

The random fills that a program executes on a device, and the seeds that it gives to the stream of
the device, are its requests: `Session.requests`.  Whatever else the program does, the fills write
what `replay` makes of the requests and the stream alone, and the stream ends where `replay` leaves
it: `Session.run_replays`.
-/

namespace DeviceTensor

/-! ## Requests -/

/-- What a program asks the stream of a device for. -/
inductive StreamRequest where
  | fill (f : Fill)
  /-- The stream starts again with a seed. -/
  | restart (seed : Nat)
  deriving DecidableEq, Repr

/-- Samples as elements of one type. -/
abbrev Samples : Type := (d : ElemType) × List (Elem d)

/-- What the fills among the requests write, one after the other, and where the stream then
stands. -/
def replay (draws : Distribution → Stream → Double × Stream) :
    List StreamRequest → Stream → List Samples × Stream
  | [], stream => ([], stream)
  | .restart seed :: rest, _ => replay draws rest { seed := seed }
  | .fill f :: rest, stream =>
    let o := f.drawn draws stream
    let (written, stream) := replay draws rest o.state
    (⟨f.dtype, o.values⟩ :: written, stream)

theorem replay_append (draws : Distribution → Stream → Double × Stream) (rs rs' : List StreamRequest)
    (stream : Stream) :
    replay draws (rs ++ rs') stream =
      let (written, stream) := replay draws rs stream
      let (written', stream) := replay draws rs' stream
      (written ++ written', stream) := by
  induction rs generalizing stream with
  | nil => rfl
  | cons r rs ih =>
    cases r with
    | fill f => simp only [List.cons_append, replay, ih]
    | restart seed => exact ih _

/-! ## Fills of commands -/

/-- The refusal that a failure reports. -/
def Failure.refusal? : Failure → Option Refusal
  | .fault f => f.refusal?
  | .launch e => Fault.refusal? (.launch e)
  | .device _ => none
  | .kernel e => some e

/-- The reply reports how a launch ended: a failure, and its refusal, exactly if there was one. -/
def Reply.Reports (r : Reply) : Except Fault Unit → Prop
  | .ok () => r.failure? = none
  | .error f => ∃ e, r.failure? = some e ∧ e.refusal? = f.refusal?

/-- The launch that fills a tensor with samples. -/
def Tensor.samplesIssue? (t : Tensor) (D : Distribution) (s : Store) : Option Issue :=
  t.block.map fun b =>
    let call := randomOperation D
    ⟨call.1, t.dtype, { device := t.device, output := b, count := t.count s, alpha := call.2.1,
                        beta := call.2.2 }⟩

/-- The invocation on the blocks that the names stand for. -/
def NamedInvocation.onBlocks (call : NamedInvocation) (device : DeviceId) (inputs : List BlockId)
    (output : BlockId) : Invocation :=
  { device := device, inputs := inputs, output := output, count := call.count,
    alpha := call.alpha, beta := call.beta, extents := call.extents, outType := call.outType }

/-- The launch of a routine on named blocks. -/
def NamedInvocation.issue? (call : NamedInvocation) (σ : Session) : Option Issue := do
  let device ← σ.store.deviceNamed? call.device
  let output ← σ.blocks.get? call.output
  let inputs ← σ.blocksNamed? call.inputs
  return ⟨call.op, call.dtype, call.onBlocks device inputs output⟩

/-- The fill that a launch executes. -/
def Issue.fill? (i : Issue) (s : Store) : Option Fill := launchFill? i.op i.dtype i.inv s

namespace Command

/-- The operation of the command belongs to its family; that of other commands is fixed or free. -/
def Proper : Command → Prop
  | .map op _ _ _ => op ∈ Operation.pointwise
  | .zip op _ _ _ => op ∈ Operation.pairwise
  | .broadcast op _ _ _ _ => op ∈ Operation.broadcasting
  | _ => True

/-- The launch by which the command may execute a random fill. -/
def issue? (σ : Session) : Command → Option Issue
  | .random t D => (σ.tensors.get? t).bind (·.samplesIssue? D σ.store)
  | .launch call => call.issue? σ
  | _ => none

/-- The fill that the command executes, and its launch. -/
def fill? (σ : Session) (c : Command) : Option (Issue × Fill) :=
  (c.issue? σ).bind fun i => (i.fill? σ.store).map fun f => (i, f)

/-- The fill that the command executes on device `d`. -/
def fillOn? (d : DeviceId) (σ : Session) (c : Command) : Option (Issue × Fill) :=
  (c.fill? σ).filter fun e => e.1.inv.device = d

/-- What the command asks the stream of device `d` for. -/
def request? (d : DeviceId) (σ : Session) : Command → Option StreamRequest
  | .reseed device seed => if σ.store.deviceNamed? device = some d then some (.restart seed) else none
  | c => (c.fillOn? d σ).map fun e => .fill e.2

/-- What the command writes by a fill on device `d`: as many of the elements of the output as its
reply tells. -/
def written? (d : DeviceId) (σ : Session) (c : Command) : Option Samples :=
  (c.fillOn? d σ).map fun e =>
    let (reply, σ) := Session.step c σ
    ⟨e.2.dtype, (e.2.elements e.1.inv.output σ.store).take
      (Kernel.stored e.2.count (reply.failure?.bind Failure.refusal?))⟩

end Command

namespace Session

/-- What a program asks the stream of device `d` for. -/
def requests (d : DeviceId) : List Command → Session → List StreamRequest
  | [], _ => []
  | c :: cs, σ => (c.request? d σ).toList ++ requests d cs (step c σ).2

/-- What the fills of a program on device `d` write. -/
def writes (d : DeviceId) : List Command → Session → List Samples
  | [], _ => []
  | c :: cs, σ => (c.written? d σ).toList ++ writes d cs (step c σ).2

/-! ## Launches of commands -/

section Issues

variable {σ : Session}

/-- A routine that is run itself leaves what a launch of it leaves. -/
theorem runDirect_of_issue (op : Operation) (dtype : ElemType) (inv : Invocation) (out : BlockId) :
    (runDirect (.onDevice dtype op inv.device σ.store) inv out σ).2.store =
        (launch op dtype inv σ.store).2 ∧
      (runDirect (.onDevice dtype op inv.device σ.store) inv out σ).1.Reports
        (launch op dtype inv σ.store).1 := by
  rw [launch_eq]
  unfold runDirect
  cases σ.store.registry.lookup (RoutineKey.onDevice dtype op inv.device σ.store) with
  | error e => exact ⟨rfl, .launch e, rfl, rfl⟩
  | ok routine =>
    simp only [Action.mapError_apply]
    cases routine.run inv σ.store with
    | mk r s =>
      cases r with
      | ok u => exact ⟨rfl, rfl⟩
      | error e => cases e <;> exact ⟨rfl, .ofRoutine _, rfl, rfl⟩

/-- An action and a reply. -/
theorem perform_of_issue (x : Action Fault Unit) {report : Session → Reply × Session}
    (hreport : ∀ σ, (report σ).2 = σ ∧ (report σ).1.failure? = none) (σ : Session) :
    (perform x (fun () => report) σ).2.store = (x σ.store).2 ∧
      (perform x (fun () => report) σ).1.Reports (x σ.store).1 := by
  unfold perform
  cases x σ.store with
  | mk r s =>
    cases r with
    | ok u => exact ⟨congrArg Session.store (hreport _).1, (hreport _).2⟩
    | error f => exact ⟨rfl, _, rfl, rfl⟩

/-- A command with a launch does what its launch does. -/
theorem step_of_issue {c : Command} {i : Issue} (h : c.issue? σ = some i) :
    (step c σ).2.store = (i.launch σ.store).2 ∧ (step c σ).1.Reports (i.launch σ.store).1 := by
  cases c with
  | random name D =>
    obtain ⟨t, ht, hi⟩ := Option.bind_eq_some_iff.mp h
    obtain ⟨b, hb, rfl⟩ := Option.map_eq_some_iff.mp hi
    have hreport (σ : Session) :
        (reportTensor t σ).2 = σ ∧ (reportTensor t σ).1.failure? = none := ⟨rfl, rfl⟩
    have hwork := perform_of_issue (t.fillSamples D) hreport σ
    simp only [step, workOn, withTensor, ht]
    unfold Tensor.fillSamples Tensor.requireBlock at hwork ⊢
    rw [hb] at hwork ⊢
    exact hwork
  | launch call =>
    obtain ⟨d, hd, h⟩ := Option.bind_eq_some_iff.mp h
    obtain ⟨b, hb, h⟩ := Option.bind_eq_some_iff.mp h
    obtain ⟨inputs, hinputs, h⟩ := Option.bind_eq_some_iff.mp h
    cases h
    simp only [step, runLaunch, onDeviceNamed, hd, withBlock, hb, hinputs]
    split
    · exact runDirect_of_issue call.op call.dtype (call.onBlocks d inputs b) b
    · exact perform_of_issue _ (fun _ => ⟨rfl, rfl⟩) σ
  | _ => cases h

/-- The launch of a command writes a block of a slot. -/
theorem output_of_issue {R : Registry Routine → Prop} (hσ : σ.Sound R []) {c : Command} {i : Issue}
    (h : c.issue? σ = some i) : i.inv.output ∈ σ.handles := by
  cases c with
  | random name D =>
    obtain ⟨t, ht, hi⟩ := Option.bind_eq_some_iff.mp h
    obtain ⟨b, hb, rfl⟩ := Option.map_eq_some_iff.mp hi
    refine held_subset hσ ht ?_
    rw [Tensor.held_of_block hb]
    exact List.mem_singleton_self b
  | launch call =>
    obtain ⟨d, hd, h⟩ := Option.bind_eq_some_iff.mp h
    obtain ⟨b, hb, h⟩ := Option.bind_eq_some_iff.mp h
    obtain ⟨inputs, hinputs, h⟩ := Option.bind_eq_some_iff.mp h
    cases h
    exact block_mem_handles hσ hb
  | _ => cases h

/-- A random fill or a launch that finds no tensor, block or device does nothing. -/
theorem step_of_no_issue {c : Command} (hc : (∃ t D, c = .random t D) ∨ ∃ call, c = .launch call)
    (h : c.issue? σ = none) : (step c σ).2.store = σ.store := by
  rcases hc with ⟨name, D, rfl⟩ | ⟨call, rfl⟩
  · simp only [step, workOn, withTensor]
    split
    · rename_i t ht
      have hb : t.block = none := by
        simpa [Command.issue?, ht, Tensor.samplesIssue?] using h
      unfold perform Tensor.fillSamples Tensor.requireBlock
      rw [hb]
      rfl
    · rfl
  · simp only [step, runLaunch, onDeviceNamed, withBlock]
    split
    · rename_i d hd
      split
      · rename_i b hb
        split
        · rfl
        · rename_i inputs hinputs
          simp [Command.issue?, NamedInvocation.issue?, hd, hb, hinputs] at h
      · rfl
    · rfl

end Issues

/-! ## One command -/

/-- Registries stay regular. -/
theorem registers_regular (c : Command) (r : Registry Routine) (h : r.Regular) :
    (registers c r).Regular := by
  cases c with
  | registerCatalog backend => exact h.registerCatalog backend
  | registerProbe key p => exact h.register key p
  | _ => exact h

section Steps

variable {σ : Session} {c : Command} {R : Registry Routine → Prop}

theorem fill?_eq_some_iff {i : Issue} {f : Fill} :
    c.fill? σ = some (i, f) ↔ c.issue? σ = some i ∧ i.fill? σ.store = some f := by
  unfold Command.fill?
  cases c.issue? σ with
  | none => simp
  | some j =>
    cases hj : j.fill? σ.store with
    | none =>
      simp only [Option.bind_some, hj, Option.map_none, reduceCtorEq, Option.some.injEq, false_iff,
        not_and]
      rintro rfl hf
      rw [hj] at hf
      cases hf
    | some g =>
      simp only [Option.bind_some, hj, Option.map_some, Option.some.injEq, Prod.mk.injEq]
      refine and_congr_right fun hi => ?_
      rw [← hi, hj, Option.some.injEq]

/-- A command that executes a fill stores what the fill draws from the stream of its device, in
front of the elements that stay, leaves the device what the fill leaves of the stream, and fails if
the fill is refused. -/
theorem step_of_fill (hσ : σ.Sound R []) {i : Issue} {f : Fill} (h : c.fill? σ = some (i, f)) :
    let k := σ.store.device i.inv.device
    let o := f.drawn k.draws k.stream
    let s' := (step c σ).2.store
    f.elements i.inv.output s' =
        o.values ++ (f.elements i.inv.output σ.store).drop o.values.length ∧
      (i.inv.device < σ.store.devices.size → (s'.device i.inv.device).stream = o.state) ∧
      (∀ d, d ≠ i.inv.device → (s'.device d).stream = (σ.store.device d).stream) ∧
      match o.refused with
      | none => (step c σ).1.failure? = none
      | some e => ∃ x, (step c σ).1.failure? = some x ∧ x.refusal? = some e := by
  obtain ⟨hissue, hfill⟩ := fill?_eq_some_iff.mp h
  obtain ⟨hstore, hreply⟩ := step_of_issue hissue
  obtain ⟨helements, hstream, hothers, hresult⟩ :=
    launch_of_fill hfill hσ.holds (output_of_issue hσ hissue)
  dsimp only
  rw [hstore]
  refine ⟨helements, hstream, hothers, ?_⟩
  unfold Issue.launch at hreply
  rw [hresult] at hreply
  cases hrefused : (f.drawn (σ.store.device i.inv.device).draws
      (σ.store.device i.inv.device).stream).refused with
  | none =>
    rw [hrefused] at hreply
    exact hreply
  | some e =>
    rw [hrefused] at hreply
    exact hreply

/-- A fill on a device is a fill, and its launch is on that device. -/
theorem of_fillOn? {d : DeviceId} {i : Issue} {f : Fill} (h : c.fillOn? d σ = some (i, f)) :
    c.fill? σ = some (i, f) ∧ i.inv.device = d := by
  obtain ⟨hfill, hdevice⟩ := Option.filter_eq_some_iff.mp h
  exact ⟨hfill, of_decide_eq_true hdevice⟩

/-- A fill on a device is what the command asks the stream of the device for. -/
theorem request?_of_fillOn? {d : DeviceId} {i : Issue} {f : Fill}
    (h : c.fillOn? d σ = some (i, f)) : c.request? d σ = some (.fill f) := by
  cases c with
  | random t D => exact congrArg (Option.map _) h
  | launch call => exact congrArg (Option.map _) h
  | _ => cases (of_fillOn? h).1

/-- As many elements of the output as the reply tells are what the fill draws. -/
theorem written?_of_fillOn? (hσ : σ.Sound R []) {d : DeviceId} {i : Issue} {f : Fill}
    (h : c.fillOn? d σ = some (i, f)) :
    c.written? d σ =
      some ⟨f.dtype, (f.drawn (σ.store.device d).draws (σ.store.device d).stream).values⟩ := by
  obtain ⟨hfill, rfl⟩ := of_fillOn? h
  obtain ⟨helements, -, -, hreply⟩ := step_of_fill hσ hfill
  have hlength := (f.length_values_drawn (σ.store.device i.inv.device).draws
    (σ.store.device i.inv.device).stream).1
  have hstored : Kernel.stored f.count ((step c σ).1.failure?.bind Failure.refusal?) =
      (f.drawn (σ.store.device i.inv.device).draws
        (σ.store.device i.inv.device).stream).values.length := by
    rw [hlength]
    congr 1
    split at hreply
    · rename_i hnone
      rw [hreply, hnone]
      rfl
    · rename_i e hsome
      obtain ⟨x, hx, hrefusal⟩ := hreply
      rw [hx, hsome]
      exact hrefusal
  unfold Command.written?
  rw [h]
  simp only [Option.map_some, hstored, helements, List.take_left]

/-- A new seed starts the stream of the device again. -/
theorem stream_of_reseed {device : String} {d : DeviceId}
    (hnamed : σ.store.deviceNamed? device = some d) (hd : d < σ.store.devices.size) (seed : Nat) :
    ((step (.reseed device seed) σ).2.store.device d).stream = { seed := seed } := by
  simp only [step, onDeviceNamed, hnamed]
  rw [Store.device_modifyDevice, if_pos ⟨rfl, hd⟩]

/-- Draws are the business of random fills, launches and new seeds. -/
theorem draws_cases (hc : c.Proper) (h : c.Draws) :
    ((∃ t D, c = .random t D) ∨ ∃ call, c = .launch call) ∨ ∃ device seed, c = .reseed device seed := by
  cases c with
  | random t D => exact .inl (.inl ⟨t, D, rfl⟩)
  | launch call => exact .inl (.inr ⟨call, rfl⟩)
  | reseed device seed => exact .inr ⟨device, seed, rfl⟩
  | map op t x out => exact absurd hc h
  | zip op a b out => exact absurd hc h
  | broadcast op alpha beta v m => exact absurd hc h
  | _ => exact h.elim

/-- A command that asks the stream of a device for nothing leaves it. -/
theorem stream_of_no_request (hσ : σ.Sound Registry.Regular []) (hc : c.Proper) {d : DeviceId}
    (h : c.request? d σ = none) :
    ((step c σ).2.store.device d).stream = (σ.store.device d).stream := by
  obtain ⟨log, hp, hlog⟩ := step_leads hσ c
  by_cases hdraws : c.Draws
  · rcases draws_cases hc hdraws with hlaunch | ⟨device, seed, rfl⟩
    · have hon : c.fillOn? d σ = none := by
        rcases hlaunch with ⟨t, D, rfl⟩ | ⟨call, rfl⟩ <;> exact Option.map_eq_none_iff.mp h
      cases hissue : c.issue? σ with
      | none => rw [step_of_no_issue hlaunch hissue]
      | some i =>
        cases hfill : i.fill? σ.store with
        | none =>
          rw [(step_of_issue hissue).1]
          exact stream_launch_of_no_fill hfill d
        | some f =>
          have hboth := fill?_eq_some_iff.mpr ⟨hissue, hfill⟩
          refine (step_of_fill hσ hboth).2.2.1 d fun hd => ?_
          unfold Command.fillOn? at hon
          rw [hboth, hd] at hon
          simp at hon
    · simp only [step, onDeviceNamed]
      split
      · rename_i e he
        have hne : e ≠ d := by
          rintro rfl
          simp [Command.request?, he] at h
        dsimp only
        rw [Store.device_modifyDevice, if_neg fun hd => hne hd.1]
      · rfl
  · exact (hp.device d).2 fun hd => hdraws (hlog d hd hσ.registry)

/-- What one command asks for and writes, and where it leaves the stream. -/
theorem step_replays (hσ : σ.Sound Registry.Regular []) (hc : c.Proper) {d : DeviceId}
    (hd : d < σ.store.devices.size) :
    ((c.written? d σ).toList, ((step c σ).2.store.device d).stream) =
      replay (σ.store.device d).draws (c.request? d σ).toList (σ.store.device d).stream := by
  cases hon : c.fillOn? d σ with
  | some e =>
    obtain ⟨i, f⟩ := e
    have hwritten := written?_of_fillOn? hσ hon
    have hrequest := request?_of_fillOn? hon
    obtain ⟨hfill, rfl⟩ := of_fillOn? hon
    have hstream := (step_of_fill hσ hfill).2.1 hd
    rw [hrequest, hwritten, hstream]
    rfl
  | none =>
    have hwritten : c.written? d σ = none := by
      unfold Command.written?
      rw [hon]
      rfl
    rw [hwritten]
    cases hrequest : c.request? d σ with
    | none => exact Prod.ext rfl (stream_of_no_request hσ hc hrequest)
    | some r =>
      cases c with
      | reseed device seed =>
        unfold Command.request? at hrequest
        dsimp only at hrequest
        split at hrequest
        · rename_i hnamed
          cases hrequest
          exact Prod.ext rfl (stream_of_reseed hnamed hd seed)
        · cases hrequest
      | _ =>
        exfalso
        simp [Command.request?, hon] at hrequest

end Steps

/-! ## Programs -/

/-- The fills of a program on a device write what `replay` makes of the requests of the program and
of the stream of the device, and `replay` says where the stream then stands. -/
theorem run_replays {σ : Session} (hσ : σ.Sound Registry.Regular []) {cs : List Command}
    (hcs : ∀ c ∈ cs, c.Proper) {d : DeviceId} (hd : d < σ.store.devices.size) :
    (writes d cs σ, ((run cs σ).2.store.device d).stream) =
      replay (σ.store.device d).draws (requests d cs σ) (σ.store.device d).stream := by
  induction cs generalizing σ with
  | nil => rfl
  | cons c cs ih =>
    have hproper := hcs c List.mem_cons_self
    have hnext : (step c σ).2.Sound Registry.Regular [] :=
      step_sound hσ c (registers_regular c _)
    obtain ⟨log, hp, -⟩ := step_leads hσ c
    have hlater := ih hnext (fun c' hc' => hcs c' (List.mem_cons_of_mem c hc'))
      (hp.size_devices ▸ hd)
    have hfirst := step_replays hσ hproper hd
    rw [hp.draws d] at hlater
    unfold requests writes
    rw [replay_append, ← hfirst]
    dsimp only
    rw [← hlater]
    rfl

/-- What the random fills of a program on a device write, and where its stream then stands, depends
on the stream before and on the fills and seeds in their order, and on nothing else: `replay` knows
of no other command, no other device and no element.  Each fill puts the values that it draws in
front of the elements that stay, moves no other stream, and fails as it is refused.  As for the
values themselves, from any sampler: refused parameters give none and leave the stream; up to the
first sample without a cast they are the samples in order, and that sample is drawn too; and two
fills that succeed give those of one fill of both lengths, with the same stream behind them. -/
theorem random_fills_replay_their_stream {σ : Session} (h : Reachable Command.Proper σ)
    {cs : List Command} (hcs : ∀ c ∈ cs, c.Proper) {d : DeviceId}
    (hd : d < σ.store.devices.size) :
    let k := σ.store.device d
    (writes d cs σ, ((run cs σ).2.store.device d).stream) =
        replay k.draws (requests d cs σ) k.stream ∧
    (∀ c i f, c.fillOn? d σ = some (i, f) →
      let o := f.drawn k.draws k.stream
      let s' := (step c σ).2.store
      f.elements i.inv.output s' =
          o.values ++ (f.elements i.inv.output σ.store).drop o.values.length ∧
        (s'.device d).stream = o.state ∧
        (∀ e, e ≠ d → (s'.device e).stream = (σ.store.device e).stream) ∧
        match o.refused with
        | none => (step c σ).1.failure? = none
        | some e => ∃ x, (step c σ).1.failure? = some x ∧ x.refusal? = some e) ∧
    ∀ (draws : Distribution → Stream → Double × Stream) (f : Fill) (stream : Stream),
      let o := f.drawn draws stream
      let sample (i : Nat) : Option (Elem f.dtype) :=
        Elem.cast .float64 f.dtype (Kernel.sampleAt (draws f.distribution) stream i)
      (∀ e, f.distribution.check = .error e →
        o.values = [] ∧ o.refused = some (.invalidDistribution e) ∧ o.state = stream) ∧
      (f.distribution.check = .ok () → ∀ i, i < f.count → (∀ j < i, (sample j).isSome) →
        sample i = none →
          o.refused = some (.castOutOfRange i) ∧ o.values.length = i ∧
            (∀ j < i, o.values[j]? = sample j) ∧
            o.state = Kernel.after (draws f.distribution) (i + 1) stream) ∧
      (f.distribution.check = .ok () → (∀ j < f.count, (sample j).isSome) →
        o.refused = none ∧ o.values.length = f.count ∧
          (∀ j < f.count, o.values[j]? = sample j) ∧
          o.state = Kernel.after (draws f.distribution) f.count stream) ∧
      ∀ m, let o' := Fill.drawn { f with count := m } draws o.state
        o.refused = none → o'.refused = none →
          Fill.drawn { f with count := f.count + m } draws stream =
            ⟨o.values ++ o'.values, none, o'.state⟩ := by
  have hσ : σ.Sound Registry.Regular [] :=
    h.sound_of_keeps (Registry.regular_of_onHost Registry.onHost_hostRegistry)
      fun c r _ => registers_regular c r
  refine ⟨run_replays hσ hcs hd, fun c i f hon => ?_, fun draws f stream => ?_⟩
  · obtain ⟨hfill, rfl⟩ := of_fillOn? hon
    obtain ⟨helements, hstream, hothers, hreply⟩ := step_of_fill hσ hfill
    exact ⟨helements, hstream hd, hothers, hreply⟩
  · refine ⟨fun e he => ?_, fun hok i hi hbefore hnone => ?_, fun hok hall => ?_,
      fun m hfirst hsecond => ?_⟩
    · have hdrawn := Kernel.drawn_of_error (draws f.distribution)
        (Elem.cast .float64 f.dtype) he f.count stream
      exact ⟨congrArg _ hdrawn, congrArg _ hdrawn, congrArg _ hdrawn⟩
    · exact Kernel.drawn_of_first hok hi hbefore hnone
    · exact Kernel.drawn_of_forall hok hall
    · have hadd := Kernel.drawn_add (draws f.distribution) (Elem.cast .float64 f.dtype) hfirst
        hsecond
      have hrefused : (Fill.drawn { f with count := m } draws
          (f.drawn draws stream).state).refused = none := hsecond
      refine hadd.trans ?_
      rw [← hrefused]
      rfl

/-- Fills on two devices take turns.  On the second device one meets a sample without a cast, one is
refused, and the last one draws after a new seed what the first one drew. -/
theorem interleaved_fills_replay_their_stream :
    ∃ (devices : Array Device) (program : List Command),
      let σ := onDevices devices
      Reachable Command.Proper σ ∧ (∀ c ∈ program, c.Proper) ∧
      (writes 1 program σ, ((run program σ).2.store.device 1).stream) =
        replay Distribution.sample (requests 1 program σ) { seed := 7 } ∧
      (requests 0 program σ).length = 1 ∧ (requests 1 program σ).length = 5 ∧
      (writes 1 program σ).map (fun w => w.2.map BitVec.toNat) =
        [[1063461326, 1014933433], [60], [], [1063461326, 1014933433]] ∧
      ((run program σ).2.store.device 1).stream = { seed := 7, drawn := 2 } := by
  let devices : Array Device :=
    #[.host "default" none { seed := 1 }, .host "other" none { seed := 7 }]
  let program := [Command.create "a" [2] "other" .float32,
    .random "a" (.uniform Double.zero Double.one), .create "b" [2] "default" .float64,
    .random "b" (.gaussian Double.zero Double.one), .create "c" [4] "other" .char,
    .random "c" (.uniform Double.zero (Double.ofInt 400)), .random "a" (.bernoulli (Double.ofInt 2)),
    .map .exp "a" Double.zero ⟨"d", false⟩, .reseed "other" 7,
    .random "a" (.uniform Double.zero Double.one)]
  have hσ : Reachable Command.Proper (onDevices devices) := .start devices .plain
  have hproper : ∀ c ∈ program, c.Proper := by
    simp [program, Command.Proper, Operation.pointwise]
  have hrun : let σ := onDevices devices
      (requests 0 program σ).length = 1 ∧ (requests 1 program σ).length = 5 ∧
      (writes 1 program σ).map (fun w => w.2.map BitVec.toNat) =
        [[1063461326, 1014933433], [60], [], [1063461326, 1014933433]] ∧
      ((run program σ).2.store.device 1).stream = { seed := 7, drawn := 2 } := by
    decide +kernel
  obtain ⟨hreplay, -, -⟩ := random_fills_replay_their_stream hσ hproper (d := 1) (by decide)
  have hdraws : ((onDevices devices).store.device 1).draws = Distribution.sample := rfl
  have hstream : ((onDevices devices).store.device 1).stream = { seed := 7 } := rfl
  rw [hdraws, hstream] at hreplay
  exact ⟨devices, program, hσ, hproper, hreplay, hrun⟩

end Session

end DeviceTensor
