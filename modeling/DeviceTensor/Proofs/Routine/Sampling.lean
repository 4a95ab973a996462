import DeviceTensor.Proofs.Kernel.Sampling
import DeviceTensor.Proofs.Routine.Failure
import DeviceTensor.Proofs.Tensor.Replacement
set_option autoImplicit false

/-!
# Random fills by launch

Launching an operation executes a random fill if its routine is that of a random fill and its output
can be viewed.  Such a launch leaves in the output what the fill draws from the stream of the device,
and in the device what the fill leaves of the stream.  Any other launch leaves all streams as they
were.
-/

namespace DeviceTensor

open DeviceTensor.Except

/-- A random fill: its distribution, and the type and the number of its elements. -/
structure Fill where
  distribution : Distribution
  dtype : ElemType
  count : Nat
  deriving DecidableEq, Repr

namespace Fill

/-- What the fill takes from a stream. -/
def drawn (f : Fill) (draws : Distribution → Stream → Double × Stream) (stream : Stream) :
    Kernel.Drawn Stream (Elem f.dtype) :=
  Kernel.drawn (draws f.distribution) (Elem.cast .float64 f.dtype) f.distribution f.count stream

/-- The elements that the fill is about, in a block. -/
def elements (f : Fill) (b : BlockId) (s : Store) : List (Elem f.dtype) :=
  (Elem.decode f.dtype f.count (s.block b).contents).toList

theorem length_values_drawn (f : Fill) (draws : Distribution → Stream → Double × Stream)
    (stream : Stream) : (f.drawn draws stream).values.length =
        Kernel.stored f.count (f.drawn draws stream).refused ∧
      (f.drawn draws stream).values.length ≤ f.count :=
  Kernel.length_values_drawn (draws f.distribution) _ f.distribution f.count stream

end Fill

/-- The effect of what is drawn on the elements `dst`. -/
def Effect.ofDrawn {d : ElemType} (o : Kernel.Drawn Stream (Elem d)) (dst : Array (Elem d)) :
    Effect :=
  { Effect.ofOutcome ((o.values ++ dst.toList.drop o.values.length).toArray, o.result) with
    stream := some o.state }

namespace Routine

/-- The fill that a routine executes on an invocation. -/
def fill? (inv : Invocation) (s : Store) : Routine → Option Fill
  | .catalog d op =>
    match Recipe.ofOperation? d op, (inv.output? d inv.count s).1 with
    | some (.random D), .ok _ => some ⟨D inv.alpha inv.beta, d, inv.count⟩
    | _, _ => none
  | _ => none

variable {routine : Routine} {inv : Invocation} {s : Store}

/-- A routine that executes a fill is not refused memory: it has viewed the output before. -/
theorem run_of_fill {f : Fill} (h : routine.fill? inv s = some f) :
    ¬Refused (routine.run inv s).1 := by
  cases routine with
  | catalog d op =>
    unfold fill? at h
    dsimp only at h
    split at h
    · rename_i D dst hrecipe hdst
      unfold run
      dsimp only
      rw [hrecipe]
      dsimp only [Recipe.run, Recipe.runRandom]
      cases hout : inv.output? d inv.count s with
      | mk r s' =>
        rw [hout] at hdst
        subst hdst
        rw [Action.bind_apply_of_ok hout]
        exact inv.settle_not_refused _ _
    · cases h
  | singleProduct => cases h
  | doubleProduct => cases h
  | probe p => cases h

/-- The effect of a routine that executes a fill. -/
theorem effect_of_fill {f : Fill} (h : routine.fill? inv s = some f) :
    ∃ dst : Array (Elem f.dtype), inv.outputSeen f.dtype f.count s = .ok dst ∧
      routine.effect inv s =
        .ok (Recipe.samplesEffect f.distribution dst (s.device inv.device)) := by
  cases routine with
  | catalog d op =>
    unfold fill? at h
    dsimp only at h
    split at h
    · rename_i D dst hrecipe hdst
      cases h
      have hdst : inv.outputSeen d inv.count s = .ok dst := by
        rcases (inv.output_reads (d := d) inv.count).result s with hseen | ⟨hrefused, -⟩
        · exact hseen.symm.trans hdst
        · rw [hdst] at hrefused
          exact hrefused.elim
      refine ⟨dst, hdst, ?_⟩
      unfold effect
      dsimp only
      rw [hrecipe]
      dsimp only [Recipe.effect, Recipe.randomEffect]
      rw [hdst]
      rfl
    · cases h
  | singleProduct => cases h
  | doubleProduct => cases h
  | probe p => cases h

/-- A recipe that is not that of a random fill draws no samples. -/
theorem stream_of_not_random {d : ElemType} {recipe : Recipe d} {op : Operation}
    (hdoes : recipe.Does op) (h : ∀ D, recipe ≠ .random D) {e : Effect}
    (he : recipe.effect inv s = .ok e) : e.stream = none := by
  refine (recipe.effect_gentle.2 e he).stream op hdoes fun hop => ?_
  obtain ⟨D, hD⟩ := hdoes.random (by simpa [Operation.sampling] using hop)
  exact h D hD

/-- A routine that executes no fill draws no samples, or it stops. -/
theorem stream_of_no_fill (h : routine.fill? inv s = none) (hn : ¬inv.Stops (routine.run inv) s)
    {e : Effect} (he : routine.effect inv s = .ok e) : e.stream = none := by
  cases routine with
  | catalog d op =>
    unfold effect at he
    dsimp only at he
    split at he
    · rename_i recipe hrecipe
      refine stream_of_not_random (.catalog hrecipe) ?_ he
      rintro D rfl
      unfold fill? at h
      dsimp only at h
      rw [hrecipe] at h
      obtain ⟨dst, hdst, -⟩ := bind_eq_ok_iff.mp he
      unfold run at hn
      dsimp only at hn
      rw [hrecipe] at hn
      refine hn (.of_reads (inv.output_reads inv.count) hdst (fun hout => ?_) _)
      rw [hout] at h
      cases h
    · cases he
  | singleProduct => exact stream_of_not_random .wideProduct (fun _ h => by cases h) he
  | doubleProduct => exact stream_of_not_random .wideProduct (fun _ h => by cases h) he
  | probe p =>
    cases p with
    | idle =>
      cases he
      rfl
    | ramp =>
      obtain ⟨_, -, he⟩ := bind_eq_ok_iff.mp he
      cases he
      rfl
    | unsupported => cases he
    | mismatch => cases he
    | echo => cases he

end Routine

/-! ## Launches -/

/-- The refusal that a fault reports. -/
def Fault.refusal? : Fault → Option Refusal
  | .launch (.routineFailed _ e) => some e
  | _ => none

/-- The fill that a launch executes. -/
def launchFill? (op : Operation) (dtype : ElemType) (inv : Invocation) (s : Store) : Option Fill :=
  match s.registry.lookup (RoutineKey.onDevice dtype op inv.device s) with
  | .ok routine => routine.fill? inv s
  | .error _ => none

section Launches

variable {op : Operation} {dtype : ElemType} {inv : Invocation} {s : Store}

theorem Effect.device_store (e : Effect) (d : DeviceId) :
    (e.store inv s).device d =
      if inv.device = d ∧ d < s.devices.size then e.restream (s.device d) else s.device d :=
  Store.device_modifyDevice inv.device d e.restream

/-- A launch that executes no fill leaves all streams. -/
theorem stream_launch_of_no_fill (h : launchFill? op dtype inv s = none) (d : DeviceId) :
    ((launch op dtype inv s).2.device d).stream = (s.device d).stream := by
  by_cases hn : inv.Stops (launch op dtype inv) s
  · exact hn.binds.stream d
  cases hseen : launchSeen op dtype inv s with
  | error f =>
    obtain ⟨s', hs', hx⟩ := launch_of_error hn hseen
    rw [hx]
    exact hs'.stream d
  | ok e =>
    have hnone : e.stream = none := by
      unfold launchSeen at hseen
      unfold launchFill? at h
      dsimp only at hseen
      split at hseen
      · cases hseen
      · rename_i routine hlookup
        rw [hlookup] at h
        exact Routine.stream_of_no_fill h (fun hstops => hn (hstops.launch hlookup))
          (mapError_eq_ok_iff.mp hseen)
    have hsame (k : Device) : e.restream k = k := by
      unfold Effect.restream
      rw [hnone]
    obtain ⟨s', hs', -, hx⟩ := launch_of_ok hn hseen
    rw [hx, ← hs'.stream d]
    change ((e.store inv s').device d).stream = (s'.device d).stream
    rw [e.device_store, hsame, ite_self]

/-- What a view of the output shows are the elements of its block, which has room for them. -/
theorem Fill.elements_of_outputSeen {f : Fill} {dst : Array (Elem f.dtype)}
    (h : inv.outputSeen f.dtype f.count s = .ok dst) :
    dst.toList = f.elements inv.output s ∧ dst.size = f.count ∧
      f.count * f.dtype.width ≤ (s.block inv.output).size := by
  obtain ⟨_, hcheck, h⟩ := bind_eq_ok_iff.mp (mapError_eq_ok_iff.mp h)
  obtain rfl := pure_eq_ok_iff.mp h
  exact ⟨rfl, Elem.size_decode _ _ _, (Block.checkView_eq_ok_iff.mp hcheck).2.2⟩

/-- The effect that a launch with a fill sees. -/
theorem launchSeen_of_fill {f : Fill} (h : launchFill? op dtype inv s = some f) :
    ∃ dst : Array (Elem f.dtype), inv.outputSeen f.dtype f.count s = .ok dst ∧
      launchSeen op dtype inv s =
        .ok (.ofDrawn (f.drawn (s.device inv.device).draws (s.device inv.device).stream) dst) := by
  unfold launchFill? at h
  unfold launchSeen
  dsimp only
  split at h
  · rename_i routine hlookup
    obtain ⟨dst, hdst, heffect⟩ := Routine.effect_of_fill h
    refine ⟨dst, hdst, ?_⟩
    rw [hlookup]
    dsimp only
    rw [heffect]
    unfold Recipe.samplesEffect
    rw [Kernel.fillSamples_eq, (Fill.elements_of_outputSeen hdst).2.1]
    rfl
  · cases h

/-- A launch that executes a fill does not stop. -/
theorem not_stops_of_fill {f : Fill} (h : launchFill? op dtype inv s = some f) :
    ¬inv.Stops (launch op dtype inv) s := by
  refine Invocation.not_stops_of_not_refused ?_
  unfold launchFill? at h
  rw [launch_eq]
  split at h
  · rename_i routine hlookup
    rw [hlookup]
    dsimp only
    rw [Action.mapError_apply]
    intro hrefused
    refine Routine.run_of_fill h (hrefused.of_mapError fun e he => ?_)
    rwa [RoutineFailure.refuses_toFault] at he
  · cases h

/-- A launch that executes a fill stores what the fill draws, in front of the elements that stay,
leaves the device what the fill leaves of the stream, and fails as the fill is refused. -/
theorem launch_of_fill {f : Fill} (h : launchFill? op dtype inv s = some f) {hs : List BlockId}
    (hh : s.Holds hs) (hout : inv.output ∈ hs) :
    let o := f.drawn (s.device inv.device).draws (s.device inv.device).stream
    let s' := (launch op dtype inv s).2
    f.elements inv.output s' = o.values ++ (f.elements inv.output s).drop o.values.length ∧
      (inv.device < s.devices.size → (s'.device inv.device).stream = o.state) ∧
      (∀ d, d ≠ inv.device → (s'.device d).stream = (s.device d).stream) ∧
      (launch op dtype inv s).1 = match o.refused with
        | none => .ok ()
        | some e => .error (.launch (.routineFailed (.onDevice dtype op inv.device s) e)) := by
  obtain ⟨dst, hdst, hseen⟩ := launchSeen_of_fill h
  obtain ⟨hdecode, hsize, hroom⟩ := Fill.elements_of_outputSeen hdst
  have hlive : (s.block inv.output).memory ≠ .released := fun hm => hh.released _ hm hout
  have hn := not_stops_of_fill h
  have hcontents := contents_launch_of_ok hn hseen (hh.lt _ hout) hlive
  have hresult := launch_result hn
  have hlength := (f.length_values_drawn (s.device inv.device).draws
    (s.device inv.device).stream).2
  rw [hseen] at hresult
  obtain ⟨s', hs', -, hx⟩ := launch_of_ok hn hseen
  generalize f.drawn (s.device inv.device).draws (s.device inv.device).stream = o at *
  have hdevice (d : DeviceId) : (launch op dtype inv s).2.device d =
      if inv.device = d ∧ d < s.devices.size then { s'.device d with stream := o.state }
      else s'.device d := by
    rw [hx, ← hs'.devices]
    exact Effect.device_store _ d
  refine ⟨?_, fun hd => ?_, fun d hd => ?_, ?_⟩
  · let xs : Array (Elem f.dtype) := (o.values ++ dst.toList.drop o.values.length).toArray
    have hxs : xs.size = f.count := by
      simp only [xs, List.size_toArray, List.length_append, List.length_drop, Array.length_toList,
        hsize]
      omega
    have hfit : xs.size * f.dtype.width ≤ (s.block inv.output).contents.size := by
      rw [hxs, hh.size_contents]
      exact hroom
    have hread := Elem.decode_overlay hfit
    rw [hxs] at hread
    unfold Fill.elements at hdecode ⊢
    rw [hcontents, ← hdecode]
    exact congrArg Array.toList hread
  · rw [hdevice, if_pos ⟨rfl, hd⟩]
  · rw [hdevice, if_neg fun h => hd h.1.symm]
    exact hs'.stream d
  · rw [hresult]
    change (Except.mapError RoutineFailure.ofHalt o.result).mapError _ = _
    unfold Kernel.Drawn.result
    cases o.refused <;> rfl

end Launches

end DeviceTensor
