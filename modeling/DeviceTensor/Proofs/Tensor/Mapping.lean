import DeviceTensor.Proofs.Element.Value
import DeviceTensor.Proofs.Kernel.Total
import DeviceTensor.Proofs.Routine.Product
import DeviceTensor.Proofs.Routine.Provided
import DeviceTensor.Proofs.Tensor.Result
set_option autoImplicit false

/-!
# Launches on the host

A launch on an input and an output in memory that the host addresses sees what the tensors store,
and leaves in the output what its kernel leaves, unless a device refuses memory.  An operation with a
scalar needs the scalar as an element of the tensor: if the cast has no value then the operation
fails, and else its function is applied to every element and the value of the cast.
-/

namespace DeviceTensor

open DeviceTensor.Except

/-! ## Numbers as integer elements -/

section Integer

variable {d : ElemType} (hd : d.IsInteger)

include hd

theorem arithmetic_of_isInteger : arithmetic d = Word.arithmetic (8 * d.width) := by
  rcases hd with rfl | rfl
  · rfl
  · rfl

theorem Elem.cast_double (x : Double) :
    Elem.cast .float64 d x = (Elem.truncate? .float64 x).bind (Word.ofInt? (8 * d.width)) := by
  rcases hd with rfl | rfl
  · rfl
  · rfl

/-- The cast of a number is its integer part. -/
theorem Elem.toInt_of_cast_double {x : Double} {v : Elem d} (h : Elem.cast .float64 d x = some v) :
    ∃ q, x.value? = some q ∧ v.toInt = integerPart q := by
  rw [Elem.cast_double hd, Double.truncate?_eq] at h
  obtain ⟨n, hn, hv⟩ := Option.bind_eq_some_iff.mp h
  obtain ⟨q, hq, rfl⟩ := Option.map_eq_some_iff.mp hn
  refine ⟨q, hq, ?_⟩
  unfold Word.ofInt? at hv
  split at hv
  · rename_i hfits
    obtain rfl := Option.some.inj hv
    exact Word.toInt_ofInt_of_fits hfits
  · cases hv

/-- The cast of an integer is the integer, if it is in range. -/
theorem Elem.cast_ofInt (n : Nat) :
    Elem.cast .float64 d (Double.ofInt n) = Word.ofInt? (8 * d.width) n := by
  have hwidth : 8 * d.width ≤ 54 := by
    rcases hd with rfl | rfl
    · decide
    · decide
  rw [Elem.cast_double hd, Double.bind_truncate?_ofInt hwidth]

end Integer

namespace Tensor

variable {t out : Tensor} {s s₁ : Store} {b src dst : BlockId} {d : ElemType}

/-! ## Tensors in host memory -/

/-- The block of a tensor has room for its elements. -/
theorem Owned.receives (ho : t.Owned s) (hb : t.block = some b) :
    s.Receives b (t.count s * t.dtype.width) where
  lt := ho.lt hb
  live := ho.live hb
  room := by
    obtain ⟨hs, hh, -⟩ := ho.holds
    rw [hh.size_contents, ho.size_of_count hb]

/-- An input and an output, with their blocks, that the host addresses both. -/
structure HostPair (t out : Tensor) (src dst : BlockId) (s : Store) : Prop where
  input : t.Owned s
  output : out.Owned s
  source : t.block = some src
  target : out.block = some dst
  reads : (s.device t.device).addressable = true
  writes : (s.device out.device).addressable = true

/-- A tensor that the host addresses, and the one that is made for its result. -/
theorem HostPair.made {f : Calculation Tensor} {form : Shape × Bool} {n : Nat}
    (hform : f.form = .ok form) (hn : form.1.byteSize f.first.dtype = .ok n)
    (ho : f.first.Owned s) (hb : f.first.block = some src)
    (h : (s.device f.first.device).addressable = true) :
    HostPair f.first (f.made form s) src s.blocks.size (s.acquire f.first.device n).2 where
  input := ho.acquire f.first.device n
  output := Calculation.owned_made hform hn ho
  source := hb
  target := rfl
  reads := h
  writes := h

/-- The output can be worked on in place. -/
theorem HostPair.inPlace (h : HostPair t out src dst s) (hs : s.Keeps s₁) :
    HostPair out out dst dst s₁ where
  input := h.output.keeps hs
  output := h.output.keeps hs
  source := h.target
  target := h.target
  reads := by
    rw [hs.extend.addressable]
    exact h.writes
  writes := by
    rw [hs.extend.addressable]
    exact h.writes

/-- A launch ends as its kernel ends, and leaves in the output what the kernel leaves. -/
theorem launch_outcome {op : Operation} (inv : Invocation) {o : Outcome (Elem d)}
    (ho : out.Owned s) (hb : out.block = some inv.output) (hd : out.dtype = d)
    (hsize : o.1.size = out.count s) (hn : ¬Refused (launch op d inv s).1)
    (h : launchSeen op d inv s = .ok (.ofOutcome o)) :
    let run := launch op d inv s
    run.1 = o.2.mapError (fun e =>
        (RoutineFailure.ofHalt e).toFault (.onDevice d op inv.device s)) ∧
      s.Keeps run.2 ∧ out.stored d run.2 = o.1 := by
  intro run
  subst hd
  have hreceives := ho.receives hb
  rw [← hsize] at hreceives
  obtain ⟨hends, hcontents⟩ := launch_of_outcome (Invocation.not_stops_of_not_refused hn) h hreceives
  have hkeeps : s.Keeps run.2 := launch_keeps op out.dtype inv s
  have hf := ho.valid.filled _ hb
  have hcount : out.count run.2 = o.1.size := by
    rw [(hf.mono hkeeps.extend).count hb, hsize, hf.count hb]
  refine ⟨hends, hkeeps, ?_⟩
  rw [stored_of_block hb, hcount]
  exact hcontents

/-! ## Operations with a scalar -/

section Scalar

variable {op : Operation} {x : Double} {v : Elem t.dtype}
  {f : Elem t.dtype → Elem t.dtype → Except Trap (Elem t.dtype)} {g : Elem t.dtype → Elem t.dtype}

/-- The launch of an operation with a scalar. -/
def mapInvocation (t out : Tensor) (x : Double) (src dst : BlockId) (s : Store) : Invocation :=
  { device := out.device, inputs := [src], output := dst, count := t.count s, alpha := x }

theorem mapTo_eq (h : HostPair t out src dst s) (hlike : OutputLike t out s) (op : Operation)
    (x : Double) : mapTo op t x out s = launch op t.dtype (mapInvocation t out x src dst s) s := by
  have hplan : planMap t x out s = .ok (mapInvocation t out x src dst s) :=
    planMap_eq_ok_iff.mpr ⟨hlike, dst, h.target, src, h.source, rfl⟩
  unfold mapTo
  rw [Action.examine_bind_apply hplan]

theorem launchSeen_map (h : HostPair t out src dst s) (hlike : OutputLike t out s)
    (hp : s.Provides op out.device (.mapScalar f : Recipe t.dtype)) :
    launchSeen op t.dtype (mapInvocation t out x src dst s) s =
      (Invocation.scalarSeen t.dtype x >>= fun v => .ok (Effect.ofOutcome
        (Kernel.map (f · v) (t.stored t.dtype s) (out.stored t.dtype s)))).mapError
        (RoutineFailure.toFault (.onDevice t.dtype op out.device s)) := by
  have hinput : Block.seen src t.dtype (t.count s) s = .ok (t.stored t.dtype s) :=
    seen_stored h.input h.source h.reads
  have houtput : Block.seen dst t.dtype (t.count s) s = .ok (out.stored t.dtype s) := by
    rw [hlike.1.1.1, ← hlike.1.2]
    exact seen_stored h.output h.target h.writes
  have hseen := Recipe.effect_mapScalar (mapInvocation t out x src dst s) (f := f) rfl hinput
    houtput
  have hlaunch := Store.Provides.launchSeen (mapInvocation t out x src dst s) hp
  rw [hseen] at hlaunch
  exact hlaunch

/-- A scalar that is no element of the type is refused. -/
theorem mapTo_of_cast_none (h : HostPair t out src dst s) (hlike : OutputLike t out s)
    (hp : s.Provides op out.device (.mapScalar f : Recipe t.dtype))
    (hx : Elem.cast .float64 t.dtype x = none) (hn : ¬Refused (mapTo op t x out s).1) :
    (mapTo op t x out s).1 = .error (.launch
      (.routineFailed (.onDevice t.dtype op out.device s) (.castOutOfRange 0))) := by
  have hscalar : Invocation.scalarSeen t.dtype x = .error (.refused (.castOutOfRange 0)) := by
    unfold Invocation.scalarSeen
    rw [hx]
  rw [mapTo_eq h hlike] at hn ⊢
  rw [launch_result (Invocation.not_stops_of_not_refused hn), launchSeen_map h hlike hp, hscalar]
  rfl

/-- With a scalar that is an element, the values of a function are stored that always has one. -/
theorem mapTo_of_cast_some (h : HostPair t out src dst s) (hlike : OutputLike t out s)
    (hp : s.Provides op out.device (.mapScalar f : Recipe t.dtype))
    (hx : Elem.cast .float64 t.dtype x = some v) (hf : ∀ y, f y v = .ok (g y))
    (hn : ¬Refused (mapTo op t x out s).1) :
    ∃ s₁, mapTo op t x out s = (.ok (), s₁) ∧ s.Keeps s₁ ∧
      out.stored t.dtype s₁ = (t.stored t.dtype s).map g := by
  have hscalar : Invocation.scalarSeen t.dtype x = .ok v := by
    unfold Invocation.scalarSeen
    rw [hx]
  have hsize : (t.stored t.dtype s).size = (out.stored t.dtype s).size := by
    rw [stored_of_block h.source, stored_of_block h.target, Elem.size_decode, Elem.size_decode,
      hlike.1.2]
  have hseen := launchSeen_map (x := x) h hlike hp
  rw [hscalar, Recipe.ok_bind, Kernel.map_of_total hf hsize] at hseen
  have hcount : ((t.stored t.dtype s).map g).size = out.count s := by
    rw [Array.size_map, stored_of_block h.source, Elem.size_decode, hlike.1.2]
  rw [mapTo_eq h hlike] at hn ⊢
  obtain ⟨hends, hkeeps, hstored⟩ := launch_outcome (mapInvocation t out x src dst s)
    h.output h.target hlike.1.1.1.symm hcount hn hseen
  exact ⟨_, Prod.ext hends rfl, hkeeps, hstored⟩

section OnHost

variable {value : Elem t.dtype → Elem t.dtype → Elem t.dtype}
  (hrecipe : Recipe.ofOperation? t.dtype op = some (.mapScalar fun y v => .ok (value y v)))

include hrecipe

/-- An operation with a scalar that succeeds has cast the scalar, and stores the values of its
function. -/
theorem mapTo_eq_ok (h : HostPair t out src dst s) (hlike : OutputLike t out s)
    (hhost : s.registry.OnHost) (hrun : mapTo op t x out s = (.ok (), s₁)) :
    ∃ v, Elem.cast .float64 t.dtype x = some v ∧
      out.stored t.dtype s₁ = (t.stored t.dtype s).map (value · v) := by
  have hn : ¬Refused (mapTo op t x out s).1 := by
    rw [hrun]
    exact id
  have hlaunch := congrArg Prod.fst hrun
  have hstops := hn
  rw [mapTo_eq h hlike] at hlaunch hstops
  rw [launch_result (Invocation.not_stops_of_not_refused hstops)] at hlaunch
  obtain ⟨e, he, -⟩ := bind_eq_ok_iff.mp hlaunch
  have hprovides : s.Provides op out.device
      (.mapScalar fun y v => .ok (value y v) : Recipe t.dtype) := by
    obtain ⟨recipe, hdoes, hp⟩ := hhost.provides he
    cases hdoes with
    | catalog hcatalog =>
      cases hrecipe.symm.trans hcatalog
      exact hp
    | wideProduct => cases hrecipe
  cases hx : Elem.cast .float64 t.dtype x with
  | none =>
    have hfails := mapTo_of_cast_none h hlike hprovides hx hn
    rw [hrun] at hfails
    cases hfails
  | some v =>
    obtain ⟨s₂, hends, -, hstored⟩ := mapTo_of_cast_some h hlike hprovides hx (fun _ => rfl)
      hn
    cases hrun.symm.trans hends
    exact ⟨v, rfl, hstored⟩

theorem map_eq_ok (hhost : s.registry.OnHost) (ho : t.Owned s) (hop : op ∈ Operation.pointwise)
    (h : t.map op x s = (.ok out, s₁)) :
    out = { t with block := some s.blocks.size } ∧ ∃ v, Elem.cast .float64 t.dtype x = some v ∧
      out.stored t.dtype s₁ = (t.stored t.dtype s).map (value · v) := by
  obtain ⟨form, n, hform, hn, rfl, hinto⟩ :=
    (Calculation.value_eq_ok_iff (f := .map op t x)).mp h
  cases hform
  have ho' := ho.acquire t.device n
  have howned := Calculation.owned_made (f := .map op t x) rfl hn ho
  obtain ⟨hreads, hwrites⟩ := Calculation.addressable_of_into (f := .map op t x)
    (s := (s.acquire t.device n).2) hop hhost ho'.valid howned.valid hinto
  obtain ⟨i, hplan, -⟩ := Calculation.into_eq_ok_iff.mp hinto
  obtain ⟨_, hinv, -⟩ := Issue.planned_iff.mp hplan
  obtain ⟨hlike, dst, hdst, src, hsrc, -⟩ := planMap_eq_ok_iff.mp hinv
  obtain ⟨v, hv, hstored⟩ := mapTo_eq_ok (s := (s.acquire t.device n).2) hrecipe
    ⟨ho', howned, hsrc, hdst, hreads, hwrites⟩ hlike hhost hinto
  rw [stored_acquire ho.valid t.dtype t.device n] at hstored
  exact ⟨rfl, v, hv, hstored⟩

end OnHost

end Scalar

end Tensor

end DeviceTensor
