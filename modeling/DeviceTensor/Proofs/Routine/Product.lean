import DeviceTensor.Proofs.Kernel.Product
import DeviceTensor.Proofs.Routine.Overwriting
import DeviceTensor.Proofs.Routine.Views
set_option autoImplicit false

/-!
# Launches of integer products

A product of integers looks at both operands and at the output, and runs the product kernel on what
it sees.  Looking fails for want of memory that the host addresses, and never by overflow; so a
launch overflows exactly if the kernel does.
-/

namespace DeviceTensor

open DeviceTensor.Except

/-- An arithmetic operation left the range of its type. -/
def Fault.Overflows (f : Fault) : Prop := ∃ op, f = .trap (.overflow op)

theorem Fault.not_overflows_of_refuses {f : Fault} (h : MemoryFailure.refuses f = true) :
    ¬f.Overflows := by
  rintro ⟨op, rfl⟩
  cases h

/-- The element types of exact arithmetic. -/
def ElemType.IsInteger (d : ElemType) : Prop := d = .int32 ∨ d = .char

namespace Block

/-- A view that fits into its block does not overflow. -/
theorem seen_not_overflows {b : BlockId} {d : ElemType} {count : Nat} {s : Store}
    (h : count * d.width < Size.limit) :
    FailsIn (fun f => ¬f.Overflows) (seen b d count s) := by
  refine .bind ?_ fun _ _ => .ok _
  unfold checkView
  dsimp only
  rw [Size.mul_of_lt h]
  refine .ite (fun _ => .error ?_) fun _ => .ite (fun _ => .ok ()) fun _ => .error ?_
  · rintro ⟨op, ⟨⟩⟩
  · rintro ⟨op, ⟨⟩⟩

end Block

/-! ## What a launch sees -/

/-- A routine for a product of integers. -/
theorem Routine.Serves.product {key : RoutineKey} {routine : Routine} (h : routine.Serves key)
    (hd : key.dtype.IsInteger) (hop : key.op = .gemm) : routine = .catalog key.dtype .gemm := by
  cases routine with
  | catalog d op =>
    obtain ⟨rfl, rfl, -⟩ := h
    rw [hop]
  | singleProduct =>
    rcases hd with hd | hd
    · cases hd.symm.trans h.1
    · cases hd.symm.trans h.1
  | doubleProduct =>
    rcases hd with hd | hd
    · cases hd.symm.trans h.1
    · cases hd.symm.trans h.1
  | probe p => exact h.elim

/-- No other routine than the kernel on the host is registered for the product of such elements. -/
def Store.ProductOnHost (s : Store) (d : ElemType) (device : DeviceId) : Prop :=
  ∀ routine, s.registry.get? (.onDevice d .gemm device s) = some routine →
    routine = .catalog d .gemm

theorem Store.ProductOnHost.of_backend {s s' : Store} {d : ElemType} {device device' : DeviceId}
    (h : s.ProductOnHost d device) (hregistry : s'.registry = s.registry)
    (hbackend : s'.backend device' = s.backend device) : s'.ProductOnHost d device' := by
  unfold Store.ProductOnHost RoutineKey.onDevice
  rw [hregistry, hbackend]
  exact h

theorem Registry.OnHost.product {s : Store} (h : s.registry.OnHost) {d : ElemType}
    (hd : d.IsInteger) (device : DeviceId) : s.ProductOnHost d device :=
  fun routine hget => (h _ routine hget).product hd rfl

/-- The invocation of a product that is not scaled and is added to nothing. -/
def productInvocation (left right : BlockId) (device : DeviceId) (output : BlockId)
    (x : Extents) : Invocation where
  device := device
  inputs := [left, right]
  output := output
  count := x.rows * x.cols
  alpha := Double.one
  beta := Double.zero
  extents := x

/-- The product kernel on what a launch sees of its blocks. -/
def productSeen (d : ElemType) (left right output : BlockId) (x : Extents) (s : Store) :
    Except Fault (Outcome (Elem d)) := do
  let a ← Block.seen left d (x.rows * x.inner) s
  let b ← Block.seen right d (x.inner * x.cols) s
  let dst ← Block.seen output d (x.rows * x.cols) s
  return Kernel.product (arithmetic d) (arithmetic d).one a b 0 x dst

theorem scalarSeen_one {d : ElemType} (hd : d.IsInteger) :
    Invocation.scalarSeen d Double.one = .ok (arithmetic d).one := by
  rcases hd with rfl | rfl
  · decide +kernel
  · decide +kernel

section Launch

variable {s : Store} {d : ElemType} {left right output : BlockId} {device : DeviceId} {x : Extents}
  (hd : d.IsInteger) (hleft : x.rows * x.inner < Size.limit) (hright : x.inner * x.cols < Size.limit)
  (hresult : x.rows * x.cols < Size.limit)

include hd hleft hright hresult

theorem effect_product :
    Recipe.effect (productInvocation left right device output x) s (.product : Recipe d) =
      ((productSeen d left right output x s).map Effect.ofOutcome).mapError .fault := by
  have hok {α : Type} (y : α) (next : α → Except RoutineFailure Effect) :
      ((.ok y : Except RoutineFailure α) >>= next) = next y := rfl
  simp only [Recipe.effect, Recipe.productEffect, Size.mul_of_lt hleft, Size.mul_of_lt hright,
    Size.mul_of_lt hresult, Invocation.inputSeen, Invocation.outputSeen, Invocation.sizeSeen,
    productInvocation, Except.mapError, List.getElem?_cons_zero, List.getElem?_cons_succ,
    scalarSeen_one hd, Recipe.scalarSeen_zero, hok]
  unfold productSeen
  cases Block.seen left d (x.rows * x.inner) s with
  | error e => rfl
  | ok a =>
    cases Block.seen right d (x.inner * x.cols) s with
    | error e => rfl
    | ok b => cases Block.seen output d (x.rows * x.cols) s <;> rfl

theorem launchSeen_product (hhost : s.ProductOnHost d device) :
    launchSeen .gemm d (productInvocation left right device output x) s =
      if (s.registry.get? (.onDevice d .gemm device s)).isSome then
        (productSeen d left right output x s).map Effect.ofOutcome
      else .error (.launch (.missingRoutine (.onDevice d .gemm device s))) := by
  have hdevice : (productInvocation left right device output x).device = device := rfl
  unfold launchSeen Registry.lookup
  dsimp only
  rw [hdevice]
  cases hget : s.registry.get? (.onDevice d .gemm device s) with
  | none => rfl
  | some routine =>
    obtain rfl := hhost routine hget
    have hroutine : (Routine.catalog d .gemm).effect (productInvocation left right device output x)
        s = ((productSeen d left right output x s).map Effect.ofOutcome).mapError .fault :=
      effect_product hd hleft hright hresult
    dsimp only [RoutineKey.onDevice]
    rw [hroutine]
    cases productSeen d left right output x s <;> rfl

end Launch

/-! ## Exchanged operands -/

/-- Two stores show the operands of a product alike; as soon as these can be seen, the result has its
place in both stores or in none. -/
structure ProductViews (d : ElemType) (x : Extents) (left right output : BlockId) (s : Store)
    (output' : BlockId) (s' : Store) : Prop where
  leftLimit : x.rows * x.inner * d.width < Size.limit
  rightLimit : x.inner * x.cols * d.width < Size.limit
  resultLimit : x.rows * x.cols * d.width < Size.limit
  sameLeft : ∀ n, Block.seen left d n s' = Block.seen left d n s
  sameRight : ∀ n, Block.seen right d n s' = Block.seen right d n s
  place : ∀ xs ys, Block.seen left d (x.rows * x.inner) s = .ok xs →
    Block.seen right d (x.inner * x.cols) s = .ok ys →
      ((∃ dst, Block.seen output d (x.rows * x.cols) s = .ok dst) ↔
        ∃ dst, Block.seen output' d (x.rows * x.cols) s' = .ok dst)

section Exchanged

variable {d : ElemType} (hd : d.IsInteger) {s s' : Store} {left right output output' : BlockId}
  {x : Extents}

/-- The elements of the three matrices can be counted. -/
theorem ProductViews.counted (h : ProductViews d x left right output s output' s') :
    x.rows * x.inner < Size.limit ∧ x.inner * x.cols < Size.limit ∧
      x.rows * x.cols < Size.limit := by
  have hcount {n : Nat} (hn : n * d.width < Size.limit) : n < Size.limit :=
    Nat.lt_of_le_of_lt (Nat.le_mul_of_pos_right _ d.width_pos) hn
  exact ⟨hcount h.leftLimit, hcount h.rightLimit, hcount h.resultLimit⟩

include hd in
/-- On the operands and results that are seen, the kernels exchange the elements of one product. -/
theorem kernel_exchanged (h : ProductViews d x left right output s output' s')
    {a b dst dst' : Array (Elem d)} (ha : Block.seen left d (x.rows * x.inner) s = .ok a)
    (hb : Block.seen right d (x.inner * x.cols) s = .ok b)
    (hdst : Block.seen output d (x.rows * x.cols) s = .ok dst)
    (hdst' : Block.seen output' d (x.rows * x.cols) s' = .ok dst') :
    Kernel.Exchanges x (Kernel.product (arithmetic d) (arithmetic d).one a b 0 x dst)
      (Kernel.product (arithmetic d) (arithmetic d).one b a 0 (Kernel.exchanged x) dst') := by
  have hfits {b : BlockId} {n : Nat} {t : Store} {xs : Array (Elem d)}
      (h : Block.seen b d n t = .ok xs) : n ≤ xs.size :=
    Nat.le_of_eq (Block.size_of_seen h).symm
  have hholds : Kernel.HoldsProduct x a b dst :=
    ⟨hfits ha, hfits hb, hfits hdst, h.counted.1, h.counted.2.1, h.counted.2.2⟩
  have hsize := hfits hdst'
  have hzero := Recipe.isZero_zero d
  rcases hd with rfl | rfl
  · exact Kernel.product_exchanged _ hzero hholds hsize
  · exact Kernel.product_exchanged _ hzero hholds hsize

include hd in
/-- The kernels of both products see the same operands, in the other order. -/
theorem productSeen_exchanged (h : ProductViews d x left right output s output' s') :
    Relates (fun f f' => ¬f.Overflows ∧ ¬f'.Overflows) (Kernel.Exchanges x)
      (productSeen d left right output x s)
      (productSeen d right left output' (Kernel.exchanged x) s') := by
  have hfirst : (Kernel.exchanged x).rows * (Kernel.exchanged x).inner = x.inner * x.cols :=
    Nat.mul_comm _ _
  have hsecond : (Kernel.exchanged x).inner * (Kernel.exchanged x).cols = x.rows * x.inner :=
    Nat.mul_comm _ _
  have hthird : (Kernel.exchanged x).rows * (Kernel.exchanged x).cols = x.rows * x.cols :=
    Nat.mul_comm _ _
  unfold productSeen
  rw [hfirst, hsecond, hthird, h.sameLeft, h.sameRight]
  cases ha : Block.seen left d (x.rows * x.inner) s with
  | error f =>
    have hf := Block.seen_not_overflows h.leftLimit f ha
    cases hb : Block.seen right d (x.inner * x.cols) s with
    | error f' => exact ⟨hf, Block.seen_not_overflows h.rightLimit f' hb⟩
    | ok b => exact ⟨hf, hf⟩
  | ok a =>
    cases hb : Block.seen right d (x.inner * x.cols) s with
    | error f' =>
      have hf' := Block.seen_not_overflows h.rightLimit f' hb
      exact ⟨hf', hf'⟩
    | ok b =>
      have hplace := h.place a b ha hb
      cases hdst : Block.seen output d (x.rows * x.cols) s with
      | error f =>
        have hf := Block.seen_not_overflows h.resultLimit f hdst
        cases hdst' : Block.seen output' d (x.rows * x.cols) s' with
        | error f' => exact ⟨hf, Block.seen_not_overflows h.resultLimit f' hdst'⟩
        | ok dst' =>
          obtain ⟨dst, hseen⟩ := hplace.mpr ⟨dst', hdst'⟩
          cases hdst.symm.trans hseen
      | ok dst =>
        obtain ⟨dst', hdst'⟩ := hplace.mp ⟨dst, hdst⟩
        rw [hdst']
        exact kernel_exchanged hd h ha hb hdst hdst'

theorem size_of_productSeen {o : Outcome (Elem d)}
    (h : productSeen d left right output x s = .ok o) : o.1.size = x.rows * x.cols := by
  obtain ⟨a, -, h⟩ := bind_eq_ok_iff.mp h
  obtain ⟨b, -, h⟩ := bind_eq_ok_iff.mp h
  obtain ⟨dst, hdst, h⟩ := bind_eq_ok_iff.mp h
  cases h
  exact (Kernel.size_product ..).trans (Block.size_of_seen hdst)

/-! ## Launches -/

/-- The launches are stopped before their kernels run, and not by an overflow, or their kernels
exchange the elements of one product. -/
def SeesExchanged (d : ElemType) (x : Extents) :
    Except Fault Effect → Except Fault Effect → Prop :=
  Relates (fun f f' => ¬f.Overflows ∧ ¬f'.Overflows) fun e e' =>
    ∃ o o' : Outcome (Elem d), e = .ofOutcome o ∧ e' = .ofOutcome o' ∧ Kernel.Exchanges x o o' ∧
      o.1.size = x.rows * x.cols ∧ o'.1.size = x.rows * x.cols

include hd in
theorem launchSeen_exchanged {device device' : DeviceId} (hhost : s.ProductOnHost d device)
    (hregistry : s'.registry = s.registry) (hbackend : s'.backend device' = s.backend device)
    (h : ProductViews d x left right output s output' s') :
    SeesExchanged d x
      (launchSeen .gemm d (productInvocation left right device output x) s)
      (launchSeen .gemm d (productInvocation right left device' output' (Kernel.exchanged x)) s') := by
  obtain ⟨hleft, hright, hresult⟩ := h.counted
  have hkey : RoutineKey.onDevice d .gemm device' s' = .onDevice d .gemm device s := by
    unfold RoutineKey.onDevice
    rw [hbackend]
  have hhost' := hhost.of_backend hregistry hbackend
  rw [launchSeen_product hd hleft hright hresult hhost,
    launchSeen_product (x := Kernel.exchanged x) hd (Nat.mul_comm .. ▸ hright)
      (Nat.mul_comm .. ▸ hleft) (Nat.mul_comm .. ▸ hresult) hhost', hregistry, hkey]
  split
  · rcases (productSeen_exchanged hd h).ends with
      ⟨o, o', ho, ho', hexchanges⟩ | ⟨f, f', hf, hf', hover⟩
    · rw [ho, ho']
      refine ⟨o, o', rfl, rfl, hexchanges, size_of_productSeen ho, ?_⟩
      exact (size_of_productSeen ho').trans (Nat.mul_comm _ _)
    · rw [hf, hf']
      exact hover
  · refine ⟨?_, ?_⟩
    · rintro ⟨op, ⟨⟩⟩
    · rintro ⟨op, ⟨⟩⟩

include hd in
/-- Launches of a product with exchanged operands, on outputs of their own, and not for want of
memory: one succeeds if the other does, and leaves the elements of the other exchanged; one
overflows if the other does. -/
theorem launch_exchanged {device device' : DeviceId} (hhost : s.ProductOnHost d device)
    (hregistry : s'.registry = s.registry) (hbackend : s'.backend device' = s.backend device)
    (h : ProductViews d x left right output s output' s')
    (hout : s.Receives output (x.rows * x.cols * d.width))
    (hout' : s'.Receives output' (x.rows * x.cols * d.width)) :
    let run := launch .gemm d (productInvocation left right device output x) s
    let run' := launch .gemm d
      (productInvocation right left device' output' (Kernel.exchanged x)) s'
    ¬Refused run.1 → ¬Refused run'.1 →
    Relates (fun f f' => f.Overflows ↔ f'.Overflows)
      (fun _ _ => ∀ i j, i < x.rows → j < x.cols → ∃ v,
        (Elem.decode d (x.rows * x.cols) (run.2.block output).contents)[i * x.cols + j]? = some v ∧
        (Elem.decode d (x.rows * x.cols) (run'.2.block output').contents)[j * x.rows + i]? = some v)
      run.1 run'.1 := by
  intro run run' hrefused hrefused'
  have hn : ¬(productInvocation left right device output x).Stops (launch .gemm d _) s :=
    Invocation.not_stops_of_not_refused hrefused
  have hn' : ¬(productInvocation right left device' output' (Kernel.exchanged x)).Stops
      (launch .gemm d _) s' := Invocation.not_stops_of_not_refused hrefused'
  rcases (launchSeen_exchanged hd hhost hregistry hbackend h).ends with
    ⟨_, _, hseen, hseen', o, o', rfl, rfl, hexchanges, hsize, hsize'⟩ |
      ⟨f, f', hseen, hseen', hover, hover'⟩
  · obtain ⟨hrun, hleaves⟩ := launch_of_outcome hn hseen (hsize ▸ hout)
    obtain ⟨hrun', hleaves'⟩ := launch_of_outcome hn' hseen' (hsize' ▸ hout')
    rw [hsize] at hleaves
    rw [hsize'] at hleaves'
    rcases hexchanges with ⟨hends, hends', hsame⟩ | ⟨op, op', hends, hends'⟩
    · have hok : run.1 = .ok () := hrun.trans (by rw [hends]; rfl)
      have hok' : run'.1 = .ok () := hrun'.trans (by rw [hends']; rfl)
      rw [hok, hok']
      intro i j hi hj
      obtain ⟨v, hv, hv'⟩ := hsame i j hi hj
      refine ⟨v, ?_, ?_⟩
      · exact hleaves ▸ hv
      · exact hleaves' ▸ hv'
    · have hfails : run.1 = .error (.trap (.overflow op)) := hrun.trans (by rw [hends]; rfl)
      have hfails' : run'.1 = .error (.trap (.overflow op')) := hrun'.trans (by rw [hends']; rfl)
      rw [hfails, hfails']
      exact iff_of_true ⟨op, rfl⟩ ⟨op', rfl⟩
  · have hfails : run.1 = .error f := by
      rw [launch_result hn, hseen]
      rfl
    have hfails' : run'.1 = .error f' := by
      rw [launch_result hn', hseen']
      rfl
    rw [hfails, hfails']
    exact iff_of_false hover hover'

end Exchanged

end DeviceTensor
