import DeviceTensor.Proofs.Tensor.Calculation
set_option autoImplicit false

/-!
# Results that are made

An operation that makes its result writes it into a tensor that is made for it, on the device of its
first operand.  If the result can be made then it can be written into a given tensor, and the other
way round unless that device refuses its memory; either way the same elements are stored.
-/

namespace DeviceTensor

open DeviceTensor.Except
open Tensor

namespace Tensor

/-! ## Results that are made -/

variable {t : Tensor} {s s₁ : Store}

theorem building_eq_ok_iff {make : Action Fault Tensor} {work : Tensor → Action Fault Unit} :
    building make work s = (.ok t, s₁) ↔
      ∃ s', make s = (.ok t, s') ∧ work t s' = (.ok (), s₁) := by
  unfold building
  rw [Action.bind_eq_ok_iff]
  constructor
  · rintro ⟨out, s', hmake, hrest⟩
    obtain ⟨⟨⟩, s'', hwork, hend⟩ := Action.bind_eq_ok_iff.mp hrest
    cases hend
    exact ⟨s', hmake, Action.onFailure_eq_ok_iff.mp hwork⟩
  · rintro ⟨s', hmake, hwork⟩
    refine ⟨t, s', hmake, Action.bind_eq_ok_iff.mpr ⟨(), s₁, ?_, rfl⟩⟩
    exact Action.onFailure_eq_ok_iff.mpr hwork

/-- A tensor that is built gets the result of the work on it. -/
theorem building_result {make : Action Fault Tensor} {work : Tensor → Action Fault Unit}
    (h : make s = (.ok t, s₁)) : (building make work s).1 = (work t s₁).1.map fun _ => t := by
  unfold building
  rw [Action.bind_apply_of_ok h, Action.bind_apply]
  have hfst := Action.onFailure_fst t.release (work t) s₁
  cases hrun : (work t).onFailure t.release s₁ with
  | mk r u =>
    rw [hrun] at hfst
    rw [← hfst]
    cases r <;> rfl

theorem onDevice_eq_ok_iff {shape : Shape} {d : DeviceId} {dtype : ElemType} :
    onDevice shape d dtype s = (.ok t, s₁) ↔ ∃ n, shape.byteSize dtype = .ok n ∧
      t = ⟨shape, dtype, false, d, some s.blocks.size⟩ ∧ s₁ = (s.acquire d n).2 := by
  rw [onDevice_eq]
  cases shape.byteSize dtype with
  | error e => simp
  | ok n => simp [Prod.ext_iff, eq_comm]

theorem blankLike_eq_ok_iff {other : Tensor} :
    other.blankLike s = (.ok t, s₁) ↔ ∃ n, other.shape.byteSize other.dtype = .ok n ∧
      t = { other with block := some s.blocks.size } ∧ s₁ = (s.acquire other.device n).2 := by
  rw [blankLike_eq]
  cases other.shape.byteSize other.dtype with
  | error e => simp
  | ok n => simp [Prod.ext_iff, eq_comm]

end Tensor

namespace Calculation

variable {f : Calculation Tensor} {s s₁ : Store} {out : Tensor}

/-- The tensor that is made for the result. -/
def made (f : Calculation Tensor) (form : Shape × Bool) (s : Store) : Tensor :=
  ⟨form.1, f.first.dtype, form.2, f.first.device, some s.blocks.size⟩

/-- The result is made, and written into the tensor that was made. -/
def MakesResult (f : Calculation Tensor) (s : Store) (out : Tensor) (s₁ : Store) : Prop :=
  ∃ form n, f.form = .ok form ∧ form.1.byteSize f.first.dtype = .ok n ∧ out = f.made form s ∧
    f.into out (s.acquire f.first.device n).2 = (.ok (), s₁)

/-- The result has the form of the first operand. -/
theorem like_eq_ok_iff (hform : f.form = .ok (f.first.shape, f.first.transposed)) :
    building f.first.blankLike f.into s = (.ok out, s₁) ↔ f.MakesResult s out s₁ := by
  rw [building_eq_ok_iff]
  constructor
  · rintro ⟨s', hmake, hinto⟩
    obtain ⟨n, hn, rfl, rfl⟩ := blankLike_eq_ok_iff.mp hmake
    exact ⟨_, n, hform, hn, rfl, hinto⟩
  · rintro ⟨form, n, hform', hn, rfl, hinto⟩
    rw [hform] at hform'
    cases hform'
    exact ⟨_, blankLike_eq_ok_iff.mpr ⟨n, hn, rfl, rfl⟩, hinto⟩

/-- The result has a shape of its own, if the operands have a result. -/
theorem shaped_eq_ok_iff {α : Type} {x : Except Fault α} (shape : α → Shape)
    (hform : f.form = x >>= fun a => .ok (shape a, false)) :
    (Action.ofExcept x >>= fun a =>
        building (onDevice (shape a) f.first.device f.first.dtype) f.into) s = (.ok out, s₁) ↔
      f.MakesResult s out s₁ := by
  cases x with
  | error e =>
    refine iff_of_false nofun ?_
    rintro ⟨form, n, hform', -⟩
    rw [hform] at hform'
    cases hform'
  | ok a =>
    refine building_eq_ok_iff.trans ⟨?_, ?_⟩
    · rintro ⟨s', hmake, hinto⟩
      obtain ⟨n, hn, rfl, rfl⟩ := onDevice_eq_ok_iff.mp hmake
      exact ⟨_, n, hform, hn, rfl, hinto⟩
    · rintro ⟨form, n, hform', hn, rfl, hinto⟩
      rw [hform] at hform'
      cases hform'
      exact ⟨_, onDevice_eq_ok_iff.mpr ⟨n, hn, rfl, rfl⟩, hinto⟩

/-- The form that makes its result writes it into a new tensor. -/
theorem value_eq_ok_iff : f.value s = (.ok out, s₁) ↔ f.MakesResult s out s₁ := by
  cases f with
  | map op t x => exact like_eq_ok_iff (f := .map op t x) rfl
  | zip op lhs rhs => exact like_eq_ok_iff (f := .zip op lhs rhs) rfl
  | sums which t => exact shaped_eq_ok_iff (f := .sums which t) _ rfl
  | sumAxis t axis => exact shaped_eq_ok_iff (f := .sumAxis t axis) _ rfl
  | softmax t axis => exact like_eq_ok_iff (f := .softmax t axis) rfl
  | product a b =>
    have hshaped : _ ↔ MakesResult (.product a b) s out s₁ :=
      shaped_eq_ok_iff (x := productExtents a b) Prod.fst rfl
    refine Iff.trans ?_ hshaped
    refine Action.bind_eq_ok_iff.trans ⟨?_, fun h => ?_⟩
    · rintro ⟨_, _, hcheck, h⟩
      obtain ⟨-, rfl⟩ := Action.examine_eq_ok_iff.mp hcheck
      exact h
    · -- the check that comes first is made again for the product itself
      obtain ⟨form, n, -, -, -, hinto⟩ := hshaped.mp h
      obtain ⟨i, hplan, -⟩ := into_eq_ok_iff.mp hinto
      obtain ⟨inv, hinv, -⟩ := Issue.planned_iff.mp hplan
      have hkind : SameKind a b s := (planProduct_eq_ok_iff.mp hinv).1
      exact ⟨(), s, Action.examine_eq_ok_iff.mpr ⟨checkSameKind_eq_ok_iff.mpr hkind, rfl⟩, h⟩

/-- The result that is made is refused where it cannot be written. -/
theorem value_result {i : Issue} (hplan : f.computation.plan out s = .ok i) {form : Shape × Bool}
    {n : Nat} (hform : f.form = .ok form) (hn : form.1.byteSize f.first.dtype = .ok n) :
    (f.value s).1 = (f.into (f.made form s) (s.acquire f.first.device n).2).1.map
      fun _ => f.made form s := by
  have hlike (h : form = (f.first.shape, f.first.transposed)) :
      (building f.first.blankLike f.into s).1 =
        (f.into (f.made form s) (s.acquire f.first.device n).2).1.map fun _ => f.made form s := by
    subst h
    exact building_result (blankLike_eq_ok_iff.mpr ⟨n, hn, rfl, rfl⟩)
  have hshaped {shape : Shape} (h : form = (shape, false)) :
      (building (onDevice shape f.first.device f.first.dtype) f.into s).1 =
        (f.into (f.made form s) (s.acquire f.first.device n).2).1.map fun _ => f.made form s := by
    subst h
    exact building_result (onDevice_eq_ok_iff.mpr ⟨n, hn, rfl, rfl⟩)
  cases f with
  | map op t x => exact hlike (Except.ok.inj hform).symm
  | zip op lhs rhs => exact hlike (Except.ok.inj hform).symm
  | sums which t =>
    obtain ⟨dims, hdims, hform⟩ := bind_eq_ok_iff.mp hform
    refine (congrArg Prod.fst (Action.ofExcept_bind_apply hdims _ s)).trans ?_
    exact hshaped (Except.ok.inj hform).symm
  | sumAxis t axis =>
    obtain ⟨c, hc, hform⟩ := bind_eq_ok_iff.mp hform
    refine (congrArg Prod.fst (Action.ofExcept_bind_apply hc _ s)).trans ?_
    exact hshaped (Except.ok.inj hform).symm
  | softmax t axis => exact hlike (Except.ok.inj hform).symm
  | product a b =>
    obtain ⟨p, hp, hform⟩ := bind_eq_ok_iff.mp hform
    obtain ⟨inv, hinv, -⟩ := Issue.planned_iff.mp hplan
    have hkind : checkSameKind a b s = .ok () :=
      checkSameKind_eq_ok_iff.mpr (planProduct_eq_ok_iff.mp hinv).1
    refine (congrArg Prod.fst (Action.examine_bind_apply hkind _)).trans ?_
    refine (congrArg Prod.fst (Action.ofExcept_bind_apply hp _ s)).trans ?_
    exact hshaped (Except.ok.inj hform).symm

end Calculation

/-- The result is that the device refuses a block of `n` bytes, as it does after some requests. -/
def Device.RefusesResult {α : Type} (d : Device) (n : Nat) (x : Except Fault α) : Prop :=
  ∃ earlier e, d.answers earlier (.allocate n) = .error e ∧
    x = .error (.allocationFailed n d.backend d.name e)

/-! ## The size of a result -/

/-- The dimensions are sizes. -/
def Shape.Sized (shape : Shape) : Prop := ∀ n ∈ shape, n < Size.limit

instance (shape : Shape) : Decidable shape.Sized :=
  inferInstanceAs (Decidable (∀ n ∈ shape, n < Size.limit))

/-- The elements of a vector or a matrix can be counted if there are not too many. -/
theorem Shape.count_of_sized {shape : Shape} (hrank : shape.length = 1 ∨ shape.length = 2)
    (hsized : shape.Sized) (hprod : shape.prod < Size.limit) : shape.count = .ok shape.prod := by
  match shape with
  | [n] =>
    have hone : Size.mul 1 n = .ok n := by
      rw [Size.mul_of_lt (by simpa using hprod), Nat.one_mul]
    rw [count_eq]
    unfold Size.product
    rw [List.foldlM_cons, hone, List.prod_singleton]
    rfl
  | [rows, cols] =>
    simp only [List.prod_cons, List.prod_nil, Nat.mul_one] at hprod ⊢
    exact count_of_matrix (hsized rows List.mem_cons_self) hprod
  | [] => simp at hrank
  | _ :: _ :: _ :: _ => simp at hrank

namespace Tensor

variable {t out : Tensor} {s : Store} {b : BlockId}

theorem byteSize_eq (ho : t.Owned s) (hb : t.block = some b) :
    t.byteSize s = t.shape.prod * t.dtype.width := by
  unfold byteSize
  rw [hb]
  exact (ho.valid.filled b hb).size

/-- The elements of a tensor with a block can be counted. -/
theorem Owned.counted (ho : t.Owned s) (hb : t.block = some b) (hsized : t.shape.Sized) :
    t.shape.count = .ok t.shape.prod := by
  have hf := ho.valid.filled b hb
  by_cases hrank : t.rank = 2
  · refine Shape.count_of_sized (.inr hrank) hsized (Nat.lt_of_le_of_lt ?_ hf.small)
    exact Nat.le_mul_of_pos_right _ t.dtype.width_pos
  · exact hf.counted hrank

/-- A shape with as many elements as a tensor has as many bytes. -/
theorem byteSize_of_counted (ho : out.Owned s) (hb : out.block = some b) {shape : Shape}
    (hcount : shape.count = .ok shape.prod) (hprod : shape.prod = out.count s) :
    shape.byteSize out.dtype = .ok (out.byteSize s) := by
  have hf := ho.valid.filled b hb
  rw [hf.count hb] at hprod
  have hsmall : shape.prod * out.dtype.width < Size.limit := hprod ▸ hf.small
  unfold Shape.byteSize
  rw [hcount, byteSize_eq ho hb, ← hprod]
  change Fault.ofTrap (Size.mul shape.prod out.dtype.width) = _
  rw [Size.mul_of_lt hsmall]
  rfl

end Tensor

namespace Calculation

variable {f : Calculation Tensor} {s s₁ : Store} {out : Tensor} {i : Issue} {b : BlockId}

/-- The dimensions of a product are dimensions of its operands. -/
theorem sized_of_productDims {a c : Tensor} {shape : Shape} {rows cols ka kb : Nat}
    (ha : a.shape.Sized) (hc : c.shape.Sized)
    (h : productDims a c = .ok (shape, rows, cols, ka, kb)) :
    (shape.length = 1 ∨ shape.length = 2) ∧ shape.Sized := by
  have hone : 1 < Size.limit := by decide
  unfold Shape.Sized at ha hc ⊢
  unfold productDims at h
  split at h
  all_goals try cases h
  all_goals simp_all

/-- An operation that can be planned has a result, of as many elements as the output. -/
theorem form_of_plan (hsized : ∀ t ∈ f.operands, t.shape.Sized) (hfirst : f.first.Owned s)
    (hsmall : out.count s < Size.limit) (h : f.computation.plan out s = .ok i) :
    ∃ form, f.form = .ok form ∧ form.1.count = .ok form.1.prod ∧ form.1.prod = out.count s := by
  have hlike {src : BlockId} (hsrc : f.first.block = some src)
      (hcount : out.count s = f.first.count s) :
      f.first.shape.count = .ok f.first.shape.prod ∧ f.first.shape.prod = out.count s := by
    refine ⟨hfirst.counted hsrc (hsized f.first f.first_mem), ?_⟩
    rw [hcount, (hfirst.valid.filled src hsrc).count hsrc]
  have hvector {n : Nat} (hcount : out.count s = n) :
      Shape.count [n] = .ok (List.prod [n]) ∧ List.prod [n] = out.count s := by
    subst hcount
    refine ⟨Shape.count_of_sized (.inl rfl) ?_ ?_, List.prod_singleton⟩
    · exact List.forall_mem_singleton.mpr hsmall
    · rw [List.prod_singleton]
      exact hsmall
  cases f with
  | map op t x =>
    obtain ⟨inv, hinv, -⟩ := Issue.planned_iff.mp h
    obtain ⟨⟨hof, -⟩, dst, -, src, hsrc, -⟩ := planMap_eq_ok_iff.mp hinv
    exact ⟨_, rfl, hlike hsrc hof.2⟩
  | zip op lhs rhs =>
    obtain ⟨inv, hinv, -⟩ := Issue.planned_iff.mp h
    obtain ⟨-, -, ⟨hof, -⟩, dst, -, left, hleft, -⟩ := planZip_eq_ok_iff.mp hinv
    exact ⟨_, rfl, hlike hleft hof.2⟩
  | sums which t =>
    obtain ⟨inv, hinv, -⟩ := Issue.planned_iff.mp h
    obtain ⟨dims, hdims, hinv⟩ := bind_eq_ok_iff.mp hinv
    obtain ⟨hof, -⟩ := planSums_eq_ok_iff.mp hinv
    exact ⟨_, bind_eq_ok_iff.mpr ⟨dims, hdims, rfl⟩, hvector hof.2⟩
  | sumAxis t axis =>
    obtain ⟨c, hc, h⟩ := bind_eq_ok_iff.mp h
    obtain ⟨inv, hinv, -⟩ := Issue.planned_iff.mp h
    obtain ⟨hof, -⟩ := planSums_eq_ok_iff.mp hinv
    exact ⟨_, bind_eq_ok_iff.mpr ⟨c, hc, rfl⟩, hvector hof.2⟩
  | softmax t axis =>
    obtain ⟨inv, hinv, -⟩ := Issue.planned_iff.mp h
    obtain ⟨-, ⟨hof, -⟩, _, -, _, -, dst, -, src, hsrc, -⟩ := planSoftmax_eq_ok_iff.mp hinv
    exact ⟨_, rfl, hlike hsrc hof.2⟩
  | product a c =>
    obtain ⟨inv, hinv, -⟩ := Issue.planned_iff.mp h
    obtain ⟨-, p, hx, count, hmul, hof, -⟩ := planProduct_eq_ok_iff.mp hinv
    obtain ⟨rows, cols, inner, hdims, hextents⟩ := productExtents_eq_ok_iff.mp hx
    obtain ⟨hrank, hshape⟩ := sized_of_productDims (hsized a (by simp [operands]))
      (hsized c (by simp [operands])) hdims
    have hprod : p.1.prod = out.count s := by
      rw [(size_of_productDims hdims).2.2, hof.2, (Size.mul_eq_ok_iff.mp hmul).2, hextents]
    refine ⟨_, bind_eq_ok_iff.mpr ⟨p, hx, rfl⟩, Shape.count_of_sized hrank hshape ?_, hprod⟩
    exact hprod ▸ hsmall

/-- The tensor that is made for the result is accepted. -/
theorem accepts_made {form : Shape × Bool} {n : Nat} (hform : f.form = .ok form)
    (hn : form.1.byteSize f.first.dtype = .ok n) (hcount : f.first.count s = f.first.shape.prod)
    (hs : f.SameOperands s (s.acquire f.first.device n).2) :
    f.Accepts (f.made form s) (s.acquire f.first.device n).2 := by
  have hmade : (f.made form s).count (s.acquire f.first.device n).2 = form.1.prod :=
    (fills_acquire hn f.first.device form.2 s).count rfl
  have hof {count : Nat} (h : form.1.prod = count) :
      OutputOf f.first (f.made form s) count (s.acquire f.first.device n).2 :=
    ⟨⟨rfl, rfl⟩, hmade.trans h⟩
  have hlike (h : form = (f.first.shape, f.first.transposed)) :
      checkOutputLike f.first (f.made form s) (s.acquire f.first.device n).2 = .ok () := by
    subst h
    refine checkOutputLike_eq_ok_iff.mpr ⟨hof ?_, rfl⟩
    rw [hs.count f.first_mem, hcount]
  cases f with
  | map op t x => exact hlike (Except.ok.inj hform).symm
  | zip op lhs rhs => exact hlike (Except.ok.inj hform).symm
  | sums which t =>
    intro dims hdims
    simp only [Calculation.form, hdims] at hform
    cases hform
    exact checkOutput_eq_ok_iff.mpr (hof List.prod_singleton)
  | sumAxis t axis =>
    intro c hc
    simp only [Calculation.form, hc] at hform
    cases hform
    exact checkOutput_eq_ok_iff.mpr (hof List.prod_singleton)
  | softmax t axis => exact hlike (Except.ok.inj hform).symm
  | product a c =>
    intro p hx
    obtain ⟨rows, cols, inner, hdims, hextents⟩ := productExtents_eq_ok_iff.mp hx
    simp only [Calculation.form, hx] at hform
    cases hform
    refine ⟨checkOutput_eq_ok_iff.mpr (hof ?_), rfl⟩
    rw [hextents]
    exact (size_of_productDims hdims).2.2

/-! ## The two forms -/

/-- A new block changes nothing about the operands. -/
theorem sameOperands_acquire (hin : ∀ t ∈ f.operands, t.Owned s) (d : DeviceId) (n : Nat) :
    f.SameOperands s (s.acquire d n).2 where
  registry := rfl
  library := rfl
  backend _ := rfl
  sight t ht b hb := (Store.shows_acquire s d n).sight b ((hin t ht).lt hb)

/-- Only a matrix is made in the order of its columns. -/
theorem rank_of_form {form : Shape × Bool} (hform : f.form = .ok form) (hv : f.first.Valid s)
    (hflag : form.2 = true) : form.1.length = 2 := by
  have hlike (h : form = (f.first.shape, f.first.transposed)) : form.1.length = 2 := by
    subst h
    exact hv.rank hflag
  cases f with
  | map op t x => exact hlike (Except.ok.inj hform).symm
  | zip op lhs rhs => exact hlike (Except.ok.inj hform).symm
  | sums which t =>
    obtain ⟨dims, -, hform⟩ := bind_eq_ok_iff.mp hform
    cases hform
    cases hflag
  | sumAxis t axis =>
    obtain ⟨c, -, hform⟩ := bind_eq_ok_iff.mp hform
    cases hform
    cases hflag
  | softmax t axis => exact hlike (Except.ok.inj hform).symm
  | product a c =>
    obtain ⟨p, -, hform⟩ := bind_eq_ok_iff.mp hform
    cases hform
    cases hflag

theorem owned_made {form : Shape × Bool} {n : Nat} (hform : f.form = .ok form)
    (hn : form.1.byteSize f.first.dtype = .ok n) (hfirst : f.first.Owned s) :
    (f.made form s).Owned (s.acquire f.first.device n).2 where
  valid := by
    refine (fills_acquire hn f.first.device form.2 s).valid rfl fun hflag => ?_
    exact rank_of_form hform hfirst.valid hflag
  holds := by
    obtain ⟨hs, hh, -⟩ := hfirst.holds
    refine ⟨_, hh.acquire f.first.device n, fun b hb => ?_⟩
    obtain rfl := List.mem_singleton.mp hb
    exact List.mem_cons_self

section Forms

variable (hf : f.Proper) (hhost : s.registry.OnHost) (hin : ∀ t ∈ f.operands, t.Owned s)
  (ho : out.Owned s) (hb : out.block = some b) (haccepts : f.Accepts out s)

/-- A new block changes neither the devices nor the blocks of the operands. -/
theorem sameOn_acquire (hin : ∀ t ∈ f.operands, t.Owned s) (d : DeviceId) (n : Nat) :
    s.SameOn f.blocks (s.acquire d n).2 := by
  have hlt (b : BlockId) (hb : b ∈ f.blocks) : b < s.blocks.size := by
    obtain ⟨t, ht, htb⟩ := List.mem_flatMap.mp hb
    exact (hin t ht).lt (Option.mem_toList.mp htb)
  refine ⟨rfl, rfl, fun b hb => Store.block_acquire_of_lt (hlt b hb), hlt, fun b hb => ?_⟩
  rw [Store.size_blocks_acquire]
  exact Nat.lt_succ_of_lt (hlt b hb)

include hf hhost hin ho hb haccepts in
/-- If the result can be made, it can be written: the same elements, in the same order.  The memory
of the operands is asked for alike. -/
theorem into_of_value (hview : out.Viewable s) {made : Tensor} (hvalue : f.value s = (.ok made, s₁)) :
    ∃ s₂, f.into out s = (.ok (), s₂) ∧ made.dtype = out.dtype ∧
      made.stored out.dtype s₁ = out.stored out.dtype s₂ := by
  obtain ⟨form, n, hform, hn, rfl, hinto⟩ := value_eq_ok_iff.mp hvalue
  have hfirst := hin f.first f.first_mem
  have hfirst' := (hfirst.acquire f.first.device n).valid
  have hs := sameOperands_acquire hin f.first.device n
  rcases into_onto hf hs.symm hhost hfirst' hfirst.valid (owned_made hform hn hfirst) ho hb haccepts
    hview.addressable () s₁ hinto with ⟨⟨⟩, s₂, hrun, hdtype, hstored⟩ | hrefused
  · refine ⟨s₂, hrun, hdtype.symm, ?_⟩
    rw [hdtype]
    exact hstored.symm
  · exfalso
    obtain ⟨fault, hfault⟩ := hrefused.exists_error
    rw [hfault] at hrefused
    obtain ⟨i, hplan, -⟩ := into_eq_ok_iff.mp hinto
    rcases into_asks hf hs.symm (sameOn_acquire hin f.first.device n).symm hhost hfirst' hfirst.valid
      hb haccepts hplan hfault hrefused with hmade | hblock
    · rw [hinto] at hmade
      exact hmade
    · exact hblock.not_supplies (hview.supplies b hb)

include hf hin ho in
/-- The result that can be written has as many bytes as the output. -/
theorem byteSize_of_into (hsized : ∀ t ∈ f.operands, t.shape.Sized) {s₂ : Store}
    (h : f.into out s = (.ok (), s₂)) :
    ∃ form, f.form = .ok form ∧ form.1.byteSize f.first.dtype = .ok (out.byteSize s) := by
  have hfirst := hin f.first f.first_mem
  obtain ⟨i, hplan, -⟩ := into_eq_ok_iff.mp h
  have hp := planned hf hfirst.valid hplan
  obtain ⟨form, hform, hcounted, hprod⟩ :=
    form_of_plan hsized hfirst (count_lt_limit ho hp.on.output) hplan
  refine ⟨form, hform, ?_⟩
  rw [hp.kind.1]
  exact byteSize_of_counted ho hp.on.output hcounted hprod

include hf hhost hin ho in
/-- If the result can be written, it can be made, unless the device of the first operand refuses the
memory of the result. -/
theorem value_of_into (hsized : ∀ t ∈ f.operands, t.shape.Sized) {s₂ : Store}
    (h : f.into out s = (.ok (), s₂)) :
    (∃ made s₁, f.value s = (.ok made, s₁)) ∨
      (s.device f.first.device).RefusesResult (out.byteSize s) (f.value s).1 := by
  have hfirst := hin f.first f.first_mem
  have hfirst' := (hfirst.acquire f.first.device (out.byteSize s)).valid
  have hs := sameOperands_acquire hin f.first.device (out.byteSize s)
  obtain ⟨form, hform, hn⟩ := byteSize_of_into hf hin ho hsized h
  obtain ⟨i, hplan, -⟩ := into_eq_ok_iff.mp h
  obtain ⟨src, hsrc, -⟩ := (planned hf hfirst.valid hplan).on.first
  have haccepts := accepts_made hform hn ((hfirst.valid.filled src hsrc).count hsrc) hs
  have haddressable := (addressable_of_into hf hhost hfirst.valid ho.valid h).1
  rcases into_onto hf hs hhost hfirst.valid hfirst' ho (owned_made hform hn hfirst) rfl haccepts
    haddressable () s₂ h with ⟨⟨⟩, s₁, hinto, -⟩ | hrefused
  · exact .inl ⟨f.made form s, s₁, value_eq_ok_iff.mpr ⟨form, _, hform, hn, rfl, hinto⟩⟩
  · right
    obtain ⟨fault, hfault⟩ := hrefused.exists_error
    rw [hfault] at hrefused
    rcases into_asks hf hs (sameOn_acquire hin f.first.device _) hhost hfirst.valid hfirst' rfl
      haccepts hplan hfault hrefused with hmade | ⟨-, earlier, e, he, rfl⟩
    · rw [h] at hmade
      exact hmade.elim
    · rw [Store.owner_acquire_self, Store.block_acquire_self] at he hfault
      refine ⟨earlier, e, he, ?_⟩
      rw [value_result hplan hform hn, hfault]
      rfl

include hf hin in
/-- A result is written into tensors with a block only. -/
theorem block_of_into {s₂ : Store} (h : f.into out s = (.ok (), s₂)) : out.block ≠ none := by
  obtain ⟨i, hplan, -⟩ := into_eq_ok_iff.mp h
  have hblock := (planned hf (hin f.first f.first_mem).valid hplan).on.output
  rw [hblock]
  exact Option.some_ne_none _

end Forms

end Calculation

end DeviceTensor
