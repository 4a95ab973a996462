import DeviceTensor.Proofs.Tensor.Evaluation
import DeviceTensor.Proofs.Tensor.Replacement
set_option autoImplicit false

/-!
# Evaluations on counterparts

Unless one of them is refused memory, an evaluation on counterparts succeeds exactly if the other
does, and its result is a counterpart: `Evaluation.run_agree`.  What a computation asks of the tensor
that it writes, a tensor that is made for the result has.
-/

namespace DeviceTensor

open DeviceTensor.Except

namespace Tensor

variable {t t' out out' : Tensor} {s s' s₁ s₁' : Store}

/-! ## New blocks -/

/-- A new block changes nothing about what tensors store. -/
theorem stored_acquire (h : t.Valid s) (e : ElemType) (d : DeviceId) (n : Nat) :
    t.stored e (s.acquire d n).2 = t.stored e s :=
  stored_congr fun b hb => Store.block_acquire_of_lt (h.filled b hb).lt

theorem Owned.acquire (h : t.Owned s) (d : DeviceId) (n : Nat) : t.Owned (s.acquire d n).2 where
  valid := h.valid.mono (s.extends_acquire d n)
  holds := by
    obtain ⟨hs, hh, hheld⟩ := h.holds
    exact ⟨_, hh.acquire d n, fun b hb => List.mem_cons_of_mem _ (hheld hb)⟩

theorem Counterpart.acquire (h : t.Counterpart s t' s') (ht : t.Valid s) (ht' : t'.Valid s')
    (d d' : DeviceId) (n n' : Nat) :
    t.Counterpart (s.acquire d n).2 t' (s'.acquire d' n').2 where
  shape := h.shape
  dtype := h.dtype
  device := h.device
  elements i j hi hj := by
    unfold element
    rw [stored_acquire ht, stored_acquire ht']
    exact h.elements i j hi hj

/-- New blocks hold the same elements in every storage order. -/
theorem Counterpart.fresh {shape : Shape} {dtype : ElemType} {n : Nat}
    (hn : shape.byteSize dtype = .ok n) {d d' : DeviceId} (hd : (s.device d).Like (s'.device d'))
    (f f' : Bool) :
    (Tensor.mk shape dtype f d (some s.blocks.size)).Counterpart (s.acquire d n).2
      ⟨shape, dtype, f', d', some s'.blocks.size⟩ (s'.acquire d' n).2 := by
  have hstored (f : Bool) (d : DeviceId) (s : Store) :
      (Tensor.mk shape dtype f d (some s.blocks.size)).stored dtype (s.acquire d n).2 =
        Array.replicate shape.prod 0 := by
    rw [stored_of_block rfl, (fills_acquire hn d f s).count rfl, Store.block_acquire_self]
    exact Elem.decode_zeros dtype _ n
  refine ⟨rfl, rfl, hd, fun i j hi hj => ?_⟩
  unfold element
  rw [hstored, hstored, ← size_grid ⟨shape, dtype, f, d, some s.blocks.size⟩]
  refine (Laid.replicate ?_ ?_ _).same i j hi hj
  · unfold grid
    dsimp only
    split <;> rfl
  · unfold grid
    dsimp only
    split <;> rfl

/-! ## New tensors -/

/-- New tensors of a shape have been made from `s` and `s'`, in the storage orders `f` and `f'`.
They are counterparts, and so is what was before. -/
structure Made (s s' : Store) (shape : Shape) (f f' : Bool) (out : Tensor) (s₁ : Store)
    (out' : Tensor) (s₁' : Store) : Prop where
  paired : out.Paired s₁ out' s₁'
  shape : out.shape = shape
  flag : out.transposed = f
  flag' : out'.transposed = f'
  owned : ∀ t : Tensor, t.Owned s → t.Owned s₁
  owned' : ∀ t : Tensor, t.Owned s' → t.Owned s₁'
  same : ∀ t t' : Tensor, t.Paired s t' s' → t.Counterpart s₁ t' s₁'

/-- A new tensor in the order of another agrees with it on both sides. -/
theorem Made.ordered {shape : Shape}
    (h : Made s s' shape t.transposed t'.transposed out s₁ out' s₁') :
    t.transposed = out.transposed ↔ t'.transposed = out'.transposed := by
  rw [h.flag, h.flag']
  exact iff_of_true rfl rfl

theorem Made.flag_eq {shape : Shape} {f : Bool} (h : Made s s' shape f f out s₁ out' s₁') :
    out'.transposed = out.transposed := h.flag'.trans h.flag.symm

theorem made_acquire (hp : s.Peers s') (hs : ∃ hs, s.Holds hs) (hs' : ∃ hs, s'.Holds hs)
    {shape : Shape} {dtype : ElemType} {n : Nat} (hn : shape.byteSize dtype = .ok n)
    {d d' : DeviceId} (hd : (s.device d).Like (s'.device d')) (f f' : Bool)
    (hf : f = true → shape.length = 2) (hf' : f' = true → shape.length = 2) :
    Made s s' shape f f' ⟨shape, dtype, f, d, some s.blocks.size⟩ (s.acquire d n).2
      ⟨shape, dtype, f', d', some s'.blocks.size⟩ (s'.acquire d' n).2 where
  paired := by
    obtain ⟨hs, hh⟩ := hs
    obtain ⟨hs', hh'⟩ := hs'
    refine ⟨⟨(fills_acquire hn d f s).valid rfl hf, _, hh.acquire d n, ?_⟩,
      ⟨(fills_acquire hn d' f' s').valid rfl hf', _, hh'.acquire d' n, ?_⟩, .fresh hn hd f f',
      hp.mono (s.extends_acquire d n) (s'.extends_acquire d' n)⟩
    all_goals
      intro b hb
      obtain rfl := List.mem_singleton.mp hb
      exact List.mem_cons_self
  shape := rfl
  flag := rfl
  flag' := rfl
  owned t h := h.acquire d n
  owned' t h := h.acquire d' n
  same t t' h := h.same.acquire h.owned.valid h.owned'.valid d d' n n

theorem onDevice_follows (h : t.Paired s t' s') (shape : Shape) :
    Action.Follows (Made s s' shape false false) (onDevice shape t.device t.dtype) s
      (onDevice shape t'.device t'.dtype) s' := by
  obtain ⟨hs, hh, -⟩ := h.owned.holds
  obtain ⟨hs', hh', -⟩ := h.owned'.holds
  intro out s₁ hrun
  rw [onDevice_eq] at hrun ⊢
  rw [h.same.dtype]
  cases hn : shape.byteSize t.dtype with
  | error e =>
    rw [hn] at hrun
    cases hrun
  | ok n =>
    rw [hn] at hrun
    cases hrun
    exact .inl ⟨_, _, rfl, made_acquire h.peers ⟨hs, hh⟩ ⟨hs', hh'⟩ hn h.same.device false false
      (fun hf => by cases hf) (fun hf => by cases hf)⟩

theorem blankLike_follows (h : t.Paired s t' s') :
    Action.Follows (Made s s' t.shape t.transposed t'.transposed) t.blankLike s t'.blankLike
      s' := by
  obtain ⟨hs, hh, -⟩ := h.owned.holds
  obtain ⟨hs', hh', -⟩ := h.owned'.holds
  have hshape := h.same.shape
  have hdtype := h.same.dtype
  intro out s₁ hrun
  rw [blankLike_eq] at hrun ⊢
  rw [hshape, hdtype]
  cases hn : t.shape.byteSize t.dtype with
  | error e =>
    rw [hn] at hrun
    cases hrun
  | ok n =>
    rw [hn] at hrun
    cases hrun
    refine .inl ⟨_, _, rfl, ?_⟩
    have hmade := made_acquire h.peers ⟨hs, hh⟩ ⟨hs', hh'⟩ hn h.same.device t.transposed
      t'.transposed h.owned.valid.rank
      fun hf => h.same.rank.symm.trans (h.owned'.valid.rank hf)
    obtain ⟨shape', dtype', f', d', b'⟩ := t'
    obtain rfl := hshape
    obtain rfl := hdtype
    exact hmade

/-- Work on what was made. -/
theorem building_follows {P : Tensor → Store → Tensor → Store → Prop}
    {make make' : Action Fault Tensor} {work work' : Tensor → Action Fault Unit}
    (hm : Action.Follows P make s make' s')
    (hw : ∀ out s₁ out' s₁', P out s₁ out' s₁' →
      Action.Follows (fun _ s₂ _ s₂' => out.Paired s₂ out' s₂') (work out) s₁ (work' out') s₁') :
    Action.Follows Paired (building make work) s (building make' work') s' :=
  hm.bind fun out s₁ out' s₁' h =>
    ((hw out s₁ out' s₁' h).onFailure _ _).bind fun _ _ _ _ hpaired => .pure hpaired

end Tensor

/-! ## Evaluations -/

namespace Evaluation

open Tensor

variable {s s' : Store} {e e' : Evaluation}

/-- The evaluation `e'` is `e` with counterparts for its operands.  Two operands that are combined
element by element are replaced together. -/
inductive Replaces (s s' : Store) : Evaluation → Evaluation → Prop where
  | into {c c' : Computation} {out out' : Tensor} (h : Computation.Replaces s s' c out c' out') :
      Replaces s s' (.into c out) (.into c' out')
  | map (op : Operation) (x : Double) {t t' : Tensor} (ht : t.Counterpart s t' s') :
      Replaces s s' (.map op t x) (.map op t' x)
  | zip (op : Operation) {lhs lhs' rhs rhs' : Tensor} (hl : lhs.Counterpart s lhs' s')
      (hr : rhs.Counterpart s rhs' s')
      (hflag : lhs.transposed = rhs.transposed ↔ lhs'.transposed = rhs'.transposed) :
      Replaces s s' (.zip op lhs rhs) (.zip op lhs' rhs')
  | sums (which : Summation) {t t' : Tensor} (ht : t.Counterpart s t' s') :
      Replaces s s' (.sums which t) (.sums which t')
  | sumAxis (axis : Nat) {t t' : Tensor} (ht : t.Counterpart s t' s') :
      Replaces s s' (.sumAxis t axis) (.sumAxis t' axis)
  | average (axis : Nat) {t t' : Tensor} (ht : t.Counterpart s t' s') :
      Replaces s s' (.average t axis) (.average t' axis)
  | softmax {t t' : Tensor} (ht : t.Counterpart s t' s') :
      Replaces s s' (.softmax t 1) (.softmax t' 1)
  | product {a a' b b' : Tensor} (ha : a.Counterpart s a' s') (hb : b.Counterpart s b' s') :
      Replaces s s' (.product a b) (.product a' b')
  | operateScalar (f : Operator) (x : Double) {t t' : Tensor} (ht : t.Counterpart s t' s') :
      Replaces s s' (.operate f t (.scalar x)) (.operate f t' (.scalar x))
  | operate (f : Operator) {t t' other other' : Tensor} (ht : t.Counterpart s t' s')
      (hother : other.Counterpart s other' s')
      (hflag : t.transposed = other.transposed ↔ t'.transposed = other'.transposed) :
      Replaces s s' (.operate f t (.tensor other)) (.operate f t' (.tensor other'))

theorem Replaces.symm (h : e.Replaces s s' e') : e'.Replaces s' s e := by
  cases h with
  | into h => exact .into h.symm
  | map op x ht => exact .map op x ht.symm
  | zip op hl hr hflag => exact .zip op hl.symm hr.symm hflag.symm
  | sums which ht => exact .sums which ht.symm
  | sumAxis axis ht => exact .sumAxis axis ht.symm
  | average axis ht => exact .average axis ht.symm
  | softmax ht => exact .softmax ht.symm
  | product ha hb => exact .product ha.symm hb.symm
  | operateScalar f x ht => exact .operateScalar f x ht.symm
  | operate f ht hother hflag => exact .operate f ht.symm hother.symm hflag.symm

theorem Replaces.proper (h : e.Replaces s s' e') (he : e.Proper) : e'.Proper := by
  cases h with
  | into h => exact h.proper he
  | _ => exact he

/-- The operands are among the handles of the store. -/
def Owned (e : Evaluation) (s : Store) : Prop := ∀ t ∈ e.operands, t.Owned s

/-- A computation into a new tensor. -/
theorem computed_follows (c c' : Computation) {shape : Shape} {f f' : Bool}
    {make make' : Action Fault Tensor}
    (hm : Action.Follows (Made s s' shape f f') make s make' s') (hc : c.Proper)
    (ho : ∀ t ∈ c.inputs, t.Owned s) (ho' : ∀ t ∈ c'.inputs, t.Owned s')
    (hr : ∀ out s₁ out' s₁', Made s s' shape f f' out s₁ out' s₁' →
      Computation.Replaces s₁ s₁' c out c' out') :
    Action.Follows Paired (building make (c.into ·)) s (building make' (c'.into ·)) s' := by
  refine building_follows hm fun out s₁ out' s₁' h => ?_
  refine Computation.into_follows (hr out s₁ out' s₁' h) hc ?_ ?_ h.paired.peers
  · exact List.forall_mem_cons.mpr ⟨h.paired.owned, fun t ht => h.owned t (ho t ht)⟩
  · exact List.forall_mem_cons.mpr ⟨h.paired.owned', fun t ht => h.owned' t (ho' t ht)⟩

/-- A computation with one input into a new tensor. -/
theorem computed_one (c c' : Computation) {t t' : Tensor} (h : t.Paired s t' s')
    (hin : c.inputs = [t]) (hin' : c'.inputs = [t']) {shape : Shape} {f f' : Bool}
    {make make' : Action Fault Tensor}
    (hm : Action.Follows (Made s s' shape f f') make s make' s') (hc : c.Proper)
    (hr : ∀ out s₁ out' s₁', Made s s' shape f f' out s₁ out' s₁' →
      Computation.Replaces s₁ s₁' c out c' out') :
    Action.Follows Paired (building make (c.into ·)) s (building make' (c'.into ·)) s' := by
  refine computed_follows c c' hm hc ?_ ?_ hr
  · rw [hin]
    exact List.forall_mem_singleton.mpr h.owned
  · rw [hin']
    exact List.forall_mem_singleton.mpr h.owned'

/-- A computation with two inputs into a new tensor. -/
theorem computed_two (c c' : Computation) {a a' b b' : Tensor} (ha : a.Paired s a' s')
    (hb : b.Paired s b' s') (hin : c.inputs = [a, b]) (hin' : c'.inputs = [a', b'])
    {shape : Shape} {f f' : Bool} {make make' : Action Fault Tensor}
    (hm : Action.Follows (Made s s' shape f f') make s make' s') (hc : c.Proper)
    (hr : ∀ out s₁ out' s₁', Made s s' shape f f' out s₁ out' s₁' →
      Computation.Replaces s₁ s₁' c out c' out') :
    Action.Follows Paired (building make (c.into ·)) s (building make' (c'.into ·)) s' := by
  refine computed_follows c c' hm hc ?_ ?_ hr
  · rw [hin]
    exact List.forall_mem_cons.mpr ⟨ha.owned, List.forall_mem_singleton.mpr hb.owned⟩
  · rw [hin']
    exact List.forall_mem_cons.mpr ⟨ha.owned', List.forall_mem_singleton.mpr hb.owned'⟩

theorem map_follows {t t' : Tensor} (h : t.Paired s t' s') {op : Operation}
    (hop : op ∈ Operation.pointwise) (x : Double) :
    Action.Follows Paired (Tensor.map op t x) s (Tensor.map op t' x) s' := by
  refine computed_one (.map op t x) (.map op t' x) h rfl rfl (blankLike_follows h) hop
    fun out s₁ out' s₁' hmade => ?_
  exact .map op x (hmade.same t t' h) hmade.paired.same hmade.shape hmade.ordered

theorem zip_follows {lhs lhs' rhs rhs' : Tensor} (hl : lhs.Paired s lhs' s')
    (hr : rhs.Paired s rhs' s') {op : Operation} (hop : op ∈ Operation.pairwise)
    (hflag : lhs.transposed = rhs.transposed ↔ lhs'.transposed = rhs'.transposed) :
    Action.Follows Paired (Tensor.zip op lhs rhs) s (Tensor.zip op lhs' rhs') s' := by
  refine computed_two (.zip op lhs rhs) (.zip op lhs' rhs') hl hr rfl rfl (blankLike_follows hl) hop
    fun out s₁ out' s₁' hmade => ?_
  exact .zip op (hmade.same lhs lhs' hl) (hmade.same rhs rhs' hr) hmade.paired.same hmade.shape
    hflag hmade.ordered

theorem sums_follows {t t' : Tensor} (h : t.Paired s t' s') (which : Summation) :
    Action.Follows Paired (Tensor.sums which t) s (Tensor.sums which t') s' := by
  refine Action.Follows.bind (R := fun dims s₁ dims' s₁' => (s₁ = s ∧ s₁' = s') ∧ dims' = dims)
    (.ofExcept fun dims hdims => ?_) ?_
  · exact ⟨dims, (asMatrix_congr h.same.shape).trans hdims, ⟨rfl, rfl⟩, rfl⟩
  · rintro ⟨rows, cols⟩ _ _ _ ⟨⟨rfl, rfl⟩, rfl⟩
    refine computed_one (.sums which t) (.sums which t') h rfl rfl
      (onDevice_follows h [which.length rows cols]) trivial fun out s₁ out' s₁' hmade => ?_
    exact .sums which (hmade.same t t' h) hmade.paired.same hmade.flag_eq

theorem sumAxis_follows {t t' : Tensor} (h : t.Paired s t' s') (axis : Nat) :
    Action.Follows Paired (t.sumAxis axis) s (t'.sumAxis axis) s' := by
  refine Action.Follows.bind (R := fun k s₁ k' s₁' => (s₁ = s ∧ s₁' = s') ∧ k'.length = k.length)
    (.ofExcept fun k hk => ?_) ?_
  · obtain ⟨g', hk', -⟩ := collapse_replaced h hk
    exact ⟨_, hk', ⟨rfl, rfl⟩, rfl⟩
  · rintro k _ k' _ ⟨⟨rfl, rfl⟩, hlength⟩
    rw [hlength]
    refine computed_one (.sumAxis t axis) (.sumAxis t' axis) h rfl rfl
      (onDevice_follows h [k.length]) trivial fun out s₁ out' s₁' hmade => ?_
    exact .sumAxis axis (hmade.same t t' h) hmade.paired.same hmade.flag_eq

theorem average_follows {t t' : Tensor} (h : t.Paired s t' s') (axis : Nat) :
    Action.Follows Paired (t.average axis) s (t'.average axis) s' := by
  refine Action.Follows.bind (R := fun k s₁ k' s₁' =>
    (s₁ = s ∧ s₁' = s') ∧ k'.collapsed = k.collapsed) (.ofExcept fun k hk => ?_) ?_
  · obtain ⟨g', hk', -⟩ := collapse_replaced h hk
    exact ⟨_, hk', ⟨rfl, rfl⟩, rfl⟩
  · rintro k _ k' _ ⟨⟨rfl, rfl⟩, hcollapsed⟩
    rw [hcollapsed]
    refine building_follows (sumAxis_follows h axis) fun out s₁ out' s₁' hout => ?_
    rw [Computation.assign_eq, Computation.assign_eq]
    refine Computation.into_follows (.map _ _ hout.same hout.same rfl ?_)
      (Computation.proper_ofAssign .div out (.scalar (Double.ofInt k.collapsed))) ?_ ?_
      hout.peers
    · exact iff_of_true rfl rfl
    · exact List.forall_mem_cons.mpr ⟨hout.owned, List.forall_mem_singleton.mpr hout.owned⟩
    · exact List.forall_mem_cons.mpr ⟨hout.owned', List.forall_mem_singleton.mpr hout.owned'⟩

theorem softmax_follows {t t' : Tensor} (h : t.Paired s t' s') :
    Action.Follows Paired (t.softmax 1) s (t'.softmax 1) s' := by
  refine computed_one (.softmax t 1) (.softmax t' 1) h rfl rfl (blankLike_follows h) trivial
    fun out s₁ out' s₁' hmade => ?_
  exact .softmax (hmade.same t t' h) hmade.paired.same hmade.shape hmade.ordered

theorem product_follows {a a' b b' : Tensor} (ha : a.Paired s a' s') (hb : b.Paired s b' s') :
    Action.Follows Paired (Tensor.product a b) s (Tensor.product a' b') s' := by
  refine Action.Follows.bind (R := fun _ s₁ _ s₁' => s₁ = s ∧ s₁' = s') (.examine fun u hu => ?_) ?_
  · have hsame := checkSameKind_eq_ok_iff.mp hu
    exact ⟨u, checkSameKind_eq_ok_iff.mpr (ha.sameKind hb hsame), rfl, rfl⟩
  · rintro _ s _ s' ⟨rfl, rfl⟩
    refine Action.Follows.bind (R := fun p s₁ p' s₁' => (s₁ = s ∧ s₁' = s') ∧ p'.1 = p.1)
      (.ofExcept fun p hx => ?_) ?_
    · obtain ⟨shape, x⟩ := p
      obtain ⟨rows, cols, inner, hdims, rfl⟩ := productExtents_eq_ok_iff.mp hx
      have hdims' := (productDims_congr ha.same.shape hb.same.shape).trans hdims
      exact ⟨(shape, ⟨rows, cols, inner, a'.transposedMatrix, b'.transposedMatrix⟩),
        productExtents_eq_ok_iff.mpr ⟨rows, cols, inner, hdims', rfl⟩, ⟨rfl, rfl⟩, rfl⟩
    · rintro ⟨shape, x⟩ _ ⟨shape', x'⟩ _ ⟨⟨rfl, rfl⟩, hshape⟩
      obtain rfl := hshape
      refine computed_two (.product Double.one a b Double.zero)
        (.product Double.one a' b' Double.zero) ha hb rfl rfl (onDevice_follows ha shape') trivial
        fun out s₁ out' s₁' hmade => ?_
      exact .product _ _ (hmade.same a a' ha) (hmade.same b b' hb) hmade.paired.same hmade.flag_eq

/-- If an evaluation succeeds, so does the one on counterparts, and its result is a counterpart,
unless it is refused memory. -/
theorem run_follows (h : e.Replaces s s' e') (he : e.Proper) (ho : e.Owned s) (ho' : e'.Owned s')
    (hp : s.Peers s') :
    Action.Follows Paired e.run s e'.run s' := by
  cases h with
  | into h => exact (Computation.into_follows h he ho ho' hp).bind fun _ _ _ _ h => .pure h
  | map op x ht =>
    exact map_follows ⟨ho _ List.mem_cons_self, ho' _ List.mem_cons_self, ht, hp⟩ he x
  | zip op hl hr hflag =>
    exact zip_follows ⟨ho _ List.mem_cons_self, ho' _ List.mem_cons_self, hl, hp⟩
      ⟨ho _ (by simp [operands]), ho' _ (by simp [operands]), hr, hp⟩ he hflag
  | sums which ht =>
    exact sums_follows ⟨ho _ List.mem_cons_self, ho' _ List.mem_cons_self, ht, hp⟩ which
  | sumAxis axis ht =>
    exact sumAxis_follows ⟨ho _ List.mem_cons_self, ho' _ List.mem_cons_self, ht, hp⟩ axis
  | average axis ht =>
    exact average_follows ⟨ho _ List.mem_cons_self, ho' _ List.mem_cons_self, ht, hp⟩ axis
  | softmax ht =>
    exact softmax_follows ⟨ho _ List.mem_cons_self, ho' _ List.mem_cons_self, ht, hp⟩
  | product ha hb =>
    exact product_follows ⟨ho _ List.mem_cons_self, ho' _ List.mem_cons_self, ha, hp⟩
      ⟨ho _ (by simp [operands]), ho' _ (by simp [operands]), hb, hp⟩
  | @operateScalar f x t t' ht =>
    exact map_follows ⟨ho _ List.mem_cons_self, ho' _ List.mem_cons_self, ht, hp⟩
      (Computation.proper_ofAssign f t (.scalar x)) x
  | @operate f t t' other other' ht hother hflag =>
    exact zip_follows ⟨ho _ List.mem_cons_self, ho' _ List.mem_cons_self, ht, hp⟩
      ⟨ho _ (by simp [operands, Computation.ofAssign, Computation.inputs]),
        ho' _ (by simp [operands, Computation.ofAssign, Computation.inputs]), hother, hp⟩
      (Computation.proper_ofAssign f t (.tensor other)) hflag

/-- The runs of two evaluations both fail, or both succeed with counterparts for results, unless a
device refuses memory to one of them. -/
def Agree (e : Evaluation) (s : Store) (e' : Evaluation) (s' : Store) : Prop :=
  ¬Refused (e.run s).1 → ¬Refused (e'.run s').1 →
    Relates (fun _ _ => True) (fun out out' => out.Counterpart (e.run s).2 out' (e'.run s').2)
      (e.run s).1 (e'.run s').1

theorem run_agree (h : e.Replaces s s' e') (he : e.Proper) (ho : e.Owned s) (ho' : e'.Owned s')
    (hp : s.Peers s') : e.Agree s e' s' := by
  intro hn hn'
  refine Except.Follows.relates (fun out hout => ?_) (fun out' hout' => ?_)
  · obtain ⟨out', s₁', hrun', hpaired⟩ :=
      (run_follows h he ho ho' hp out _ (Prod.ext hout rfl)).resolve_right hn'
    rw [hrun']
    exact ⟨out', rfl, hpaired.same⟩
  · obtain ⟨out, s₁, hrun, hpaired⟩ :=
      (run_follows h.symm (h.proper he) ho' ho hp.symm out' _ (Prod.ext hout' rfl)).resolve_right hn
    rw [hrun]
    exact ⟨out, rfl, hpaired.same.symm⟩

end Evaluation

end DeviceTensor
