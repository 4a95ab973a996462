import DeviceTensor.Proofs.Tensor.Counterpart
import DeviceTensor.Proofs.Tensor.WellFormed
set_option autoImplicit false

/-!
# Computations on counterparts

`Computation.Replaces` says which operands of a computation may be replaced by counterparts, and
which of them together.  The computation on the counterparts passes the checks that the other
passes, sees matrices that are laid alike, and leaves a counterpart in its output.
-/

namespace DeviceTensor

open DeviceTensor.Except

/-- A block has as many bytes as its size says. -/
theorem Store.Holds.size_contents {s : Store} {hs : List BlockId} (h : s.Holds hs) (b : BlockId) :
    (s.block b).contents.size = (s.block b).size := by
  unfold Block.contents
  cases hm : (s.block b).memory with
  | unbound => exact Array.size_replicate
  | bound bytes => exact h.bound b bytes hm
  | released => exact Array.size_replicate

namespace Tensor

/-- Counterparts that the stores hold, with the same routines to run on them. -/
structure Paired (t : Tensor) (s : Store) (t' : Tensor) (s' : Store) : Prop where
  owned : t.Owned s
  owned' : t'.Owned s'
  same : t.Counterpart s t' s'
  peers : s.Peers s'

variable {t t' a a' out out' : Tensor} {s s' s₁ s₁' : Store} {b b' : BlockId} {d : ElemType}
  {n index : Nat} {inv inv' : Invocation} {g g' : Grid}

theorem byteSize_of_block (hb : t.block = some b) : t.byteSize s = (s.block b).size := by
  unfold byteSize
  rw [hb]

/-- A tensor on a device that supplies as much memory as it needs. -/
theorem supplies_of_device (hv : t.Valid s) (hb : t.block = some b)
    (h : (s.device t.device).Supplies (t.byteSize s)) : s.Supplies b := by
  intro _
  unfold Store.owner
  rw [(hv.filled b hb).place, ← byteSize_of_block hb]
  exact h

theorem Owned.lt (h : t.Owned s) (hb : t.block = some b) : b < s.blocks.size :=
  (h.valid.filled b hb).lt

theorem Owned.live (h : t.Owned s) (hb : t.block = some b) :
    (s.block b).memory ≠ .released := by
  obtain ⟨hs, hh, hheld⟩ := h.holds
  intro hm
  exact hh.released b hm (hheld (by simp [held, hb]))

theorem Owned.keeps (h : t.Owned s) (hs : s.Keeps s₁) : t.Owned s₁ where
  valid := h.valid.mono hs.extend
  holds := by
    obtain ⟨held, hh, hheld⟩ := h.holds
    exact ⟨held, hs.holds held hh, hheld⟩

namespace Paired

theorem block (h : t.Paired s t' s') (hb : t.block = some b) : ∃ b', t'.block = some b' :=
  h.same.block h.owned.valid h.owned'.valid hb

theorem count (h : t.Paired s t' s') (hb : t.block = some b) : t'.count s' = t.count s :=
  h.same.count h.owned.valid h.owned'.valid hb

theorem sameKind (ha : a.Paired s a' s') (ht : t.Paired s t' s') (h : SameKind a t s) :
    SameKind a' t' s' := by
  constructor
  · rw [ha.same.dtype, ht.same.dtype, h.1]
  · rw [ha.same.backend, ht.same.backend, h.2]

theorem inputLaid (h : t.Paired s t' s') (hb : t.block = some b) (hb' : t'.block = some b')
    (hin : inv.inputs[index]? = some b) (hin' : inv'.inputs[index]? = some b')
    (hd : t.dtype = d) (hn : n = t.shape.prod) (hr : Reading t t' g g') :
    Invocation.InputLaid d index n g inv s g' inv' s' := by
  unfold Invocation.InputLaid Invocation.inputSeen
  rw [hin, hin']
  exact (seen_follows h.same h.owned h.owned' hb hb' hd hn hr).mapError _ _

theorem outputLaid (h : t.Paired s t' s') (hb : t.block = some inv.output)
    (hb' : t'.block = some inv'.output) (hd : t.dtype = d) (hn : n = t.shape.prod)
    (hr : Reading t t' g g') : Invocation.OutputLaid d n g inv s g' inv' s' :=
  (seen_follows h.same h.owned h.owned' hb hb' hd hn hr).mapError _ _

end Paired

/-- What lies over the bytes of a tensor is what it stores. -/
theorem stored_of_contents (ho : t.Owned s) (hs : s.Keeps s₁) (hb : t.block = some b)
    (hd : t.dtype = d) {xs : Array (Elem d)} (hsize : xs.size = t.grid.size)
    (h : (s₁.block b).contents = Elem.overlay xs (s.block b).contents) :
    t.stored d s₁ = xs := by
  subst hd
  obtain ⟨hs', hh, -⟩ := ho.holds
  have hf := ho.valid.filled b hb
  rw [stored_of_block hb, (hf.mono hs.extend).count hb, h, ← size_grid, ← hsize]
  refine Elem.decode_overlay (Nat.le_of_eq ?_)
  rw [hh.size_contents, hf.size, hsize, size_grid]

/-- The launch `i'` on `out'` is the launch `i` on `out` but for the storage orders of matrices: it
sees matrices that are laid alike, and leaves such. -/
structure Answers (out : Tensor) (s : Store) (i : Issue) (out' : Tensor) (s' : Store)
    (i' : Issue) : Prop where
  same : i' = { i with inv := i'.inv }
  dtype : out.dtype = i.dtype
  output : out.block = some i.inv.output
  output' : out'.block = some i'.inv.output
  device : i.inv.device = out.device
  device' : i'.inv.device = out'.device
  recipe : ∃ g g', Reading out out' g g' ∧ ∀ recipe : Recipe i.dtype, recipe.Does i.op →
    recipe.LeavesLaid g i.inv s g' i'.inv s'

/-- A launch that is answered leaves a counterpart in its output, unless it is refused memory. -/
theorem Answers.launch {i i' : Issue} (ha : Answers out s i out' s' i')
    (h : out.Paired s out' s') :
    Action.Follows (fun _ s₁ _ s₁' => out.Paired s₁ out' s₁') i.launch s i'.launch s' := by
  rintro ⟨⟩ s₁ hrun
  obtain ⟨_, _, inv⟩ := i
  obtain ⟨op, dtype, inv'⟩ := i'
  obtain ⟨rfl, rfl, -⟩ := Issue.mk.inj ha.same
  obtain rfl := ha.dtype
  obtain ⟨g, g', hread, hrecipe⟩ := ha.recipe
  have hbackend : s'.backend inv'.device = s.backend inv.device := by
    rw [show inv'.device = out'.device from ha.device', show inv.device = out.device from ha.device]
    exact h.same.backend
  have hseen := launchSeen_follows h.peers.onHost h.peers.registry hbackend hrecipe
  rcases launch_follows hseen (h.owned.lt ha.output) (h.owned.live ha.output)
    (h.owned'.lt ha.output') (h.owned'.live ha.output') hrun with
    ⟨s₁', r, r', hrun', hlaid, hcontents, hcontents'⟩ | hrefused
  case inr => exact .inr hrefused
  have hmatrices := hread.matrices h.same hlaid
  have hkeeps : s.Keeps s₁ := by
    have hwithin := launch_keeps op out.dtype inv s
    rwa [show DeviceTensor.launch op out.dtype inv s = _ from hrun] at hwithin
  have hkeeps' : s'.Keeps s₁' := by
    have hwithin := launch_keeps op out.dtype inv' s'
    rwa [hrun'] at hwithin
  refine .inl ⟨(), s₁', hrun', h.owned.keeps hkeeps, h.owned'.keeps hkeeps', ?_,
    h.peers.mono hkeeps.extend hkeeps'.extend⟩
  refine ⟨h.same.shape, h.same.dtype, h.same.device.mono hkeeps.extend hkeeps'.extend,
    fun i j hi hj => ?_⟩
  unfold element
  rw [stored_of_contents h.owned hkeeps ha.output rfl hmatrices.size hcontents,
    stored_of_contents h.owned' hkeeps' ha.output' h.same.dtype hmatrices.symm.size hcontents']
  exact hmatrices.same i j hi hj

/-! ## Plans -/

section Plans

variable {lhs lhs' rhs rhs' v v' m m' c c' : Tensor} {op : Operation}

/-- The grids of tensors of one shape in one storage order. -/
theorem grid_congr (hshape : t.shape = out.shape) (hflag : t.transposed = out.transposed) :
    t.grid = out.grid := by
  unfold grid
  rw [hshape, hflag]

/-- A launch with one input is answered if its recipes are. -/
theorem answers_one (op : Operation) {make : BlockId → BlockId → Invocation}
    (make' : BlockId → BlockId → Invocation) (ht : t.Paired s t' s') (ho : out.Paired s out' s')
    (h : PlansOne t out make inv) (hd : out.dtype = d)
    (hmake : ∀ dst src, (make dst src).output = dst ∧ (make dst src).device = out.device)
    (hmake' : ∀ dst src, (make' dst src).output = dst ∧ (make' dst src).device = out'.device)
    (hrecipe : ∀ dst src dst' src', out.block = some dst → t.block = some src →
      out'.block = some dst' → t'.block = some src' → ∃ g g', Reading out out' g g' ∧
      ∀ recipe : Recipe d, recipe.Does op →
        recipe.LeavesLaid g (make dst src) s g' (make' dst' src') s') :
    ∃ inv', PlansOne t' out' make' inv' ∧ Answers out s ⟨op, d, inv⟩ out' s' ⟨op, d, inv'⟩ := by
  obtain ⟨dst, hdst, src, hsrc, rfl⟩ := h
  obtain ⟨dst', hdst'⟩ := ho.block hdst
  obtain ⟨src', hsrc'⟩ := ht.block hsrc
  obtain ⟨hout, hdevice⟩ := hmake dst src
  obtain ⟨hout', hdevice'⟩ := hmake' dst' src'
  refine ⟨make' dst' src', ⟨dst', hdst', src', hsrc', rfl⟩, rfl, hd, ?_, ?_, hdevice, hdevice', ?_⟩
  · rw [hdst, hout]
  · rw [hdst', hout']
  · exact hrecipe dst src dst' src' hdst hsrc hdst' hsrc'

/-- A launch with two inputs is answered if its recipes are. -/
theorem answers_two (op : Operation) {make : BlockId → BlockId → BlockId → Invocation}
    (make' : BlockId → BlockId → BlockId → Invocation)
    (hl : lhs.Paired s lhs' s') (hr : rhs.Paired s rhs' s') (ho : out.Paired s out' s')
    (h : PlansTwo lhs rhs out make inv) (hd : out.dtype = d)
    (hmake : ∀ dst left right, (make dst left right).output = dst ∧
      (make dst left right).device = out.device)
    (hmake' : ∀ dst left right, (make' dst left right).output = dst ∧
      (make' dst left right).device = out'.device)
    (hrecipe : ∀ dst left right dst' left' right', out.block = some dst → lhs.block = some left →
      rhs.block = some right → out'.block = some dst' → lhs'.block = some left' →
      rhs'.block = some right' → ∃ g g', Reading out out' g g' ∧
      ∀ recipe : Recipe d, recipe.Does op →
        recipe.LeavesLaid g (make dst left right) s g' (make' dst' left' right') s') :
    ∃ inv', PlansTwo lhs' rhs' out' make' inv' ∧
      Answers out s ⟨op, d, inv⟩ out' s' ⟨op, d, inv'⟩ := by
  obtain ⟨dst, hdst, left, hleft, right, hright, rfl⟩ := h
  obtain ⟨dst', hdst'⟩ := ho.block hdst
  obtain ⟨left', hleft'⟩ := hl.block hleft
  obtain ⟨right', hright'⟩ := hr.block hright
  obtain ⟨hout, hdevice⟩ := hmake dst left right
  obtain ⟨hout', hdevice'⟩ := hmake' dst' left' right'
  refine ⟨make' dst' left' right', ⟨dst', hdst', left', hleft', right', hright', rfl⟩, rfl, hd, ?_,
    ?_, hdevice, hdevice', ?_⟩
  · rw [hdst, hout]
  · rw [hdst', hout']
  · exact hrecipe dst left right dst' left' right' hdst hleft hright hdst' hleft' hright'

/-- An output that has as many elements as an input stays so. -/
theorem OutputOf.replaced (ht : t.Paired s t' s') (ho : out.Paired s out' s')
    (hdst : ∃ dst, out.block = some dst) (h : OutputOf t out n s) : OutputOf t' out' n s' := by
  obtain ⟨dst, hdst⟩ := hdst
  exact ⟨ht.sameKind ho h.1, (ho.count hdst).trans h.2⟩

theorem planMap_replaced {x : Double} (hop : op ∈ Operation.pointwise) (ht : t.Paired s t' s')
    (ho : out.Paired s out' s') (hshape : out.shape = t.shape)
    (hflag : t.transposed = out.transposed ↔ t'.transposed = out'.transposed)
    (h : planMap t x out s = .ok inv) :
    ∃ inv', planMap t' x out' s' = .ok inv' ∧
      Answers out s ⟨op, t.dtype, inv⟩ out' s' ⟨op, t.dtype, inv'⟩ := by
  obtain ⟨⟨hof, hform⟩, hp⟩ := planMap_eq_ok_iff.mp h
  have hform' := hflag.mp hform
  have ⟨dst, hdst, src, hsrc, _⟩ := hp
  have hcount := ht.count hsrc
  have hsize : t.count s = t.shape.prod := (ht.owned.valid.filled src hsrc).count hsrc
  have hgrid : t.grid = out.grid := grid_congr hshape.symm hform
  have hgrid' : t'.grid = out'.grid :=
    grid_congr (by rw [ht.same.shape, ho.same.shape, hshape]) hform'
  have hof' := hof.replaced ht ho ⟨dst, hdst⟩
  rw [← hcount] at hof'
  obtain ⟨inv', hp', ha⟩ := answers_one op (fun dst src =>
      { device := out'.device, inputs := [src], output := dst, count := t'.count s', alpha := x })
    ht ho hp hof.1.1.symm (fun _ _ => ⟨rfl, rfl⟩) (fun _ _ => ⟨rfl, rfl⟩) <| by
    intro dst src dst' src' hdst hsrc hdst' hsrc'
    refine ⟨out.grid, out'.grid, .matrix, fun recipe hdoes => ?_⟩
    refine hdoes.pointwise_laid hop ⟨hcount, rfl, rfl, rfl, rfl, rfl⟩ ?_ ?_
    · rw [← hgrid, ← hgrid']
      exact ht.inputLaid hsrc hsrc' rfl rfl rfl hsize .matrix
    · exact ho.outputLaid hdst hdst' hof.1.1.symm (hsize.trans (by rw [hshape])) .matrix
  exact ⟨inv', planMap_eq_ok_iff.mpr ⟨⟨hof', hform'⟩, hp'⟩, ha⟩

theorem planZip_replaced (hop : op ∈ Operation.pairwise) (hl : lhs.Paired s lhs' s')
    (hr : rhs.Paired s rhs' s') (ho : out.Paired s out' s') (hshape : out.shape = lhs.shape)
    (hflag : lhs.transposed = rhs.transposed ↔ lhs'.transposed = rhs'.transposed)
    (hflag' : lhs.transposed = out.transposed ↔ lhs'.transposed = out'.transposed)
    (h : planZip lhs rhs out s = .ok inv) :
    ∃ inv', planZip lhs' rhs' out' s' = .ok inv' ∧
      Answers out s ⟨op, lhs.dtype, inv⟩ out' s' ⟨op, lhs.dtype, inv'⟩ := by
  obtain ⟨hsame, ⟨hshapes, hflags⟩, ⟨hof, hform⟩, hp⟩ := planZip_eq_ok_iff.mp h
  have hshapes' : lhs'.shape = rhs'.shape := by rw [hl.same.shape, hr.same.shape, hshapes]
  have hflags' := hflag.mp hflags
  have hform' := hflag'.mp hform
  have ⟨dst, hdst, left, hleft, right, hright, _⟩ := hp
  have hcount := hl.count hleft
  have hsize : lhs.count s = lhs.shape.prod := (hl.owned.valid.filled left hleft).count hleft
  have hgrid : lhs.grid = out.grid := grid_congr hshape.symm hform
  have hgrid' : lhs'.grid = out'.grid :=
    grid_congr (by rw [hl.same.shape, ho.same.shape, hshape]) hform'
  have hof' := hof.replaced hl ho ⟨dst, hdst⟩
  rw [← hcount] at hof'
  obtain ⟨inv', hp', ha⟩ := answers_two op (fun dst left right =>
      { device := out'.device, inputs := [left, right], output := dst, count := lhs'.count s' })
    hl hr ho hp hof.1.1.symm (fun _ _ _ => ⟨rfl, rfl⟩) (fun _ _ _ => ⟨rfl, rfl⟩) <| by
    intro dst left right dst' left' right' hdst hleft hright hdst' hleft' hright'
    refine ⟨out.grid, out'.grid, .matrix, fun recipe hdoes => ?_⟩
    refine hdoes.pairwise_laid hop ⟨hcount, rfl, rfl, rfl, rfl, rfl⟩ ?_ ?_ ?_
    · rw [← hgrid, ← hgrid']
      exact hl.inputLaid hleft hleft' rfl rfl rfl hsize .matrix
    · rw [← hgrid, ← hgrid', grid_congr hshapes hflags, grid_congr hshapes' hflags']
      exact hr.inputLaid hright hright' rfl rfl hsame.1.symm (hsize.trans (by rw [hshapes])) .matrix
    · exact ho.outputLaid hdst hdst' hof.1.1.symm (hsize.trans (by rw [hshape])) .matrix
  refine ⟨inv', planZip_eq_ok_iff.mpr ?_, ha⟩
  exact ⟨hl.sameKind hr hsame, ⟨hshapes', hflags'⟩, ⟨hof', hform'⟩, hp'⟩

theorem planAddScaled_replaced {alpha : Double} (ht : t.Paired s t' s')
    (ho : out.Paired s out' s')
    (hflag : t.transposed = out.transposed ↔ t'.transposed = out'.transposed)
    (h : planAddScaled alpha t out s = .ok inv) :
    ∃ inv', planAddScaled alpha t' out' s' = .ok inv' ∧
      Answers out s ⟨.axpy, t.dtype, inv⟩ out' s' ⟨.axpy, t.dtype, inv'⟩ := by
  obtain ⟨hkind, ⟨hshape, hform⟩, hp⟩ := planAddScaled_eq_ok_iff.mp h
  have hshape' : t'.shape = out'.shape := by rw [ht.same.shape, ho.same.shape, hshape]
  have hform' := hflag.mp hform
  have ⟨dst, hdst, src, hsrc, _⟩ := hp
  have hcount := ht.count hsrc
  have hsize : t.count s = t.shape.prod := (ht.owned.valid.filled src hsrc).count hsrc
  obtain ⟨inv', hp', ha⟩ := answers_one .axpy (fun dst src =>
      { device := out'.device, inputs := [src], output := dst, count := t'.count s',
        alpha := alpha })
    ht ho hp hkind.1.symm (fun _ _ => ⟨rfl, rfl⟩) (fun _ _ => ⟨rfl, rfl⟩) <| by
    intro dst src dst' src' hdst hsrc hdst' hsrc'
    refine ⟨out.grid, out'.grid, .matrix, fun recipe hdoes => ?_⟩
    refine hdoes.axpy_laid ⟨hcount, rfl, rfl, rfl, rfl, rfl⟩ ?_ ?_
    · rw [← grid_congr hshape hform, ← grid_congr hshape' hform']
      exact ht.inputLaid hsrc hsrc' rfl rfl rfl hsize .matrix
    · exact ho.outputLaid hdst hdst' hkind.1.symm (hsize.trans (by rw [hshape])) .matrix
  exact ⟨inv', planAddScaled_eq_ok_iff.mpr ⟨ht.sameKind ho hkind, ⟨hshape', hform'⟩, hp'⟩, ha⟩

theorem shape_of_asMatrix {dims : Nat × Nat} (h : t.asMatrix = .ok dims) (hrank : t.rank = 2) :
    t.shape = [dims.1, dims.2] := by
  obtain ⟨rows, cols, hshape⟩ := matrix_of_rank hrank
  unfold asMatrix at h
  rw [hshape] at h ⊢
  cases h
  rfl

theorem planBroadcast_replaced {alpha beta : Double} (hop : op ∈ Operation.broadcasting)
    (hv : v.Paired s v' s') (hm : m.Paired s m' s') (hflag : v'.transposed = v.transposed)
    (h : planBroadcast op alpha beta v m s = .ok inv) :
    ∃ inv', planBroadcast op alpha beta v' m' s' = .ok inv' ∧
      Answers m s ⟨op, m.dtype, inv⟩ m' s' ⟨op, m.dtype, inv'⟩ := by
  obtain ⟨hkind, dims, hdims, hcount, hp⟩ := planBroadcast_eq_ok_iff.mp h
  have ⟨dst, hdst, src, hsrc, _⟩ := hp
  have hsize := size_of_asMatrix hdims
  have hdims' : m'.asMatrix = .ok dims := (asMatrix_congr hm.same.shape).trans hdims
  have hread : Reading m m' ⟨dims.1, dims.2, m.transposed⟩ ⟨dims.1, dims.2, m'.transposed⟩ :=
    .of_dims hm.same hm.owned.valid hm.owned'.valid hsize (shape_of_asMatrix hdims)
  obtain ⟨inv', hp', ha⟩ := answers_one op (fun dst src =>
      { device := m'.device, inputs := [src], output := dst, count := m'.count s', alpha := alpha,
        beta := beta, extents := .ofGrid ⟨dims.1, dims.2, m'.transposed⟩ })
    hv hm hp rfl (fun _ _ => ⟨rfl, rfl⟩) (fun _ _ => ⟨rfl, rfl⟩) <| by
    intro dst src dst' src' hdst hsrc hdst' hsrc'
    refine ⟨_, _, hread, fun recipe hdoes => ?_⟩
    refine hdoes.broadcasting_laid (k := v.grid) hop ⟨hm.count hdst, rfl, rfl, rfl, rfl, rfl⟩ rfl
      rfl ?_ ?_
    · refine hv.inputLaid hsrc hsrc' rfl rfl hkind.1 ?_ (.storage _ (size_grid v) hflag)
      exact hcount.symm.trans ((hv.owned.valid.filled src hsrc).count hsrc)
    · exact hm.outputLaid hdst hdst' rfl hsize hread
  refine ⟨inv', planBroadcast_eq_ok_iff.mpr ?_, ha⟩
  exact ⟨hv.sameKind hm hkind, dims, hdims', (hv.count hsrc).trans hcount, hp'⟩

theorem planSums_replaced {which : Summation} {length : Nat} (ht : t.Paired s t' s')
    (ho : out.Paired s out' s') (hflag : out'.transposed = out.transposed)
    (hread : Reading t t' g g') (hsize : g.size = t.shape.prod) (hrows : g'.rows = g.rows)
    (hcols : g'.cols = g.cols) (hlength : length = which.length g.rows g.cols)
    (h : planSums t out length g s = .ok inv) :
    ∃ inv', planSums t' out' length g' s' = .ok inv' ∧
      Answers out s ⟨which.op, t.dtype, inv⟩ out' s' ⟨which.op, t.dtype, inv'⟩ := by
  obtain ⟨hof, hp⟩ := planSums_eq_ok_iff.mp h
  have ⟨dst, hdst, src, hsrc, _⟩ := hp
  have hcount : which.length g.rows g.cols = out.shape.prod := by
    rw [← hlength, ← hof.2, (ho.owned.valid.filled dst hdst).count hdst]
  have hout : Reading out out' out.grid out.grid := .storage _ (size_grid out) hflag
  obtain ⟨inv', hp', ha⟩ := answers_one which.op (fun dst src =>
      { device := out'.device, inputs := [src], output := dst, count := t'.count s',
        extents := .ofGrid g' })
    ht ho hp hof.1.1.symm (fun _ _ => ⟨rfl, rfl⟩) (fun _ _ => ⟨rfl, rfl⟩) <| by
    intro dst src dst' src' hdst hsrc hdst' hsrc'
    refine ⟨_, _, hout, fun recipe hdoes => ?_⟩
    refine hdoes.sums_laid ⟨ht.count hsrc, rfl, rfl, hrows, hcols, rfl⟩ rfl rfl ?_ ?_
    · exact ht.inputLaid hsrc hsrc' rfl rfl rfl hsize hread
    · exact ho.outputLaid hdst hdst' hof.1.1.symm hcount hout
  exact ⟨inv', planSums_eq_ok_iff.mpr ⟨hof.replaced ht ho ⟨dst, hdst⟩, hp'⟩, ha⟩

theorem planSoftmax_replaced (ht : t.Paired s t' s') (ho : out.Paired s out' s')
    (hshape : out.shape = t.shape)
    (hflag : t.transposed = out.transposed ↔ t'.transposed = out'.transposed)
    (h : planSoftmax t 1 out s = .ok inv) :
    ∃ inv', planSoftmax t' 1 out' s' = .ok inv' ∧
      Answers out s ⟨.softMax, t.dtype, inv⟩ out' s' ⟨.softMax, t.dtype, inv'⟩ := by
  obtain ⟨hrank, ⟨hof, hform⟩, rows, hrows, cols, hcols, hp⟩ := planSoftmax_eq_ok_iff.mp h
  have hform' := hflag.mp hform
  have ⟨dst, hdst, src, hsrc, _⟩ := hp
  have hcount := ht.count hsrc
  have hsize : rows * cols = t.shape.prod := by
    rw [Size.eq_prod_of_product hrows, Size.eq_prod_of_product hcols, ← List.prod_append_nat,
      List.take_append_drop]
  have hdims (hrank : t.rank = 2) : t.shape = [rows, cols] := by
    obtain ⟨m, n, hshape⟩ := matrix_of_rank hrank
    rw [hshape] at hrows hcols ⊢
    rw [Size.eq_prod_of_product hrows, Size.eq_prod_of_product hcols]
    simp
  have hread : Reading t t' ⟨rows, cols, t.transposed⟩ ⟨rows, cols, t'.transposed⟩ :=
    .of_dims ht.same ht.owned.valid ht.owned'.valid hsize hdims
  have hread' : Reading out out' ⟨rows, cols, t.transposed⟩ ⟨rows, cols, t'.transposed⟩ := by
    rw [hform, hform']
    refine .of_dims ho.same ho.owned.valid ho.owned'.valid (hsize.trans (by rw [hshape])) ?_
    intro hrank
    rw [hshape]
    refine hdims ?_
    rwa [rank, ← hshape]
  have hof' := hof.replaced ht ho ⟨dst, hdst⟩
  rw [← hcount] at hof'
  obtain ⟨inv', hp', ha⟩ := answers_one .softMax (fun dst src =>
      { device := out'.device, inputs := [src], output := dst, count := t'.count s',
        extents := .ofGrid ⟨rows, cols, t'.transposed⟩ })
    ht ho hp hof.1.1.symm (fun _ _ => ⟨rfl, rfl⟩) (fun _ _ => ⟨rfl, rfl⟩) <| by
    intro dst src dst' src' hdst hsrc hdst' hsrc'
    refine ⟨_, _, hread', fun recipe hdoes => ?_⟩
    refine hdoes.softMax_laid ⟨hcount, rfl, rfl, rfl, rfl, rfl⟩ rfl rfl ?_ ?_
    · exact ht.inputLaid hsrc hsrc' rfl rfl rfl hsize hread
    · exact ho.outputLaid hdst hdst' hof.1.1.symm (hsize.trans (by rw [hshape])) hread'
  refine ⟨inv', planSoftmax_eq_ok_iff.mpr ?_, ha⟩
  rw [ht.same.rank, ht.same.shape]
  exact ⟨hrank, ⟨hof', hform'⟩, rows, hrows, cols, hcols, hp'⟩

theorem transposedMatrix_eq (ht : t.Valid s) : t.transposedMatrix = t.transposed := by
  unfold transposedMatrix
  cases hflag : t.transposed with
  | false => rw [Bool.and_false]
  | true => simp [ht.rank hflag]

/-- The operands of a product are read as its extents say. -/
theorem readings_of_productDims {shape : Shape} {rows cols inner : Nat} (ha : a.Paired s a' s')
    (hc : c.Paired s c' s') (h : productDims a c = .ok (shape, rows, cols, inner, inner)) :
    Reading a a' ⟨rows, inner, a.transposedMatrix⟩ ⟨rows, inner, a'.transposedMatrix⟩ ∧
      Reading c c' ⟨inner, cols, c.transposedMatrix⟩ ⟨inner, cols, c'.transposedMatrix⟩ := by
  rw [transposedMatrix_eq ha.owned.valid, transposedMatrix_eq ha.owned'.valid,
    transposedMatrix_eq hc.owned.valid, transposedMatrix_eq hc.owned'.valid]
  obtain ⟨hleft, hright, -⟩ := size_of_productDims h
  refine ⟨.of_dims ha.same ha.owned.valid ha.owned'.valid hleft fun hrank => ?_,
    .of_dims hc.same hc.owned.valid hc.owned'.valid hright fun hrank => ?_⟩
  · obtain ⟨m, k, hshape⟩ := matrix_of_rank hrank
    unfold productDims at h
    rw [hshape] at h ⊢
    split at h
    all_goals simp_all
  · obtain ⟨k, n, hshape⟩ := matrix_of_rank hrank
    unfold productDims at h
    rw [hshape] at h ⊢
    split at h
    all_goals simp_all

theorem productDims_congr {left left' right right' : Tensor} (hl : left'.shape = left.shape)
    (hr : right'.shape = right.shape) : productDims left' right' = productDims left right := by
  unfold productDims
  rw [hl, hr]

theorem planProduct_replaced {alpha beta : Double} (hl : lhs.Paired s lhs' s')
    (hr : rhs.Paired s rhs' s') (ho : out.Paired s out' s')
    (hflag : out'.transposed = out.transposed)
    (h : planProduct alpha lhs rhs beta out s = .ok inv) :
    ∃ inv', planProduct alpha lhs' rhs' beta out' s' = .ok inv' ∧
      Answers out s ⟨.gemm, lhs.dtype, inv⟩ out' s' ⟨.gemm, lhs.dtype, inv'⟩ := by
  obtain ⟨hsame, ⟨shape, x⟩, hx, count, hmul, hof, hform, hp⟩ := planProduct_eq_ok_iff.mp h
  obtain ⟨rows, cols, inner, hdims, rfl⟩ := productExtents_eq_ok_iff.mp hx
  have ⟨dst, hdst, left, hleft, right, hright, _⟩ := hp
  have hdims' := (productDims_congr hl.same.shape hr.same.shape).trans hdims
  have hx' : productExtents lhs' rhs' = .ok (shape, ⟨rows, cols, inner, lhs'.transposedMatrix,
      rhs'.transposedMatrix⟩) := productExtents_eq_ok_iff.mpr ⟨rows, cols, inner, hdims', rfl⟩
  obtain ⟨hreadl, hreadr⟩ := readings_of_productDims hl hr hdims
  obtain ⟨hsizel, hsizer, -⟩ := size_of_productDims hdims
  have hout : Reading out out' out.grid out.grid := .storage _ (size_grid out) hflag
  have hcount : rows * cols = out.shape.prod := by
    rw [← (ho.owned.valid.filled dst hdst).count hdst, hof.2, (Size.mul_eq_ok_iff.mp hmul).2]
  obtain ⟨inv', hp', ha⟩ := answers_two .gemm (fun dst left right =>
      { device := out'.device, inputs := [left, right], output := dst, count := out'.count s',
        alpha := alpha, beta := beta,
        extents := ⟨rows, cols, inner, lhs'.transposedMatrix, rhs'.transposedMatrix⟩ })
    hl hr ho hp hof.1.1.symm (fun _ _ _ => ⟨rfl, rfl⟩) (fun _ _ _ => ⟨rfl, rfl⟩) <| by
    intro dst left right dst' left' right' hdst hleft hright hdst' hleft' hright'
    refine ⟨_, _, hout, fun recipe hdoes => ?_⟩
    refine hdoes.gemm_laid hl.peers.library ⟨ho.count hdst, rfl, rfl, rfl, rfl, rfl⟩ ?_ ?_ ?_
    · exact hl.inputLaid hleft hleft' rfl rfl rfl hsizel hreadl
    · exact hr.inputLaid hright hright' rfl rfl hsame.1.symm hsizer hreadr
    · exact ho.outputLaid hdst hdst' hof.1.1.symm hcount hout
  refine ⟨inv', planProduct_eq_ok_iff.mpr ?_, ha⟩
  exact ⟨hl.sameKind hr hsame, _, hx', count, hmul, hof.replaced hl ho ⟨dst, hdst⟩,
    hflag.trans hform, hp'⟩

/-- What a sum along an axis collapses is read from counterparts alike. -/
theorem collapse_replaced {axis : Nat} {k : Collapse} (ht : t.Paired s t' s')
    (h : t.collapse axis = .ok k) :
    ∃ g', t'.collapse axis = .ok { k with grid := g' } ∧ Reading t t' k.grid g' ∧
      g'.rows = k.grid.rows ∧ g'.cols = k.grid.cols := by
  have hread {rows cols : Nat} (hshape : t.shape = [rows, cols]) :
      Reading t t' ⟨rows, cols, t.transposed⟩ ⟨rows, cols, t'.transposed⟩ :=
    .of_dims ht.same ht.owned.valid ht.owned'.valid (by simp [hshape]) fun _ => hshape
  unfold collapse at h ⊢
  rw [ht.same.shape]
  split at h
  · rename_i n hshape
    split at h
    · rename_i haxis
      cases h
      have hrank : t.rank ≠ 2 := by simp [rank, hshape]
      have hflag := ht.same.flag_eq ht.owned.valid ht.owned'.valid hrank
      have hsize : Grid.size ⟨n, 1, false⟩ = t.shape.prod := by simp [hshape, Grid.size]
      exact ⟨⟨n, 1, false⟩, if_pos haxis, .storage _ hsize hflag, rfl, rfl⟩
    · cases h
  · rename_i rows cols hshape
    split at h
    · cases h
      exact ⟨_, rfl, hread hshape, rfl, rfl⟩
    · cases h
      exact ⟨_, rfl, hread hshape, rfl, rfl⟩
    · cases h
  · cases h

end Plans

end Tensor

/-! ## Computations -/

namespace Computation

open Tensor

variable {s s' s₁ : Store} {c c' : Computation} {out out' : Tensor}

/-- The computation `c'` into `out'` is `c` into `out` with counterparts for its operands.  What is
stored element by element is stored in one order, in an output of the shape of the input; operands
that are read as matrices are replaced one by one. -/
inductive Replaces (s s' : Store) : Computation → Tensor → Computation → Tensor → Prop where
  | map (op : Operation) (x : Double) {t t' out out' : Tensor} (ht : t.Counterpart s t' s')
      (ho : out.Counterpart s out' s') (hshape : out.shape = t.shape)
      (hflag : t.transposed = out.transposed ↔ t'.transposed = out'.transposed) :
      Replaces s s' (.map op t x) out (.map op t' x) out'
  | zip (op : Operation) {lhs lhs' rhs rhs' out out' : Tensor} (hl : lhs.Counterpart s lhs' s')
      (hr : rhs.Counterpart s rhs' s') (ho : out.Counterpart s out' s')
      (hshape : out.shape = lhs.shape)
      (hflag : lhs.transposed = rhs.transposed ↔ lhs'.transposed = rhs'.transposed)
      (hflag' : lhs.transposed = out.transposed ↔ lhs'.transposed = out'.transposed) :
      Replaces s s' (.zip op lhs rhs) out (.zip op lhs' rhs') out'
  | addScaled (alpha : Double) {t t' out out' : Tensor} (ht : t.Counterpart s t' s')
      (ho : out.Counterpart s out' s')
      (hflag : t.transposed = out.transposed ↔ t'.transposed = out'.transposed) :
      Replaces s s' (.addScaled alpha t) out (.addScaled alpha t') out'
  | broadcast (op : Operation) (alpha beta : Double) {v v' m m' : Tensor}
      (hv : v.Counterpart s v' s') (hm : m.Counterpart s m' s')
      (hflag : v'.transposed = v.transposed) :
      Replaces s s' (.broadcast op alpha beta v) m (.broadcast op alpha beta v') m'
  | sums (which : Summation) {t t' out out' : Tensor} (ht : t.Counterpart s t' s')
      (ho : out.Counterpart s out' s') (hflag : out'.transposed = out.transposed) :
      Replaces s s' (.sums which t) out (.sums which t') out'
  | sumAxis (axis : Nat) {t t' out out' : Tensor} (ht : t.Counterpart s t' s')
      (ho : out.Counterpart s out' s') (hflag : out'.transposed = out.transposed) :
      Replaces s s' (.sumAxis t axis) out (.sumAxis t' axis) out'
  | softmax {t t' out out' : Tensor} (ht : t.Counterpart s t' s')
      (ho : out.Counterpart s out' s') (hshape : out.shape = t.shape)
      (hflag : t.transposed = out.transposed ↔ t'.transposed = out'.transposed) :
      Replaces s s' (.softmax t 1) out (.softmax t' 1) out'
  | product (alpha beta : Double) {a a' b b' out out' : Tensor} (ha : a.Counterpart s a' s')
      (hb : b.Counterpart s b' s') (ho : out.Counterpart s out' s')
      (hflag : out'.transposed = out.transposed) :
      Replaces s s' (.product alpha a b beta) out (.product alpha a' b' beta) out'

theorem Replaces.symm (h : Replaces s s' c out c' out') : Replaces s' s c' out' c out := by
  cases h with
  | map op x ht ho hshape hflag =>
    exact .map op x ht.symm ho.symm (by rw [ht.shape, ho.shape, hshape]) hflag.symm
  | zip op hl hr ho hshape hflag hflag' =>
    exact .zip op hl.symm hr.symm ho.symm (by rw [hl.shape, ho.shape, hshape]) hflag.symm
      hflag'.symm
  | addScaled alpha ht ho hflag => exact .addScaled alpha ht.symm ho.symm hflag.symm
  | broadcast op alpha beta hv hm hflag =>
    exact .broadcast op alpha beta hv.symm hm.symm hflag.symm
  | sums which ht ho hflag => exact .sums which ht.symm ho.symm hflag.symm
  | sumAxis axis ht ho hflag => exact .sumAxis axis ht.symm ho.symm hflag.symm
  | softmax ht ho hshape hflag =>
    exact .softmax ht.symm ho.symm (by rw [ht.shape, ho.shape, hshape]) hflag.symm
  | product alpha beta ha hb ho hflag =>
    exact .product alpha beta ha.symm hb.symm ho.symm hflag.symm

theorem Replaces.output (h : Replaces s s' c out c' out') : out.Counterpart s out' s' := by
  cases h <;> assumption

theorem Replaces.proper (h : Replaces s s' c out c' out') (hc : c.Proper) : c'.Proper := by
  cases h <;> exact hc

/-- The stores hold all operands of a computation. -/
def Owned (c : Computation) (out : Tensor) (s : Store) : Prop := ∀ t ∈ out :: c.inputs, t.Owned s

theorem Owned.output (h : c.Owned out s) : out.Owned s := h out List.mem_cons_self

/-- Inputs that are counterparts are paired. -/
theorem Owned.paired {t t' : Tensor} (ho : c.Owned out s) (ho' : c'.Owned out' s')
    (hpeers : s.Peers s') (ht : t ∈ c.inputs) (ht' : t' ∈ c'.inputs)
    (h : t.Counterpart s t' s') : t.Paired s t' s' :=
  ⟨ho t (List.mem_cons_of_mem _ ht), ho' t' (List.mem_cons_of_mem _ ht'), h, hpeers⟩

/-- A launch that was planned is answered by the launch that is planned for counterparts. -/
theorem plan_replaced (h : Replaces s s' c out c' out') (hc : c.Proper) (ho : c.Owned out s)
    (ho' : c'.Owned out' s') (hpeers : s.Peers s') {i : Issue} (hp : c.plan out s = .ok i) :
    ∃ i', c'.plan out' s' = .ok i' ∧ Answers out s i out' s' i' := by
  have hout : out.Paired s out' s' := ⟨ho.output, ho'.output, h.output, hpeers⟩
  cases h with
  | map op x ht _ hshape hflag =>
    obtain ⟨inv, hinv, rfl⟩ := Issue.planned_iff.mp hp
    have ht' := ho.paired ho' hpeers List.mem_cons_self List.mem_cons_self ht
    obtain ⟨inv', hinv', ha⟩ := planMap_replaced hc ht' hout hshape hflag hinv
    exact ⟨_, Issue.planned_iff.mpr ⟨inv', hinv', rfl⟩, ht.dtype ▸ ha⟩
  | zip op hl hr _ hshape hflag hflag' =>
    obtain ⟨inv, hinv, rfl⟩ := Issue.planned_iff.mp hp
    have hl' := ho.paired ho' hpeers List.mem_cons_self List.mem_cons_self hl
    have hr' := ho.paired ho' hpeers (by simp [inputs]) (by simp [inputs]) hr
    obtain ⟨inv', hinv', ha⟩ := planZip_replaced hc hl' hr' hout hshape hflag hflag' hinv
    exact ⟨_, Issue.planned_iff.mpr ⟨inv', hinv', rfl⟩, hl.dtype ▸ ha⟩
  | addScaled alpha ht _ hflag =>
    obtain ⟨inv, hinv, rfl⟩ := Issue.planned_iff.mp hp
    have ht' := ho.paired ho' hpeers List.mem_cons_self List.mem_cons_self ht
    obtain ⟨inv', hinv', ha⟩ := planAddScaled_replaced ht' hout hflag hinv
    exact ⟨_, Issue.planned_iff.mpr ⟨inv', hinv', rfl⟩, ht.dtype ▸ ha⟩
  | broadcast op alpha beta hv hm hflag =>
    obtain ⟨inv, hinv, rfl⟩ := Issue.planned_iff.mp hp
    have hv' := ho.paired ho' hpeers List.mem_cons_self List.mem_cons_self hv
    obtain ⟨inv', hinv', ha⟩ := planBroadcast_replaced hc hv' hout hflag hinv
    exact ⟨_, Issue.planned_iff.mpr ⟨inv', hinv', rfl⟩, hm.dtype ▸ ha⟩
  | sums which ht _ hflag =>
    obtain ⟨inv, hinv, rfl⟩ := Issue.planned_iff.mp hp
    obtain ⟨dims, hdims, hinv⟩ := bind_eq_ok_iff.mp hinv
    have ht' := ho.paired ho' hpeers List.mem_cons_self List.mem_cons_self ht
    have hsize := size_of_asMatrix hdims
    have hread := Reading.of_dims ht ht'.owned.valid ht'.owned'.valid hsize
      (shape_of_asMatrix hdims)
    obtain ⟨inv', hinv', ha⟩ := planSums_replaced ht' hout hflag hread hsize rfl rfl rfl hinv
    have hdims' := (asMatrix_congr ht.shape).trans hdims
    exact ⟨_, Issue.planned_iff.mpr ⟨inv', bind_eq_ok_iff.mpr ⟨dims, hdims', hinv'⟩, rfl⟩,
      ht.dtype ▸ ha⟩
  | sumAxis axis ht _ hflag =>
    obtain ⟨collapse, hcollapse, hp⟩ := bind_eq_ok_iff.mp hp
    obtain ⟨inv, hinv, rfl⟩ := Issue.planned_iff.mp hp
    have ht' := ho.paired ho' hpeers List.mem_cons_self List.mem_cons_self ht
    obtain ⟨hsize, hlength⟩ := size_of_collapse hcollapse
    obtain ⟨g', hcollapse', hread, hrows, hcols⟩ := collapse_replaced ht' hcollapse
    obtain ⟨inv', hinv', ha⟩ :=
      planSums_replaced ht' hout hflag hread hsize hrows hcols hlength hinv
    exact ⟨_, bind_eq_ok_iff.mpr ⟨_, hcollapse', Issue.planned_iff.mpr ⟨inv', hinv', rfl⟩⟩,
      ht.dtype ▸ ha⟩
  | softmax ht _ hshape hflag =>
    obtain ⟨inv, hinv, rfl⟩ := Issue.planned_iff.mp hp
    have ht' := ho.paired ho' hpeers List.mem_cons_self List.mem_cons_self ht
    obtain ⟨inv', hinv', ha⟩ := planSoftmax_replaced ht' hout hshape hflag hinv
    exact ⟨_, Issue.planned_iff.mpr ⟨inv', hinv', rfl⟩, ht.dtype ▸ ha⟩
  | product alpha beta ha hb _ hflag =>
    obtain ⟨inv, hinv, rfl⟩ := Issue.planned_iff.mp hp
    have ha' := ho.paired ho' hpeers List.mem_cons_self List.mem_cons_self ha
    have hb' := ho.paired ho' hpeers (by simp [inputs]) (by simp [inputs]) hb
    obtain ⟨inv', hinv', hanswers⟩ := planProduct_replaced ha' hb' hout hflag hinv
    exact ⟨_, Issue.planned_iff.mpr ⟨inv', hinv', rfl⟩, ha.dtype ▸ hanswers⟩

/-- If a computation succeeds, so does the one on counterparts, and leaves a counterpart, unless it
is refused memory. -/
theorem into_follows (h : Replaces s s' c out c' out') (hc : c.Proper) (ho : c.Owned out s)
    (ho' : c'.Owned out' s') (hpeers : s.Peers s') :
    Action.Follows (fun _ s₁ _ s₁' => out.Paired s₁ out' s₁') (c.into out) s (c'.into out')
      s' := by
  have hout : out.Paired s out' s' := ⟨ho.output, ho'.output, h.output, hpeers⟩
  have hplan : Action.Follows (fun i s₁ i' s₁' => (s₁ = s ∧ s₁' = s') ∧ Answers out s i out' s' i')
      (Action.examine (c.plan out)) s (Action.examine (c'.plan out')) s' := by
    refine .examine fun i hi => ?_
    obtain ⟨i', hi', ha⟩ := plan_replaced h hc ho ho' hpeers hi
    exact ⟨i', hi', ⟨rfl, rfl⟩, ha⟩
  have hrun : Action.Follows (fun _ s₁ _ s₁' => out.Paired s₁ out' s₁')
      (Action.examine (c.plan out) >>= Issue.launch) s
      (Action.examine (c'.plan out') >>= Issue.launch) s' := by
    refine hplan.bind ?_
    rintro i _ i' _ ⟨⟨rfl, rfl⟩, ha⟩
    exact ha.launch hout
  intro u s₁ hinto
  rw [into_eq] at hinto ⊢
  exact hrun u s₁ hinto

end Computation

end DeviceTensor
