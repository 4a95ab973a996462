import DeviceTensor.Proofs.Kernel.Arrangement
import DeviceTensor.Proofs.Routine.Catalog
set_option autoImplicit false

/-!
# Launches and the storage order of their matrices

Two launches for one key follow the same recipe.  If the buffers that they see are laid alike, so
are those that they leave.
-/

namespace DeviceTensor

open DeviceTensor.Except

/-- The effects leave related elements in their outputs, and the second ends well if the first
does. -/
def Effect.Leaves {d : ElemType} (R : Array (Elem d) → Array (Elem d) → Prop) (e e' : Effect) :
    Prop :=
  ∃ o o' : Outcome (Elem d), e = .ofOutcome o ∧ e' = .ofOutcome o' ∧ Follows R o.done o'.done

namespace Invocation

variable {d : ElemType}

/-- The routines see inputs that are laid alike. -/
def InputLaid (d : ElemType) (index count : Nat) (g : Grid) (inv : Invocation) (s : Store)
    (g' : Grid) (inv' : Invocation) (s' : Store) : Prop :=
  Follows (Laid g · g' ·) (inv.inputSeen d index count s) (inv'.inputSeen d index count s')

/-- The routines see outputs that are laid alike. -/
def OutputLaid (d : ElemType) (count : Nat) (g : Grid) (inv : Invocation) (s : Store)
    (g' : Grid) (inv' : Invocation) (s' : Store) : Prop :=
  Follows (Laid g · g' ·) (inv.outputSeen d count s) (inv'.outputSeen d count s')

/-- The invocations have the same count and scalars, and extents that differ in storage orders
alone. -/
structure SameForm (inv inv' : Invocation) : Prop where
  count : inv'.count = inv.count
  alpha : inv'.alpha = inv.alpha
  beta : inv'.beta = inv.beta
  rows : inv'.extents.rows = inv.extents.rows
  cols : inv'.extents.cols = inv.extents.cols
  inner : inv'.extents.inner = inv.extents.inner

end Invocation

namespace Recipe

open Invocation

variable {d : ElemType} {op : Operation} {recipe : Recipe d} {inv inv' : Invocation}
  {s s' : Store} {g g' k k' : Grid}

/-- The recipe leaves buffers that are laid alike. -/
def LeavesLaid (recipe : Recipe d) (g : Grid) (inv : Invocation) (s : Store) (g' : Grid)
    (inv' : Invocation) (s' : Store) : Prop :=
  Follows (Effect.Leaves (d := d) (Laid g · g' ·)) (recipe.effect inv s) (recipe.effect inv' s')

theorem leaves_ofOutcome {R : Array (Elem d) → Array (Elem d) → Prop} {o o' : Outcome (Elem d)}
    (h : Follows R o.done o'.done) :
    Follows (Effect.Leaves R) (.ok (.ofOutcome o) : Except RoutineFailure Effect)
      (.ok (.ofOutcome o') : Except RoutineFailure Effect) :=
  .ok ⟨o, o', rfl, rfl, h⟩

theorem Does.pointwise_laid (h : recipe.Does op) (hop : op ∈ Operation.pointwise)
    (hform : inv.SameForm inv') (hin : InputLaid d 0 inv.count g inv s g' inv' s')
    (hout : OutputLaid d inv.count g inv s g' inv' s') :
    recipe.LeavesLaid g inv s g' inv' s' := by
  unfold LeavesLaid
  rcases h.pointwise hop with ⟨f, rfl⟩ | ⟨f, rfl⟩
  · simp only [effect, hform.count]
    refine .bind hin fun src src' hs => .bind hout fun dst dst' hd => ?_
    exact leaves_ofOutcome (Kernel.map_laid f hs hd)
  · simp only [effect, hform.count, hform.alpha]
    refine .bind (.of_eq rfl) fun v v' hv => ?_
    subst hv
    refine .bind hin fun src src' hs => .bind hout fun dst dst' hd => ?_
    exact leaves_ofOutcome (Kernel.map_laid (f · v) hs hd)

theorem Does.pairwise_laid (h : recipe.Does op) (hop : op ∈ Operation.pairwise)
    (hform : inv.SameForm inv') (hleft : InputLaid d 0 inv.count g inv s g' inv' s')
    (hright : InputLaid d 1 inv.count g inv s g' inv' s')
    (hout : OutputLaid d inv.count g inv s g' inv' s') :
    recipe.LeavesLaid g inv s g' inv' s' := by
  unfold LeavesLaid
  obtain ⟨f, rfl⟩ := h.pairwise hop
  simp only [effect, hform.count]
  refine .bind hleft fun lhs lhs' hl => .bind hright fun rhs rhs' hr => ?_
  exact .bind hout fun dst dst' hd => leaves_ofOutcome (Kernel.zip_laid f hl hr hd)

theorem Does.axpy_laid (h : recipe.Does .axpy) (hform : inv.SameForm inv')
    (hin : InputLaid d 0 inv.count g inv s g' inv' s')
    (hout : OutputLaid d inv.count g inv s g' inv' s') :
    recipe.LeavesLaid g inv s g' inv' s' := by
  unfold LeavesLaid
  obtain rfl := h.axpy
  simp only [effect, hform.count, hform.alpha]
  refine .bind hin fun src src' hs => .bind (.of_eq rfl) fun alpha alpha' halpha => ?_
  subst halpha
  exact .bind hout fun dst dst' hd => leaves_ofOutcome (Kernel.addScaled_laid _ alpha hs hd)

/-! ## Matrices -/

theorem checkedSize_follows (hform : inv.SameForm inv') :
    Follows (fun n n' => n = inv.extents.grid.size ∧ n' = n)
      (sizeSeen inv.extents.grid.checkedSize) (sizeSeen inv'.extents.grid.checkedSize) := by
  unfold Extents.grid Grid.checkedSize
  dsimp only
  rw [hform.rows, hform.cols]
  intro n hn
  exact ⟨n, hn, (Size.mul_eq_ok_iff.mp (mapError_eq_ok_iff.mp hn)).2, rfl⟩

theorem rowEffect_laid (f : Elem d → Elem d → Except Trap (Elem d)) (hform : inv.SameForm inv')
    (hv : InputLaid d 0 inv.extents.cols k inv s k inv' s')
    (hm : OutputLaid d inv.extents.grid.size inv.extents.grid inv s inv'.extents.grid inv' s') :
    Follows (Effect.Leaves (d := d) (Laid inv.extents.grid · inv'.extents.grid ·))
      (rowEffect inv f s) (rowEffect inv' f s') := by
  have hcols : inv'.extents.grid.cols = inv.extents.cols := hform.cols
  simp only [rowEffect, hcols]
  refine .bind hv fun v v' hlaid => .bind (checkedSize_follows hform) fun n n' hn => ?_
  obtain rfl := hlaid.eq
  obtain ⟨rfl, rfl⟩ := hn
  exact .bind hm fun m m' hlaid => leaves_ofOutcome (Kernel.broadcastRow_laid f v' hlaid)

theorem columnEffect_laid (f : Elem d → Elem d → Except Trap (Elem d)) (hform : inv.SameForm inv')
    (hv : InputLaid d 0 inv.extents.rows k inv s k inv' s')
    (hm : OutputLaid d inv.extents.grid.size inv.extents.grid inv s inv'.extents.grid inv' s') :
    Follows (Effect.Leaves (d := d) (Laid inv.extents.grid · inv'.extents.grid ·))
      (columnEffect inv f s) (columnEffect inv' f s') := by
  have hrows : inv'.extents.grid.rows = inv.extents.rows := hform.rows
  simp only [columnEffect, hrows]
  refine .bind hv fun v v' hlaid => .bind (checkedSize_follows hform) fun n n' hn => ?_
  obtain rfl := hlaid.eq
  obtain ⟨rfl, rfl⟩ := hn
  exact .bind hm fun m m' hlaid => leaves_ofOutcome (Kernel.broadcastColumn_laid f v' hlaid)

theorem Does.broadcasting_laid (h : recipe.Does op) (hop : op ∈ Operation.broadcasting)
    (hform : inv.SameForm inv') (hg : inv.extents.grid = g) (hg' : inv'.extents.grid = g')
    (hv : InputLaid d 0 (if Tensor.overColumns op then g.rows else g.cols) k inv s k inv' s')
    (hm : OutputLaid d g.size g inv s g' inv' s') : recipe.LeavesLaid g inv s g' inv' s' := by
  subst hg hg'
  unfold LeavesLaid
  cases hover : Tensor.overColumns op with
  | false =>
    rw [hover, if_neg Bool.false_ne_true] at hv
    rcases h.overRows hop hover with ⟨f, rfl⟩ | rfl
    · exact rowEffect_laid f hform hv hm
    · simp only [effect, hform.alpha, hform.beta]
      refine .bind (.of_eq rfl) fun alpha alpha' halpha => ?_
      refine .bind (.of_eq rfl) fun beta beta' hbeta => ?_
      subst halpha hbeta
      exact rowEffect_laid _ hform hv hm
  | true =>
    rw [hover, if_pos rfl] at hv
    rcases h.overColumns hop hover with ⟨f, rfl⟩ | rfl
    · exact columnEffect_laid f hform hv hm
    · simp only [effect, hform.alpha, hform.beta]
      refine .bind (.of_eq rfl) fun alpha alpha' halpha => ?_
      refine .bind (.of_eq rfl) fun beta beta' hbeta => ?_
      subst halpha hbeta
      exact columnEffect_laid _ hform hv hm

theorem Does.sums_laid {which : Tensor.Summation} (h : recipe.Does which.op)
    (hform : inv.SameForm inv') (hg : inv.extents.grid = g) (hg' : inv'.extents.grid = g')
    (hm : InputLaid d 0 g.size g inv s g' inv' s')
    (hout : OutputLaid d (which.length g.rows g.cols) k inv s k inv' s') :
    recipe.LeavesLaid k inv s k inv' s' := by
  subst hg hg'
  unfold LeavesLaid
  cases which with
  | rows =>
    have hcols : inv'.extents.grid.cols = inv.extents.cols := hform.cols
    obtain rfl := h.sumRows
    simp only [effect, hcols]
    refine .bind (checkedSize_follows hform) fun n n' hn => ?_
    obtain ⟨rfl, rfl⟩ := hn
    refine .bind hm fun m m' hlaid => .bind hout fun dst dst' hd => ?_
    exact leaves_ofOutcome (Kernel.sumRows_laid _ hlaid hd)
  | columns =>
    have hrows : inv'.extents.grid.rows = inv.extents.rows := hform.rows
    obtain rfl := h.sumColumns
    simp only [effect, hrows]
    refine .bind (checkedSize_follows hform) fun n n' hn => ?_
    obtain ⟨rfl, rfl⟩ := hn
    refine .bind hm fun m m' hlaid => .bind hout fun dst dst' hd => ?_
    exact leaves_ofOutcome (Kernel.sumColumns_laid _ hlaid hd)

theorem Does.softMax_laid (h : recipe.Does .softMax) (hform : inv.SameForm inv')
    (hg : inv.extents.grid = g) (hg' : inv'.extents.grid = g')
    (hin : InputLaid d 0 g.size g inv s g' inv' s')
    (hout : OutputLaid d g.size g inv s g' inv' s') : recipe.LeavesLaid g inv s g' inv' s' := by
  subst hg hg'
  unfold LeavesLaid
  obtain ⟨F, rfl⟩ := h.softMax
  simp only [effect]
  refine .bind (checkedSize_follows hform) fun n n' hn => ?_
  obtain ⟨rfl, rfl⟩ := hn
  refine .bind hin fun src src' hs => .bind hout fun dst dst' hd => ?_
  exact leaves_ofOutcome (Kernel.softmax_laid _ F hs hd)

/-! ## Products -/

theorem sizeSeen_follows (m n : Nat) :
    Follows (fun k k' => k = m * n ∧ k' = m * n) (sizeSeen (Size.mul m n))
      (sizeSeen (Size.mul m n)) := by
  intro k hk
  have hk' := (Size.mul_eq_ok_iff.mp (mapError_eq_ok_iff.mp hk)).2
  exact ⟨k, hk, hk', hk'⟩

theorem Does.gemm_laid (h : recipe.Does .gemm) (hlibrary : s'.library = s.library)
    (hform : inv.SameForm inv')
    (hleft : InputLaid d 0 inv.extents.leftGrid.size inv.extents.leftGrid inv s
      inv'.extents.leftGrid inv' s')
    (hright : InputLaid d 1 inv.extents.rightGrid.size inv.extents.rightGrid inv s
      inv'.extents.rightGrid inv' s')
    (hout : OutputLaid d (inv.extents.rows * inv.extents.cols) k inv s k inv' s') :
    recipe.LeavesLaid k inv s k inv' s' := by
  have hproduct (kernel kernel' : Elem d → Array (Elem d) → Array (Elem d) → Elem d →
      Array (Elem d) → Outcome (Elem d))
      (hkernel : ∀ alpha beta a b c a' b' c',
        Kernel.Operands inv.extents a b inv'.extents a' b' → Laid k c k c' →
        Follows (Laid k · k ·) (kernel alpha a b beta c).done (kernel' alpha a' b' beta c').done) :
      Follows (Effect.Leaves (d := d) (Laid k · k ·)) (productEffect inv kernel s)
        (productEffect inv' kernel' s') := by
    simp only [productEffect, hform.rows, hform.cols, hform.inner, hform.alpha, hform.beta]
    refine .bind (sizeSeen_follows _ _) fun n n' hn => ?_
    obtain ⟨rfl, rfl⟩ := hn
    refine .bind hleft fun a a' ha => .bind (sizeSeen_follows _ _) fun n n' hn => ?_
    obtain ⟨rfl, rfl⟩ := hn
    refine .bind hright fun b b' hb => .bind (sizeSeen_follows _ _) fun n n' hn => ?_
    obtain ⟨rfl, rfl⟩ := hn
    refine .bind hout fun c c' hc => .bind (.of_eq rfl) fun alpha alpha' halpha => ?_
    refine .bind (.of_eq rfl) fun beta beta' hbeta => ?_
    subst halpha hbeta
    exact leaves_ofOutcome (hkernel alpha beta a b c a' b' c' ⟨ha, hb⟩ hc)
  unfold LeavesLaid
  rcases h.gemm with rfl | rfl
  · exact hproduct _ _ fun alpha beta a b c a' b' c' h hc =>
      Kernel.product_laid (arithmetic d) alpha beta h hc
  · unfold effect
    rw [hlibrary]
    exact hproduct _ _ fun alpha beta a b c a' b' c' h hc =>
      Kernel.wideProduct_laid (s.library d) alpha beta h hc

end Recipe

/-! ## Launches -/

variable {op : Operation} {dtype : ElemType} {inv inv' : Invocation} {s s' : Store}

/-- Launches for one key follow one recipe. -/
theorem launchSeen_follows {R : Effect → Effect → Prop} (hs : s.registry.OnHost)
    (hregistry : s'.registry = s.registry)
    (hbackend : s'.backend inv'.device = s.backend inv.device)
    (hrecipe : ∀ recipe : Recipe dtype, recipe.Does op →
      Follows R (recipe.effect inv s) (recipe.effect inv' s')) :
    Follows R (launchSeen op dtype inv s) (launchSeen op dtype inv' s') := by
  have hkey : RoutineKey.onDevice dtype op inv'.device s' =
      RoutineKey.onDevice dtype op inv.device s := by
    unfold RoutineKey.onDevice
    rw [hbackend]
  unfold launchSeen Registry.lookup
  rw [hkey, hregistry]
  dsimp only
  cases hget : s.registry.get? (RoutineKey.onDevice dtype op inv.device s) with
  | none =>
    intro e he
    cases he
  | some routine =>
    obtain ⟨recipe, hdoes, hfollows⟩ := (hs _ routine hget).recipe
    dsimp only
    rw [hfollows.effect, hfollows.effect]
    exact (hrecipe recipe hdoes).mapError _ _

/-- A launch follows another if their effects do; the elements that they leave lie over the bytes
of their outputs. -/
theorem launch_follows {d : ElemType} {R : Array (Elem d) → Array (Elem d) → Prop}
    (h : Follows (Effect.Leaves R) (launchSeen op dtype inv s) (launchSeen op dtype inv' s'))
    (hlt : inv.output < s.blocks.size) (hlive : (s.block inv.output).memory ≠ .released)
    (hlt' : inv'.output < s'.blocks.size) (hlive' : (s'.block inv'.output).memory ≠ .released)
    {s₁ : Store} (hrun : launch op dtype inv s = (.ok (), s₁)) :
    (∃ s₁' r r', launch op dtype inv' s' = (.ok (), s₁') ∧ R r r' ∧
      (s₁.block inv.output).contents = Elem.overlay r (s.block inv.output).contents ∧
      (s₁'.block inv'.output).contents = Elem.overlay r' (s'.block inv'.output).contents) ∨
    Refused (launch op dtype inv' s').1 := by
  by_cases hn' : inv'.Stops (launch op dtype inv') s'
  · exact .inr hn'.refused
  left
  have hn : ¬inv.Stops (launch op dtype inv) s :=
    Invocation.not_stops_of_not_refused (by rw [hrun]; exact id)
  have hresult : (launch op dtype inv s).1 = .ok () := by rw [hrun]
  rw [launch_result hn] at hresult
  obtain ⟨e, he, hend⟩ := bind_eq_ok_iff.mp hresult
  obtain ⟨_, he', o, o', rfl, rfl, hdone⟩ := h e he
  obtain ⟨dst, r⟩ := o
  obtain rfl : r = .ok () := mapError_eq_ok_iff.mp (mapError_eq_ok_iff.mp hend)
  obtain ⟨dst', hdst', hr⟩ := hdone dst rfl
  obtain rfl := Outcome.done_eq_ok_iff.mp hdst'
  have hresult' : (launch op dtype inv' s').1 = .ok () := by
    rw [launch_result hn', he']
    rfl
  have hcontents := contents_launch_of_ok hn he hlt hlive
  have hcontents' := contents_launch_of_ok hn' he' hlt' hlive'
  rw [hrun] at hcontents
  cases hrun' : launch op dtype inv' s' with
  | mk r s₁' =>
    rw [hrun'] at hresult' hcontents'
    cases hresult'
    exact ⟨s₁', dst, dst', rfl, hr, hcontents, hcontents'⟩

end DeviceTensor
