import DeviceTensor.Proofs.Element.Bytes
import DeviceTensor.Proofs.Kernel.Extent
import DeviceTensor.Proofs.Kernel.Library
import DeviceTensor.Proofs.Routine.Views
set_option autoImplicit false

/-!
# The bounds of a routine

A routine may be launched with any blocks, counts, scalars and extents.  `Recipe.Suits` says that
they suit its recipe: the sizes can be computed, and every view it takes fits into its block.  An
effect is seen only then, so that a launch that does not suit fails before anything is written.
And no effect reaches behind the view of the output, `Recipe.outputView`.  A product that is left to
the library is not checked place by place, and stays inside the views by the contract of the library.
-/

namespace DeviceTensor

open DeviceTensor.Except

/-! ## Launches that suit -/

/-- The length of a view in bytes. -/
def View.bytes (v : View) : Nat := v.count * v.dtype.width

/-- The bytes of the view can be counted, and its block is there and has room for them. -/
def View.Possible (v : View) (s : Store) : Prop := v.bytes < Size.limit ∧ v.Fits s

namespace Recipe

variable {d : ElemType}

/-- The products by which a recipe computes sizes. -/
def products (inv : Invocation) : Recipe d → List (Nat × Nat)
  | .map _ => []
  | .mapScalar _ => []
  | .zip _ => []
  | .fill => []
  | .cast => []
  | .reduce _ => []
  | .softmax _ => [(inv.extents.rows, inv.extents.cols)]
  | .row _ => [(inv.extents.rows, inv.extents.cols)]
  | .column _ => [(inv.extents.rows, inv.extents.cols)]
  | .scaledRow => [(inv.extents.rows, inv.extents.cols)]
  | .scaledColumn => [(inv.extents.rows, inv.extents.cols)]
  | .sumRows => [(inv.extents.rows, inv.extents.cols)]
  | .sumColumns => [(inv.extents.rows, inv.extents.cols)]
  | .random _ => []
  | .addScaled => []
  | .product =>
    [(inv.extents.rows, inv.extents.inner), (inv.extents.inner, inv.extents.cols),
      (inv.extents.rows, inv.extents.cols)]
  | .wideProduct =>
    [(inv.extents.rows, inv.extents.inner), (inv.extents.inner, inv.extents.cols),
      (inv.extents.rows, inv.extents.cols)]

/-- The view that a recipe writes through. -/
def outputView (inv : Invocation) : Recipe d → View
  | .map _ => inv.viewOfOutput d inv.count
  | .mapScalar _ => inv.viewOfOutput d inv.count
  | .zip _ => inv.viewOfOutput d inv.count
  | .fill => inv.viewOfOutput d inv.count
  | .cast => inv.viewOfOutput inv.outType inv.count
  | .reduce _ => inv.viewOfOutput .float64 1
  | .softmax _ => inv.viewOfOutput d inv.extents.grid.size
  | .row _ => inv.viewOfOutput d inv.extents.grid.size
  | .column _ => inv.viewOfOutput d inv.extents.grid.size
  | .scaledRow => inv.viewOfOutput d inv.extents.grid.size
  | .scaledColumn => inv.viewOfOutput d inv.extents.grid.size
  | .sumRows => inv.viewOfOutput d inv.extents.cols
  | .sumColumns => inv.viewOfOutput d inv.extents.rows
  | .random _ => inv.viewOfOutput d inv.count
  | .addScaled => inv.viewOfOutput d inv.count
  | .product => inv.viewOfOutput d (inv.extents.rows * inv.extents.cols)
  | .wideProduct => inv.viewOfOutput d (inv.extents.rows * inv.extents.cols)

/-- The sizes that the recipe computes are sizes, and the views that it takes are possible. -/
structure Suits (recipe : Recipe d) (inv : Invocation) (s : Store) : Prop where
  products : ∀ p ∈ recipe.products inv, p.1 * p.2 < Size.limit
  views : ∀ v ∈ recipe.views inv, v.Possible s

end Recipe

/-! ## What can be seen -/

theorem Block.possible_of_seen {b : BlockId} {d : ElemType} {count : Nat} {s : Store}
    {xs : Array (Elem d)} (h : seen b d count s = .ok xs) : View.Possible ⟨some b, d, count⟩ s := by
  obtain ⟨_, hcheck, -⟩ := bind_eq_ok_iff.mp h
  obtain ⟨-, hlimit, hle⟩ := checkView_eq_ok_iff.mp hcheck
  exact ⟨hlimit, b, rfl, hle⟩

namespace Invocation

variable {inv : Invocation} {d : ElemType} {count : Nat} {s : Store} {xs : Array (Elem d)}

theorem possible_of_inputSeen {index : Nat} (h : inv.inputSeen d index count s = .ok xs) :
    (inv.viewOfInput d index count).Possible s := by
  unfold inputSeen at h
  unfold viewOfInput
  split at h
  · cases h
  · rename_i b hb
    rw [hb]
    exact Block.possible_of_seen (mapError_eq_ok_iff.mp h)

theorem possible_of_outputSeen (h : inv.outputSeen d count s = .ok xs) :
    (inv.viewOfOutput d count).Possible s :=
  Block.possible_of_seen (mapError_eq_ok_iff.mp h)

end Invocation

/-! ## What is written -/

namespace Effect

/-- The effect leaves every byte behind the first `n`. -/
def Within (e : Effect) (n : Nat) : Prop := ∀ bytes p, n ≤ p → (e.change bytes)[p]? = bytes[p]?

/-- The bytes behind the effect stay, in whatever state the memory of the output is. -/
theorem Within.contents {e : Effect} {n : Nat} (h : e.Within n) (inv : Invocation) (s : Store)
    {p : Nat} (hp : n ≤ p) :
    ((e.store inv s).block inv.output).contents[p]? = (s.block inv.output).contents[p]? := by
  unfold store
  rw [Block.modifyBytes_eq, Store.block_modifyBlock, Store.block_modifyDevice]
  split
  · cases hm : (s.block inv.output).memory with
    | unbound => simp only [Block.contents, hm, Memory.map]
    | released => simp only [Block.contents, hm, Memory.map]
    | bound bytes =>
      simp only [Block.contents, hm, Memory.map]
      exact h bytes p hp
  · rfl

/-- If an effect is seen, then the products are sizes, the views are possible, and the effect stays
within the first `n` bytes. -/
def Bounded (products : List (Nat × Nat)) (views : List View) (n : Nat) (s : Store)
    (x : Except RoutineFailure Effect) : Prop :=
  ∀ e, x = .ok e →
    (∀ p ∈ products, p.1 * p.2 < Size.limit) ∧ (∀ v ∈ views, v.Possible s) ∧ e.Within n

namespace Bounded

variable {ps : List (Nat × Nat)} {vs : List View} {n count : Nat} {s : Store} {d : ElemType}
variable {inv : Invocation}

theorem size {a b : Nat} {f : Nat → Except RoutineFailure Effect}
    (hf : Bounded ps vs n s (f (a * b))) :
    Bounded ((a, b) :: ps) vs n s (Invocation.sizeSeen (Size.mul a b) >>= f) := by
  intro e he
  obtain ⟨m, hm, he⟩ := bind_eq_ok_iff.mp he
  obtain ⟨hlimit, rfl⟩ := Size.mul_eq_ok_iff.mp (Invocation.sizeSeen_eq_ok_iff.mp hm)
  obtain ⟨hps, hrest⟩ := hf e he
  exact ⟨List.forall_mem_cons.mpr ⟨hlimit, hps⟩, hrest⟩

theorem scalar {x : Double} {f : Elem d → Except RoutineFailure Effect}
    (hf : ∀ y, Bounded ps vs n s (f y)) :
    Bounded ps vs n s (Invocation.scalarSeen d x >>= f) := by
  intro e he
  obtain ⟨y, -, he⟩ := bind_eq_ok_iff.mp he
  exact hf y e he

theorem input {index : Nat} {f : Array (Elem d) → Except RoutineFailure Effect}
    (hf : ∀ xs, Bounded ps vs n s (f xs)) :
    Bounded ps (inv.viewOfInput d index count :: vs) n s
      (inv.inputSeen d index count s >>= f) := by
  intro e he
  obtain ⟨xs, hxs, he⟩ := bind_eq_ok_iff.mp he
  obtain ⟨hps, hvs, hwithin⟩ := hf xs e he
  exact ⟨hps, List.forall_mem_cons.mpr ⟨Invocation.possible_of_inputSeen hxs, hvs⟩, hwithin⟩

theorem output {f : Array (Elem d) → Except RoutineFailure Effect}
    (hf : ∀ xs, xs.size = count → Bounded ps vs n s (f xs)) :
    Bounded ps (inv.viewOfOutput d count :: vs) n s (inv.outputSeen d count s >>= f) := by
  intro e he
  obtain ⟨xs, hxs, he⟩ := bind_eq_ok_iff.mp he
  obtain ⟨hps, hvs, hwithin⟩ := hf xs (Invocation.size_of_outputSeen hxs) e he
  exact ⟨hps, List.forall_mem_cons.mpr ⟨Invocation.possible_of_outputSeen hxs, hvs⟩, hwithin⟩

/-- A kernel writes the bytes of the elements that it was given. -/
theorem ofOutcome {dst : Array (Elem d)} {o : Outcome (Elem d)} (hdst : dst.size = count)
    (ho : o.1.size = dst.size) :
    Bounded [] [] (inv.viewOfOutput d count).bytes s (.ok (.ofOutcome o)) := by
  intro e he
  cases he
  refine ⟨List.forall_mem_nil _, List.forall_mem_nil _, fun bytes p hp => ?_⟩
  refine Elem.getElem?_overlay_of_le ?_ bytes
  rw [ho, hdst]
  exact hp

theorem restream {e : Effect} (h : Bounded ps vs n s (.ok e)) (stream : Option Stream) :
    Bounded ps vs n s (.ok { e with stream := stream }) := by
  intro e' he'
  cases he'
  exact h e rfl

end Bounded

end Effect

/-! ## Recipes -/

namespace Recipe

variable {d : ElemType} (inv : Invocation) (s : Store)

theorem rowEffect_bounded (f : Elem d → Elem d → Except Trap (Elem d)) :
    Effect.Bounded ((Recipe.row f).products inv) ((Recipe.row f).views inv)
      ((Recipe.row f).outputView inv).bytes s (rowEffect inv f s) :=
  .input fun v => .size <| .output fun m hm => .ofOutcome hm (Kernel.size_broadcastRow f v _ m)

theorem columnEffect_bounded (f : Elem d → Elem d → Except Trap (Elem d)) :
    Effect.Bounded ((Recipe.column f).products inv) ((Recipe.column f).views inv)
      ((Recipe.column f).outputView inv).bytes s (columnEffect inv f s) :=
  .input fun v => .size <| .output fun m hm => .ofOutcome hm (Kernel.size_broadcastColumn f v _ m)

theorem productEffect_bounded
    {kernel : Elem d → Array (Elem d) → Array (Elem d) → Elem d → Array (Elem d) →
      Outcome (Elem d)}
    (hkernel : ∀ alpha a b beta c, (kernel alpha a b beta c).1.size = c.size) :
    Effect.Bounded ((Recipe.product (d := d)).products inv) ((Recipe.product (d := d)).views inv)
      ((Recipe.product (d := d)).outputView inv).bytes s (productEffect inv kernel s) := by
  refine .size <| .input fun a => .size <| .input fun b => .size <| .output fun c hc => ?_
  exact .scalar fun alpha => .scalar fun beta => .ofOutcome hc (hkernel alpha a b beta c)

/-- A recipe sees an effect only if all operands suit it, and then writes through the view of the
output. -/
theorem effect_bounded (recipe : Recipe d) :
    Effect.Bounded (recipe.products inv) (recipe.views inv) (recipe.outputView inv).bytes s
      (recipe.effect inv s) := by
  cases recipe with
  | map f => exact .input fun src => .output fun dst hd => .ofOutcome hd (Kernel.size_map f src dst)
  | mapScalar f =>
    refine .scalar fun v => .input fun src => .output fun dst hd => ?_
    exact .ofOutcome hd (Kernel.size_map (f · v) src dst)
  | zip f =>
    refine .input fun lhs => .input fun rhs => .output fun dst hd => ?_
    exact .ofOutcome hd (Kernel.size_zip f lhs rhs dst)
  | fill => exact .output fun dst hd => .scalar fun v => .ofOutcome hd (Kernel.size_fill v dst)
  | cast => exact .input fun src => .output fun dst hd => .ofOutcome hd (Kernel.size_cast _ src dst)
  | reduce f => exact .input fun src => .output fun dst hd => .ofOutcome hd (Kernel.size_fill _ dst)
  | softmax F =>
    refine .size <| .input fun src => .output fun dst hd => ?_
    exact .ofOutcome hd (Kernel.size_softmax _ F src _ dst)
  | row f => exact rowEffect_bounded inv s f
  | column f => exact columnEffect_bounded inv s f
  | scaledRow => exact .scalar fun alpha => .scalar fun beta => rowEffect_bounded inv s _
  | scaledColumn => exact .scalar fun alpha => .scalar fun beta => columnEffect_bounded inv s _
  | sumRows =>
    refine .size <| .input fun m => .output fun dst hd => ?_
    exact .ofOutcome hd (Kernel.size_sumRows _ m _ dst)
  | sumColumns =>
    refine .size <| .input fun m => .output fun dst hd => ?_
    exact .ofOutcome hd (Kernel.size_sumColumns _ m _ dst)
  | random D =>
    exact .output fun dst hd => .restream (.ofOutcome hd (Kernel.size_fillSamples _ _ _ dst _)) _
  | addScaled =>
    refine .input fun x => .scalar fun alpha => .output fun dst hd => ?_
    exact .ofOutcome hd (Kernel.size_addScaled _ alpha x dst)
  | product => exact productEffect_bounded inv s fun _ _ _ _ _ => Kernel.size_product ..
  | wideProduct => exact productEffect_bounded inv s fun _ _ _ _ _ => Kernel.size_wideProduct ..

end Recipe

/-! ## Runs -/

/-- The product that a recipe leaves to the library keeps to the views of the operands. -/
def Recipe.LibraryKeepsToViews {d : ElemType} (recipe : Recipe d) (inv : Invocation)
    (s : Store) : Prop :=
  recipe = .wideProduct → ∀ alpha beta a b c,
    inv.inputSeen d 0 (inv.extents.rows * inv.extents.inner) s = .ok a →
    inv.inputSeen d 1 (inv.extents.inner * inv.extents.cols) s = .ok b →
    inv.outputSeen d (inv.extents.rows * inv.extents.cols) s = .ok c →
    (s.library d).KeepsTo alpha beta inv.extents a b c

/-- Views that suit hold the matrices of a product. -/
theorem Recipe.Suits.library {d : ElemType} {recipe : Recipe d} {inv : Invocation} {s : Store}
    (h : recipe.Suits inv s) : recipe.LibraryKeepsToViews inv s := by
  rintro rfl alpha beta a b c ha hb hc
  obtain ⟨hleft, hrest⟩ := List.forall_mem_cons.mp h.products
  obtain ⟨hright, hrest⟩ := List.forall_mem_cons.mp hrest
  exact Kernel.HoldsProduct.keepsTo _ _ _
    { left := Nat.le_of_eq (Invocation.size_of_inputSeen ha).symm
      right := Nat.le_of_eq (Invocation.size_of_inputSeen hb).symm
      result := Nat.le_of_eq (Invocation.size_of_outputSeen hc).symm
      leftLimit := hleft
      rightLimit := hright
      resultLimit := hrest _ List.mem_cons_self }

/-- A run of a recipe keeps to the views of its operands.  A kernel that reads or stores outside of a
view is trapped, and no admissible failure is such a trap.  The library is not watched like this; its
contract is what confines it. -/
structure Recipe.KeepsToViews {d : ElemType} (recipe : Recipe d) (inv : Invocation) {ε : Type}
    (admissible : ε → Prop) (s : Store) (r : Except ε Unit × Store) : Prop where
  /-- If the operands do not suit, the run fails and no byte of any block has changed. -/
  refused : ¬recipe.Suits inv s →
    (∃ e, r.1 = .error e) ∧ ∀ b, (r.2.block b).contents = (s.block b).contents
  /-- If they suit, no element outside of the views was read or written, and no buffer refused. -/
  inside : recipe.Suits inv s → FailsIn admissible r.1
  /-- If they suit, neither does the library read or write outside of the views. -/
  library : recipe.Suits inv s → recipe.LibraryKeepsToViews inv s
  /-- Only the output is written. -/
  others : ∀ b, b ≠ inv.output → (r.2.block b).contents = (s.block b).contents
  /-- The output is written only where its view is. -/
  behind : ∀ p, (recipe.outputView inv).bytes ≤ p →
    (r.2.block inv.output).contents[p]? = (s.block inv.output).contents[p]?

theorem Invocation.Settles.keepsToViews {d : ElemType} {recipe : Recipe d} {inv : Invocation}
    {x : Work Unit} (hx : inv.Settles False x fun s => recipe.effect inv s)
    (hrecipe : recipe.Admissible) (s : Store) :
    recipe.KeepsToViews inv RoutineFailure.Admissible s (x s) := by
  rcases hx.ends s False.elim with hstops | hyields
  · have hcontents := hstops.binds.contents
    exact
      { refused := fun _ => ⟨hstops.refused.exists_error, hcontents⟩
        inside := fun _ => hstops.refused.failsIn fun _ => RoutineFailure.admissible_of_refuses
        library := fun hsuits => hsuits.library
        others := fun b _ => hcontents b
        behind := fun p _ => by rw [hcontents] }
  cases heffect : recipe.effect inv s with
  | error e =>
    rw [heffect] at hyields
    obtain ⟨s', hbinds, hrun⟩ := hyields
    rw [hrun]
    refine ⟨fun _ => ⟨⟨e, rfl⟩, hbinds.contents⟩, fun hsuits => ?_, fun hsuits => hsuits.library,
      fun b _ => hbinds.contents b, ?_⟩
    · have hadmissible := Recipe.effect_admissible hrecipe fun v hv => (hsuits.views v hv).2
      exact .error (hadmissible.1 e heffect)
    · intro p _
      rw [hbinds.contents]
  | ok e =>
    rw [heffect] at hyields
    obtain ⟨s', hbinds, -, hrun⟩ := hyields
    obtain ⟨hproducts, hviews, hwithin⟩ := recipe.effect_bounded inv s e heffect
    rw [hrun]
    refine ⟨fun hsuits => absurd ⟨hproducts, hviews⟩ hsuits, fun _ => ?_,
      fun hsuits => hsuits.library, fun b hb => ?_, ?_⟩
    · have hadmissible := Recipe.effect_admissible hrecipe fun v hv => (hviews v hv).2
      exact hadmissible.2 e heffect
    · have hblock : (e.store inv s').block b = s'.block b :=
        Block.block_modifyBytes_of_ne (s := s'.modifyDevice inv.device e.restream) e.change hb.symm
      rw [hblock]
      exact hbinds.contents b
    · intro p hp
      rw [hwithin.contents inv s' hp, hbinds.contents]

/-- The same of a run whose failures are known by other names. -/
theorem Recipe.KeepsToViews.mapError {d : ElemType} {recipe : Recipe d} {inv : Invocation}
    {ε ε' : Type} {P : ε → Prop} {Q : ε' → Prop} {s : Store} {r : Except ε Unit × Store}
    (h : recipe.KeepsToViews inv P s r) {f : ε → ε'} (hf : ∀ e, P e → Q (f e)) :
    recipe.KeepsToViews inv Q s (r.1.mapError f, r.2) where
  refused hsuits := by
    obtain ⟨⟨e, he⟩, hcontents⟩ := h.refused hsuits
    refine ⟨⟨f e, ?_⟩, hcontents⟩
    dsimp only
    rw [he]
    rfl
  inside hsuits := (h.inside hsuits).mapError hf
  library := h.library
  others := h.others
  behind := h.behind

namespace Routine

/-- The recipe that a host routine follows. -/
def recipe? : Routine → Option ((d : ElemType) × Recipe d)
  | .catalog d op => (Recipe.ofOperation? d op).map fun recipe => ⟨d, recipe⟩
  | .singleProduct => some ⟨.float32, .wideProduct⟩
  | .doubleProduct => some ⟨.float64, .wideProduct⟩
  | .probe _ => none

theorem Serves.recipe? {key : RoutineKey} {routine : Routine} (h : routine.Serves key) :
    ∃ recipe : Recipe key.dtype, routine.recipe? = some ⟨key.dtype, recipe⟩ ∧
      recipe.Does key.op ∧ ∀ inv, routine.run inv = recipe.run inv := by
  obtain ⟨dtype, backend, op⟩ := key
  cases routine with
  | catalog d op' =>
    obtain ⟨rfl, rfl, hop⟩ := h
    obtain ⟨recipe, hrecipe⟩ := Recipe.exists_of_mem_operations hop
    dsimp only at hrecipe
    refine ⟨recipe, ?_, .catalog hrecipe, fun inv => ?_⟩
    · simp only [Routine.recipe?, hrecipe, Option.map_some]
    · simp only [run, hrecipe]
  | singleProduct =>
    obtain ⟨rfl, rfl⟩ := h
    exact ⟨.wideProduct, rfl, .wideProduct, fun _ => rfl⟩
  | doubleProduct =>
    obtain ⟨rfl, rfl⟩ := h
    exact ⟨.wideProduct, rfl, .wideProduct, fun _ => rfl⟩
  | probe p => exact h.elim

/-- Every routine of the host catalog keeps to the views of its operands, whatever it is launched
with, and so does every launch that finds it. -/
theorem host_routine_keeps_to_views {backend : Backend} {entry : RoutineKey × Routine}
    (hentry : entry ∈ hostCatalog backend) :
    ∃ recipe : Recipe entry.1.dtype, entry.2.recipe? = some ⟨entry.1.dtype, recipe⟩ ∧
      ∀ (inv : Invocation) (s : Store),
        recipe.KeepsToViews inv RoutineFailure.Admissible s (entry.2.run inv s) ∧
        ∀ op dtype, s.registry.lookup (.onDevice dtype op inv.device s) = .ok entry.2 →
          recipe.KeepsToViews inv Fault.Admissible s (launch op dtype inv s) := by
  obtain ⟨recipe, hrecipe, hdoes, hrun⟩ := (serves_of_mem_hostCatalog hentry).recipe?
  refine ⟨recipe, hrecipe, fun inv s => ?_⟩
  have hkeeps : recipe.KeepsToViews inv RoutineFailure.Admissible s (entry.2.run inv s) := by
    rw [hrun]
    exact (recipe.run_settles inv).keepsToViews hdoes.admissible s
  refine ⟨hkeeps, fun op dtype hlookup => ?_⟩
  have hlaunch : launch op dtype inv s =
      ((entry.2.run inv s).1.mapError
        (RoutineFailure.toFault (.onDevice dtype op inv.device s)), (entry.2.run inv s).2) := by
    rw [launch_eq, hlookup]
    exact Action.mapError_apply _ _ _
  rw [hlaunch]
  exact hkeeps.mapError fun _ he => RoutineFailure.toFault_admissible he

/-- Squares in place, in a block of three elements: a launch for four of them changes nothing, and a
launch for two of them leaves the third. -/
theorem squares_in_place_keep_to_view :
    let square : RoutineKey × Routine := (⟨.int32, .cpp, .square⟩, .catalog .int32 .square)
    let s : Store :=
      { devices := #[Device.host "default" none default]
        blocks := #[⟨0, 12, 1, .bound (Elem.encode (d := .int32) #[3, 4, 5])⟩]
        registry := .hostRegistry }
    let inv (n : Nat) : Invocation := { device := 0, inputs := [0], output := 0, count := n }
    square ∈ hostCatalog .cpp ∧
      ((∃ e, (square.2.run (inv 4) s).1 = .error e) ∧
        ∀ b, ((square.2.run (inv 4) s).2.block b).contents = (s.block b).contents) ∧
      FailsIn RoutineFailure.Admissible (square.2.run (inv 2) s).1 ∧
      (∀ p, 8 ≤ p →
        ((square.2.run (inv 2) s).2.block 0).contents[p]? = (s.block 0).contents[p]?) ∧
      Elem.decode .int32 3 ((square.2.run (inv 2) s).2.block 0).contents = #[9, 16, 5] := by
  intro square s inv
  have hcatalog : square ∈ hostCatalog .cpp := by decide +kernel
  obtain ⟨recipe, hrecipe, hkeeps⟩ := host_routine_keeps_to_views hcatalog
  obtain rfl : recipe = .map (arithmetic .int32).square := by
    have hsame := Option.some.inj hrecipe
    exact (eq_of_heq (Sigma.mk.inj hsame).2).symm
  have hlong : ¬(Recipe.map (arithmetic .int32).square).Suits (inv 4) s := by
    intro hsuits
    obtain ⟨-, b, hb, hle⟩ := hsuits.views _ List.mem_cons_self
    cases hb
    exact absurd hle (by decide)
  have hshort : (Recipe.map (arithmetic .int32).square).Suits (inv 2) s := by
    refine ⟨List.forall_mem_nil _, List.forall_mem_cons.mpr ⟨?_, List.forall_mem_singleton.mpr ?_⟩⟩
    · exact ⟨by decide, 0, rfl, by decide⟩
    · exact ⟨by decide, 0, rfl, by decide⟩
  refine ⟨hcatalog, (hkeeps (inv 4) s).1.refused hlong, (hkeeps (inv 2) s).1.inside hshort,
    fun p hp => (hkeeps (inv 2) s).1.behind p hp, ?_⟩
  decide +kernel

end Routine

end DeviceTensor
