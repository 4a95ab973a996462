import DeviceTensor.Proofs.Store.Binding
import DeviceTensor.Routine.Launch
set_option autoImplicit false

/-!
# What a routine does to its output

A routine looks at its operands, and then writes its output once.  `Recipe.effect` is the same work
as a function of the store: what becomes of the bytes of the output, how the routine ends, and where
the random stream then stands.  `Recipe.run_settles` says that running the recipe binds memory and
then has that effect, or stops because an operand is refused memory.
-/

namespace DeviceTensor

open DeviceTensor.Except DeviceTensor.Action

/-- What a routine leaves behind. -/
structure Effect where
  /-- What becomes of the bytes of the output. -/
  change : Array UInt8 → Array UInt8
  size_change : ∀ bytes, (change bytes).size = bytes.size
  result : Except RoutineFailure Unit
  /-- The stream of the device, if samples were drawn from it. -/
  stream : Option Stream := none

namespace Effect

/-- The effect of a kernel on the output. -/
def ofOutcome {d : ElemType} (o : Outcome (Elem d)) : Effect where
  change := Elem.overlay o.1
  size_change := Elem.size_overlay o.1
  result := o.2.mapError RoutineFailure.ofHalt

/-- No effect. -/
def idle : Effect where
  change := id
  size_change _ := rfl
  result := .ok ()

/-- The device with the stream that the effect leaves. -/
def restream (e : Effect) (d : Device) : Device :=
  match e.stream with
  | some stream => { d with stream := stream }
  | none => d

/-- The store after the effect. -/
def store (e : Effect) (inv : Invocation) (s : Store) : Store :=
  Block.modifyBytes inv.output e.change (s.modifyDevice inv.device e.restream)

end Effect

namespace Invocation

variable (inv : Invocation) {d : ElemType}

/-! ## Looks at operands -/

/-- What the routine sees of input `index`. -/
def inputSeen (d : ElemType) (index count : Nat) (s : Store) :
    Except RoutineFailure (Array (Elem d)) :=
  match inv.inputs[index]? with
  | none => .error (.fault (.trap (.outOfBounds inv.inputs.length index)))
  | some b => (Block.seen b d count s).mapError .fault

/-- What the routine sees of the output. -/
def outputSeen (d : ElemType) (count : Nat) (s : Store) : Except RoutineFailure (Array (Elem d)) :=
  (Block.seen inv.output d count s).mapError .fault

/-- A scalar as an element. -/
def scalarSeen (d : ElemType) (x : Double) : Except RoutineFailure (Elem d) :=
  match Elem.cast .float64 d x with
  | some y => .ok y
  | none => .error (.refused (.castOutOfRange 0))

/-- A size. -/
def sizeSeen (x : Except Trap Nat) : Except RoutineFailure Nat :=
  x.mapError fun t => .fault (.trap t)

/-- The blocks of all operands. -/
def blocks : List BlockId := inv.output :: inv.inputs

theorem input_reads (index count : Nat) :
    Reads inv.blocks (inv.input d index count) (inv.inputSeen d index count) := by
  unfold input inputSeen
  cases hb : inv.inputs[index]? with
  | none => exact .fail Bool.false_ne_true
  | some b =>
    have hmem : b ∈ inv.blocks := List.mem_cons_of_mem _ (List.mem_of_getElem? hb)
    exact .mapError (Block.view_reads hmem d count) fun _ => rfl

theorem output_reads (count : Nat) :
    Reads inv.blocks (inv.output? d count) (inv.outputSeen d count) :=
  .mapError (Block.view_reads List.mem_cons_self d count) fun _ => rfl

theorem scalar_reads (x : Double) : Reads inv.blocks (scalar d x) fun _ => scalarSeen d x := by
  unfold scalar scalarSeen
  cases Elem.cast .float64 d x with
  | none => exact .fail Bool.false_ne_true
  | some y => exact .pure y

theorem size_reads (x : Except Trap Nat) : Reads inv.blocks (size x) fun _ => sizeSeen x := by
  unfold size sizeSeen
  cases x with
  | ok n => exact .ofExcept id
  | error t => exact .ofExcept Bool.false_ne_true

/-- A kernel that has ended asks for no memory. -/
theorem settle_not_refused (o : Outcome (Elem d)) (s : Store) : ¬Refused (inv.settle o s).1 := by
  obtain ⟨dst, r⟩ := o
  change ¬Refused (r.mapError RoutineFailure.ofHalt)
  cases r with
  | ok u => exact id
  | error e => cases e <;> exact Bool.false_ne_true

/-! ## Looks followed by one effect -/

/-- The output has memory. -/
def Ready (s : Store) : Prop :=
  inv.output < s.blocks.size → (s.block inv.output).memory ≠ .unbound

theorem Ready.of_binds {inv : Invocation} {s s' : Store} (h : inv.Ready s) (hs : s.Binds s') :
    inv.Ready s' := by
  intro hlt
  rw [hs.blocks] at hlt
  rw [hs.memory_of_ne (h hlt)]
  exact h hlt

/-- The action stops because an operand is refused memory. -/
structure Stops {ε α : Type} [MemoryFailure ε] (x : Action ε α) (s : Store) : Prop where
  refused : Refused (x s).1
  binds : s.Binds (x s).2
  short : ∃ b ∈ inv.blocks, ¬s.Supplies b

/-- The work binds memory, and then fails or has an effect. -/
def Yields (x : Work Unit) (s : Store) : Except RoutineFailure Effect → Prop
  | .error e => ∃ s', s.Binds s' ∧ x s = (.error e, s')
  | .ok e => ∃ s', s.Binds s' ∧ (inv.Ready s' ∨ e.change = id) ∧ x s = (e.result, e.store inv s')

/-- The work looks at the store and then has the effect that `p` sees, if no operand is refused
memory.  `ready` says that the output has been viewed before. -/
structure Settles (ready : Prop) (x : Work Unit) (p : Store → Except RoutineFailure Effect) :
    Prop where
  ends : ∀ s, (ready → inv.Ready s) → inv.Stops x s ∨ inv.Yields x s (p s)
  stable : ∀ s s', s.Binds s' → p s' = p s
  calm : ∀ s, ¬Refused (p s >>= Effect.result)

variable {inv}

/-- What an action does after it has bound memory. -/
theorem Stops.after {ε α β : Type} [MemoryFailure ε] {x : Action ε α} {next : α → Action ε β}
    {s s' : Store} {a : α} (hx : x s = (.ok a, s')) (hs : s.Binds s')
    (h : inv.Stops (next a) s') : inv.Stops (x >>= next) s := by
  obtain ⟨b, hb, hshort⟩ := h.short
  refine ⟨?_, ?_, b, hb, fun hsupplies => hshort (hsupplies.of_binds hs)⟩
  · rw [bind_apply_of_ok hx]
    exact h.refused
  · rw [bind_apply_of_ok hx]
    exact hs.trans h.binds

/-- Work stops with a look that does not show what is there. -/
theorem Stops.of_reads {α β : Type} {y : Work α} {q : Store → Except RoutineFailure α} {s : Store}
    {a : α} (hy : Reads inv.blocks y q) (hq : q s = .ok a) (hne : (y s).1 ≠ .ok a)
    (next : α → Work β) : inv.Stops (y >>= next) s := by
  have hb := hy.binds s
  obtain ⟨hrefused, hshort⟩ := (hy.result s).resolve_left fun h => hne (h.trans hq)
  obtain ⟨e, he⟩ := hrefused.exists_error
  have hrun : y s = (.error e, (y s).2) := Prod.ext he rfl
  rw [he] at hrefused
  refine ⟨?_, ?_, hshort⟩ <;> rw [bind_apply_of_error hrun]
  · exact hrefused
  · exact hb

theorem Yields.after {α : Type} {x : Work α} {next : α → Work Unit} {s s' : Store} {a : α}
    {r : Except RoutineFailure Effect} (hx : x s = (.ok a, s')) (hs : s.Binds s')
    (h : inv.Yields (next a) s' r) : inv.Yields (x >>= next) s r := by
  cases r with
  | error e =>
    obtain ⟨t, ht, hrun⟩ := h
    exact ⟨t, hs.trans ht, (bind_apply_of_ok hx next).trans hrun⟩
  | ok e =>
    obtain ⟨t, ht, hready, hrun⟩ := h
    exact ⟨t, hs.trans ht, hready, (bind_apply_of_ok hx next).trans hrun⟩

namespace Settles

variable {ready : Prop} {α : Type}

theorem fail {e : RoutineFailure} (he : ¬MemoryFailure.refuses e = true) :
    inv.Settles ready (Action.fail e) fun _ => .error e where
  ends s _ := .inr ⟨s, .refl s, rfl⟩
  stable _ _ _ := rfl
  calm _ := he

/-- A look, and work that settles from there on. -/
theorem after {ready' : Prop} {y : Work α} {q : Store → Except RoutineFailure α}
    {next : α → Work Unit} {p : α → Store → Except RoutineFailure Effect}
    (hy : Reads inv.blocks y q) (hn : ∀ a, inv.Settles ready' (next a) (p a))
    (hready : ∀ s a s', y s = (.ok a, s') → (ready → inv.Ready s) → ready' → inv.Ready s') :
    inv.Settles ready (y >>= next) fun s => q s >>= fun a => p a s where
  ends s hr := by
    have hb := hy.binds s
    have hq := hy.result s
    cases hs : y s with
    | mk r s₁ =>
      rw [hs] at hb hq
      cases r with
      | error e =>
        rcases hq with hq | ⟨hrefused, hshort⟩
        · refine .inr ?_
          rw [← hq]
          exact ⟨s₁, hb, bind_apply_of_error hs next⟩
        · refine .inl ⟨?_, ?_, hshort⟩ <;> rw [bind_apply_of_error hs]
          · exact hrefused
          · exact hb
      | ok a =>
        have hq : q s = .ok a := (hq.resolve_right fun h => h.1).symm
        rw [hq]
        rcases (hn a).ends s₁ (hready s a s₁ hs hr) with hstops | hyields
        · exact .inl (hstops.after hs hb)
        · rw [(hn a).stable s s₁ hb] at hyields
          exact .inr (hyields.after hs hb)
  stable s s' h := by
    rw [hy.stable s s' h]
    cases q s with
    | ok a => exact (hn a).stable s s' h
    | error e => rfl
  calm s := by
    have hq := hy.calm s
    cases hs : q s with
    | ok a => exact (hn a).calm s
    | error e =>
      rw [hs] at hq
      exact hq

theorem bind {y : Work α} {q : Store → Except RoutineFailure α} {next : α → Work Unit}
    {p : α → Store → Except RoutineFailure Effect} (hy : Reads inv.blocks y q)
    (hn : ∀ a, inv.Settles ready (next a) (p a)) :
    inv.Settles ready (y >>= next) fun s => q s >>= fun a => p a s := by
  refine .after hy hn fun s a s' hs hr hp => (hr hp).of_binds ?_
  have hb := hy.binds s
  rwa [hs] at hb

/-- A view of the output leaves it ready. -/
theorem ready_of_output {d : ElemType} {count : Nat} {s s' : Store} {dst : Array (Elem d)}
    (h : inv.output? d count s = (.ok dst, s')) : inv.Ready s' := by
  have hb := (inv.output_reads (d := d) count).binds s
  rw [h] at hb
  intro hlt
  rw [hb.blocks] at hlt
  simp only [Invocation.output?, perform, Action.mapError, Block.view, Action.bind_apply,
    Action.examine] at h
  cases hc : Block.checkView inv.output d count s with
  | error e => simp [hc] at h
  | ok u =>
    cases hm : Block.bindMemory inv.output s with
    | mk r s₁ =>
      cases r with
      | error e => simp [hc, hm] at h
      | ok u =>
        simp only [hc, hm, Action.inspect, Prod.mk.injEq] at h
        obtain ⟨-, rfl⟩ := h
        exact Block.bindMemory_memory hlt hm

theorem output {d : ElemType} {count : Nat} {next : Array (Elem d) → Work Unit}
    {p : Array (Elem d) → Store → Except RoutineFailure Effect}
    (hn : ∀ dst, inv.Settles True (next dst) (p dst)) :
    inv.Settles ready (inv.output? d count >>= next)
      fun s => inv.outputSeen d count s >>= fun dst => p dst s :=
  .after (inv.output_reads count) hn fun _ _ _ hs _ _ => ready_of_output hs

/-- A kernel writes what it leaves, and ends as it ended. -/
theorem settle {d : ElemType} (o : Outcome (Elem d)) :
    inv.Settles True (inv.settle o) fun _ => .ok (.ofOutcome o) where
  ends s hr := by
    refine .inr ⟨s, .refl s, .inl (hr trivial), ?_⟩
    have hsame : s.modifyDevice inv.device (Effect.ofOutcome o).restream = s :=
      Store.modifyDevice_id inv.device
    unfold Effect.store
    rw [hsame]
    rfl
  stable _ _ _ := rfl
  calm := inv.settle_not_refused o

/-- A kernel on the first elements of the output. -/
theorem run {d : ElemType} (count : Nat) (kernel : Array (Elem d) → Outcome (Elem d)) :
    inv.Settles ready (inv.run d count kernel)
      fun s => inv.outputSeen d count s >>= fun dst => .ok (.ofOutcome (kernel dst)) :=
  .output fun dst => .settle (kernel dst)

end Settles

end Invocation

/-! ## The effect of each recipe -/

namespace Recipe

open Invocation

variable {d : ElemType} (inv : Invocation)

/-- The effect of combining a vector with every row of the output. -/
def rowEffect (f : Elem d → Elem d → Except Trap (Elem d)) (s : Store) :
    Except RoutineFailure Effect := do
  let g := inv.extents.grid
  let v ← inv.inputSeen d 0 g.cols s
  let count ← sizeSeen g.checkedSize
  let dst ← inv.outputSeen d count s
  return .ofOutcome (Kernel.broadcastRow f v g dst)

/-- The effect of combining a vector with every column of the output. -/
def columnEffect (f : Elem d → Elem d → Except Trap (Elem d)) (s : Store) :
    Except RoutineFailure Effect := do
  let g := inv.extents.grid
  let v ← inv.inputSeen d 0 g.rows s
  let count ← sizeSeen g.checkedSize
  let dst ← inv.outputSeen d count s
  return .ofOutcome (Kernel.broadcastColumn f v g dst)

/-- The effect of a fill with samples on the elements `dst`. -/
def samplesEffect (D : Distribution) (dst : Array (Elem d)) (device : Device) : Effect :=
  let (o, stream) := Kernel.fillSamples D (device.draws D) (Elem.cast .float64 d) dst device.stream
  { Effect.ofOutcome o with stream := some stream }

/-- The effect of a fill with samples. -/
def randomEffect (d : ElemType) (D : Distribution) (s : Store) : Except RoutineFailure Effect := do
  let dst ← inv.outputSeen d inv.count s
  return samplesEffect D dst (s.device inv.device)

/-- The effect of a product kernel. -/
def productEffect
    (kernel : Elem d → Array (Elem d) → Array (Elem d) → Elem d → Array (Elem d) →
      Outcome (Elem d)) (s : Store) : Except RoutineFailure Effect := do
  let x := inv.extents
  let a ← inv.inputSeen d 0 (← sizeSeen (Size.mul x.rows x.inner)) s
  let b ← inv.inputSeen d 1 (← sizeSeen (Size.mul x.inner x.cols)) s
  let c ← inv.outputSeen d (← sizeSeen (Size.mul x.rows x.cols)) s
  let alpha ← scalarSeen d inv.alpha
  let beta ← scalarSeen d inv.beta
  return .ofOutcome (kernel alpha a b beta c)

/-- The effect of a recipe. -/
def effect (s : Store) : Recipe d → Except RoutineFailure Effect
  | .map f => do
    let src ← inv.inputSeen d 0 inv.count s
    let dst ← inv.outputSeen d inv.count s
    return .ofOutcome (Kernel.map f src dst)
  | .mapScalar f => do
    let v ← scalarSeen d inv.alpha
    let src ← inv.inputSeen d 0 inv.count s
    let dst ← inv.outputSeen d inv.count s
    return .ofOutcome (Kernel.map (f · v) src dst)
  | .zip f => do
    let lhs ← inv.inputSeen d 0 inv.count s
    let rhs ← inv.inputSeen d 1 inv.count s
    let dst ← inv.outputSeen d inv.count s
    return .ofOutcome (Kernel.zip f lhs rhs dst)
  | .fill => do
    let dst ← inv.outputSeen d inv.count s
    let v ← scalarSeen d inv.alpha
    return .ofOutcome (Kernel.fill v dst)
  | .cast => do
    let src ← inv.inputSeen d 0 inv.count s
    let dst ← inv.outputSeen inv.outType inv.count s
    return .ofOutcome (Kernel.cast (Elem.cast d inv.outType) src dst)
  | .reduce f => do
    let src ← inv.inputSeen d 0 inv.count s
    let dst ← inv.outputSeen .float64 1 s
    return .ofOutcome (Kernel.fill (f src) dst)
  | .softmax F => do
    let g := inv.extents.grid
    let count ← sizeSeen g.checkedSize
    let src ← inv.inputSeen d 0 count s
    let dst ← inv.outputSeen d count s
    return .ofOutcome (Kernel.softmax (arithmetic d) F src g dst)
  | .row f => rowEffect inv f s
  | .column f => columnEffect inv f s
  | .scaledRow => do
    let alpha ← scalarSeen d inv.alpha
    let beta ← scalarSeen d inv.beta
    rowEffect inv (fun m v => (arithmetic d).combine alpha v beta m) s
  | .scaledColumn => do
    let alpha ← scalarSeen d inv.alpha
    let beta ← scalarSeen d inv.beta
    columnEffect inv (fun m v => (arithmetic d).combine alpha v beta m) s
  | .sumRows => do
    let g := inv.extents.grid
    let m ← inv.inputSeen d 0 (← sizeSeen g.checkedSize) s
    let dst ← inv.outputSeen d g.cols s
    return .ofOutcome (Kernel.sumRows (arithmetic d) m g dst)
  | .sumColumns => do
    let g := inv.extents.grid
    let m ← inv.inputSeen d 0 (← sizeSeen g.checkedSize) s
    let dst ← inv.outputSeen d g.rows s
    return .ofOutcome (Kernel.sumColumns (arithmetic d) m g dst)
  | .random D => randomEffect inv d (D inv.alpha inv.beta) s
  | .addScaled => do
    let x ← inv.inputSeen d 0 inv.count s
    let alpha ← scalarSeen d inv.alpha
    let dst ← inv.outputSeen d inv.count s
    return .ofOutcome (Kernel.addScaled (arithmetic d) alpha x dst)
  | .product => productEffect inv (fun alpha a b beta =>
      Kernel.product (arithmetic d) alpha a b beta inv.extents) s
  | .wideProduct => productEffect inv (fun alpha a b beta =>
      Kernel.wideProduct (arithmetic d) (s.library d) alpha a b beta inv.extents) s

theorem runRow_settles (f : Elem d → Elem d → Except Trap (Elem d)) :
    inv.Settles False (runRow inv f) (rowEffect inv f) := by
  refine .bind (inv.input_reads 0 _) fun v => ?_
  refine .bind (inv.size_reads _) fun count => ?_
  exact .run count _

theorem runColumn_settles (f : Elem d → Elem d → Except Trap (Elem d)) :
    inv.Settles False (runColumn inv f) (columnEffect inv f) := by
  refine .bind (inv.input_reads 0 _) fun v => ?_
  refine .bind (inv.size_reads _) fun count => ?_
  exact .run count _

theorem runRandom_settles (d : ElemType) (D : Distribution) :
    inv.Settles False (runRandom inv d D) (randomEffect inv d D) := by
  refine .output fun dst => ?_
  constructor
  · intro s hr
    exact .inr ⟨s, .refl s, .inl (hr trivial), rfl⟩
  · intro s s' h
    have hdraws : samplesEffect D dst (s'.device inv.device) =
        samplesEffect D dst (s.device inv.device) := by
      unfold samplesEffect
      rw [h.draws, h.stream]
    exact congrArg Except.ok hdraws
  · intro s
    exact inv.settle_not_refused (Kernel.fillSamples D ((s.device inv.device).draws D)
      (Elem.cast .float64 d) dst (s.device inv.device).stream).1 s

theorem runProduct_settles
    (kernel : Elem d → Array (Elem d) → Array (Elem d) → Elem d → Array (Elem d) →
      Outcome (Elem d)) :
    inv.Settles False (runProduct inv kernel) (productEffect inv kernel) := by
  refine .bind (inv.size_reads _) fun _ => .bind (inv.input_reads 0 _) fun a => ?_
  refine .bind (inv.size_reads _) fun _ => .bind (inv.input_reads 1 _) fun b => ?_
  refine .bind (inv.size_reads _) fun _ => .output fun c => ?_
  refine .bind (inv.scalar_reads _) fun alpha => .bind (inv.scalar_reads _) fun beta => ?_
  exact .settle _

/-- Running a recipe binds memory and has its effect. -/
theorem run_settles (recipe : Recipe d) :
    inv.Settles False (recipe.run inv) fun s => recipe.effect inv s := by
  cases recipe with
  | map f => exact .bind (inv.input_reads 0 _) fun src => .run _ _
  | mapScalar f =>
    exact .bind (inv.scalar_reads _) fun v => .bind (inv.input_reads 0 _) fun src => .run _ _
  | zip f =>
    exact .bind (inv.input_reads 0 _) fun lhs => .bind (inv.input_reads 1 _) fun rhs => .run _ _
  | fill => exact .output fun dst => .bind (inv.scalar_reads _) fun v => .settle _
  | cast => exact .bind (inv.input_reads 0 _) fun src => .run _ _
  | reduce f => exact .bind (inv.input_reads 0 _) fun src => .run _ _
  | softmax F =>
    exact .bind (inv.size_reads _) fun count => .bind (inv.input_reads 0 _) fun src => .run _ _
  | row f => exact runRow_settles inv f
  | column f => exact runColumn_settles inv f
  | scaledRow =>
    exact .bind (inv.scalar_reads _) fun alpha => .bind (inv.scalar_reads _) fun beta =>
      runRow_settles inv _
  | scaledColumn =>
    exact .bind (inv.scalar_reads _) fun alpha => .bind (inv.scalar_reads _) fun beta =>
      runColumn_settles inv _
  | sumRows =>
    exact .bind (inv.size_reads _) fun count => .bind (inv.input_reads 0 _) fun m => .run _ _
  | sumColumns =>
    exact .bind (inv.size_reads _) fun count => .bind (inv.input_reads 0 _) fun m => .run _ _
  | random D => exact runRandom_settles inv d _
  | addScaled =>
    exact .bind (inv.input_reads 0 _) fun x => .bind (inv.scalar_reads _) fun alpha => .run _ _
  | product => exact runProduct_settles inv _
  | wideProduct =>
    have hlibrary : Reads inv.blocks
        (Action.inspect fun s => s.library d : Work (Kernel.WideProduct _))
        fun s => .ok (s.library d) := .inspect fun s s' h => by rw [h.library]
    exact .bind hlibrary fun P => runProduct_settles inv fun alpha a b beta =>
      Kernel.wideProduct (arithmetic d) P alpha a b beta inv.extents

end Recipe

end DeviceTensor
