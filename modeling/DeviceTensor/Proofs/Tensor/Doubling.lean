import DeviceTensor.Proofs.Tensor.Running
import DeviceTensor.Proofs.Tensor.Tracking
set_option autoImplicit false

/-!
# A second handle while an operation runs

A compound assignment reads its left side by way of a second handle, and a conversion in place holds
one on the block that it converts.  Routines take no notice of handles, `Action.Heedless`, so that
nothing changes if an operation holds a second handle while it runs: `Tensor.doubled`.
-/

namespace DeviceTensor

open DeviceTensor.Action

/-! ## Updates beside a handle -/

namespace Store

variable {s : Store} {b c : BlockId}

/-- A change of a block that is the same with one handle more. -/
theorem modifyBlock_retain {f : Block → Block}
    (hf : ∀ k, f { k with handles := k.handles + 1 } =
      { f k with handles := (f k).handles + 1 }) :
    (s.retain b).modifyBlock c f = (s.modifyBlock c f).retain b := by
  have hblocks : (s.blocks.modify b fun k => { k with handles := k.handles + 1 }).modify c f =
      (s.blocks.modify c f).modify b fun k => { k with handles := k.handles + 1 } := by
    apply Array.ext
    · simp only [Array.size_modify]
    · intro i h₁ h₂
      simp only [Array.getElem_modify]
      by_cases hb : b = i
      · by_cases hc : c = i
        · rw [if_pos hb, if_pos hc, if_pos hc, if_pos hb, hf]
        · rw [if_neg hc, if_neg hc]
      · rw [if_neg hb, if_neg hb]
  unfold retain modifyBlock
  rw [hblocks]

/-- A handle that is taken and given back at once. -/
theorem retain_release (h : 0 < (s.block b).handles) : (s.retain b).release b = s := by
  have hlt := lt_of_handles h
  have hmore : ((s.retain b).block b).handles = (s.block b).handles + 1 := by
    rw [retain, block_modifyBlock_self _ hlt]
  have hblocks : (s.blocks.modify b fun k => { k with handles := k.handles + 1 }).modify b
      (fun k => { k with handles := k.handles - 1 }) = s.blocks := by
    apply Array.ext
    · simp only [Array.size_modify]
    · intro i h₁ h₂
      simp only [Array.getElem_modify]
      by_cases hb : b = i
      · rw [if_pos hb, if_pos hb]
        rfl
      · rw [if_neg hb, if_neg hb]
  unfold release
  dsimp only
  rw [hmore, if_neg (by omega)]
  unfold retain modifyBlock
  rw [hblocks]

theorem sight_retain (s : Store) (b c : BlockId) :
    Block.sight c (s.retain b) = Block.sight c s := by
  have hkeeps {γ : Type} (g : Block → γ)
      (hg : ∀ k, g { k with handles := k.handles + 1 } = g k) :
      g ((s.retain b).block c) = g (s.block c) := modifyBlock_keeps g (hg _) c
  have hplace := hkeeps Block.device fun _ => rfl
  have hsize := hkeeps Block.size fun _ => rfl
  have hcontents := hkeeps Block.contents fun _ => rfl
  have howner : (s.retain b).owner c = s.owner c := congrArg s.device hplace
  unfold Block.sight
  rw [howner, hsize, hcontents]

theorem shows_retain (s : Store) (b : BlockId) : s.Shows (s.retain b) where
  toExtends := s.extends_retain b
  stream _ := rfl
  sight c _ := s.sight_retain b c

end Store

/-! ## Heedless actions -/

namespace Action

variable {ε ε' α β : Type} {b : BlockId}

/-- One more handle on `b` makes no difference, and is still there in the end. -/
def Heedless (b : BlockId) (x : Action ε α) : Prop :=
  ∀ s, x (s.retain b) = ((x s).1, (x s).2.retain b)

namespace Heedless

theorem pure (a : α) : (Pure.pure a : Action ε α).Heedless b := fun _ => rfl

theorem fail (e : ε) : (Action.fail e : Action ε α).Heedless b := fun _ => rfl

theorem ofExcept (x : Except ε α) : (Action.ofExcept x).Heedless b := fun _ => rfl

theorem inspect {f : Store → α} (h : ∀ s, f (s.retain b) = f s) :
    (Action.inspect f : Action ε α).Heedless b :=
  fun s => congrArg (fun a => (Except.ok a, s.retain b)) (h s)

theorem examine {f : Store → Except ε α} (h : ∀ s, f (s.retain b) = f s) :
    (Action.examine f).Heedless b :=
  fun s => congrArg (fun a => (a, s.retain b)) (h s)

theorem change {f : Store → Store} (h : ∀ s, f (s.retain b) = (f s).retain b) :
    (Action.change f : Action ε Unit).Heedless b :=
  fun s => congrArg (fun t => (Except.ok (), t)) (h s)

theorem bind {x : Action ε β} {next : β → Action ε α} (hx : x.Heedless b)
    (hn : ∀ a, (next a).Heedless b) : (x >>= next).Heedless b := by
  intro s
  rw [bind_apply, bind_apply, hx s]
  cases hs : x s with
  | mk r t =>
    cases r with
    | ok a => exact hn a t
    | error e => rfl

theorem ite {c : Prop} [Decidable c] {x y : Action ε α} (hx : x.Heedless b)
    (hy : y.Heedless b) : (if c then x else y).Heedless b := by
  split
  · exact hx
  · exact hy

theorem mapError {f : ε' → ε} {x : Action ε' α} (h : x.Heedless b) :
    (x.mapError f).Heedless b := by
  intro s
  rw [mapError_apply, mapError_apply, h s]

end Heedless

end Action

/-! ## Routines -/

variable {b : BlockId}

namespace Block

theorem modifyBytes_heedless (c : BlockId) (f : Array UInt8 → Array UInt8) {ε : Type} :
    (Action.change (modifyBytes c f) : Action ε Unit).Heedless b := by
  refine .change fun s => Store.modifyBlock_retain fun k => ?_
  cases k with
  | mk device size handles memory => cases memory <;> rfl

theorem bindMemory_heedless (c : BlockId) : (bindMemory c).Heedless b := by
  intro s
  have hkeeps {γ : Type} (g : Block → γ)
      (hg : ∀ k, g { k with handles := k.handles + 1 } = g k) :
      g ((s.retain b).block c) = g (s.block c) := Store.modifyBlock_keeps g (hg _) c
  unfold bindMemory
  dsimp only
  rw [hkeeps Block.memory fun _ => rfl, hkeeps Block.device fun _ => rfl,
    hkeeps Block.size fun _ => rfl, Store.device_retain]
  cases (s.block c).memory with
  | bound bytes => rfl
  | released => rfl
  | unbound =>
    dsimp only
    cases (s.device (s.block c).device).allocate (s.block c).size with
    | error e => rfl
    | ok owner =>
      have hbound := Store.modifyBlock_retain (b := b) (c := c)
        (s := s.modifyDevice (s.block c).device fun _ => owner)
        (f := fun k => { k with memory := .bound (Array.replicate (s.block c).size 0) })
        fun _ => rfl
      exact congrArg (Prod.mk _) hbound

theorem view_heedless (c : BlockId) (d : ElemType) (count : Nat) :
    (view c d count).Heedless b := by
  refine .bind (.examine fun s => checkView_congr (s.sight_retain b c) d count) fun _ => ?_
  refine .bind (bindMemory_heedless c) fun _ => .inspect fun s => ?_
  exact congrArg (Elem.decode d count) (Store.modifyBlock_keeps Block.contents rfl c)

theorem write_heedless {d : ElemType} (c : BlockId) (xs : Array (Elem d)) :
    (write c xs).Heedless b := by
  refine .bind (.examine fun s => checkView_congr (s.sight_retain b c) d xs.size) fun _ => ?_
  exact .bind (bindMemory_heedless c) fun _ => modifyBytes_heedless c _

end Block

namespace Invocation

variable {inv : Invocation} {d : ElemType}

theorem input_heedless (index count : Nat) : (inv.input d index count).Heedless b := by
  unfold input
  split
  · exact .fail _
  · exact .mapError (Block.view_heedless _ d count)

theorem output_heedless (count : Nat) : (inv.output? d count).Heedless b :=
  .mapError (Block.view_heedless _ d count)

theorem scalar_heedless (x : Double) : (scalar d x).Heedless b := by
  unfold scalar
  split
  · exact .pure _
  · exact .fail _

theorem settle_heedless (o : Outcome (Elem d)) : (inv.settle o).Heedless b :=
  .bind (Block.modifyBytes_heedless _ _) fun _ => .ofExcept _

theorem run_heedless (count : Nat) (kernel : Array (Elem d) → Outcome (Elem d)) :
    (inv.run d count kernel).Heedless b :=
  .bind (output_heedless count) fun _ => settle_heedless _

end Invocation

namespace Recipe

open Invocation

variable {inv : Invocation} {d : ElemType}

theorem runRow_heedless (f : Elem d → Elem d → Except Trap (Elem d)) :
    (runRow inv f).Heedless b :=
  .bind (input_heedless _ _) fun _ => .bind (.ofExcept _) fun _ => run_heedless _ _

theorem runColumn_heedless (f : Elem d → Elem d → Except Trap (Elem d)) :
    (runColumn inv f).Heedless b :=
  .bind (input_heedless _ _) fun _ => .bind (.ofExcept _) fun _ => run_heedless _ _

theorem runRandom_heedless (D : Distribution) : (runRandom inv d D).Heedless b := by
  refine .bind (output_heedless _) fun dst => .bind (.inspect fun _ => rfl) fun device => ?_
  exact .bind (.change fun _ => rfl) fun _ => settle_heedless _

theorem runProduct_heedless (kernel : Elem d → Array (Elem d) → Array (Elem d) → Elem d →
    Array (Elem d) → Outcome (Elem d)) : (runProduct inv kernel).Heedless b := by
  refine .bind (.ofExcept _) fun _ => .bind (input_heedless _ _) fun _ => ?_
  refine .bind (.ofExcept _) fun _ => .bind (input_heedless _ _) fun _ => ?_
  refine .bind (.ofExcept _) fun _ => .bind (output_heedless _) fun _ => ?_
  exact .bind (scalar_heedless _) fun _ => .bind (scalar_heedless _) fun _ => settle_heedless _

theorem run_heedless (recipe : Recipe d) : (recipe.run inv).Heedless b := by
  cases recipe with
  | map f => exact .bind (input_heedless _ _) fun _ => Invocation.run_heedless _ _
  | mapScalar f =>
    exact .bind (scalar_heedless _) fun _ => .bind (input_heedless _ _) fun _ =>
      Invocation.run_heedless _ _
  | zip f =>
    exact .bind (input_heedless _ _) fun _ => .bind (input_heedless _ _) fun _ =>
      Invocation.run_heedless _ _
  | fill =>
    exact .bind (output_heedless _) fun _ => .bind (scalar_heedless _) fun _ => settle_heedless _
  | cast => exact .bind (input_heedless _ _) fun _ => Invocation.run_heedless _ _
  | reduce f => exact .bind (input_heedless _ _) fun _ => Invocation.run_heedless _ _
  | softmax F =>
    exact .bind (.ofExcept _) fun _ => .bind (input_heedless _ _) fun _ =>
      Invocation.run_heedless _ _
  | row f => exact runRow_heedless f
  | column f => exact runColumn_heedless f
  | scaledRow =>
    exact .bind (scalar_heedless _) fun _ => .bind (scalar_heedless _) fun _ => runRow_heedless _
  | scaledColumn =>
    exact .bind (scalar_heedless _) fun _ => .bind (scalar_heedless _) fun _ =>
      runColumn_heedless _
  | sumRows =>
    exact .bind (.ofExcept _) fun _ => .bind (input_heedless _ _) fun _ =>
      Invocation.run_heedless _ _
  | sumColumns =>
    exact .bind (.ofExcept _) fun _ => .bind (input_heedless _ _) fun _ =>
      Invocation.run_heedless _ _
  | random D => exact runRandom_heedless _
  | addScaled =>
    exact .bind (input_heedless _ _) fun _ => .bind (scalar_heedless _) fun _ =>
      Invocation.run_heedless _ _
  | product => exact runProduct_heedless _
  | wideProduct => exact .bind (.inspect fun _ => rfl) fun _ => runProduct_heedless _

end Recipe

theorem Probe.run_heedless {inv : Invocation} (p : Probe) : (p.run inv).Heedless b := by
  cases p with
  | idle => exact .pure ()
  | ramp =>
    refine .bind (.inspect fun s => ?_) fun _ => .mapError (Block.write_heedless _ _)
    exact Store.modifyBlock_keeps Block.size rfl _
  | unsupported => exact .fail _
  | mismatch => exact .fail _
  | echo => exact .fail _

theorem Routine.run_heedless {inv : Invocation} (routine : Routine) :
    (routine.run inv).Heedless b := by
  cases routine with
  | catalog d op =>
    unfold run
    dsimp only
    split
    · exact Recipe.run_heedless _
    · exact .fail _
  | singleProduct => exact Recipe.run_heedless .wideProduct
  | doubleProduct => exact Recipe.run_heedless .wideProduct
  | probe p => exact p.run_heedless

theorem launch_heedless (op : Operation) (dtype : ElemType) (inv : Invocation) :
    (launch op dtype inv).Heedless b := by
  intro s
  have hkey : RoutineKey.onDevice dtype op inv.device (s.retain b) =
      RoutineKey.onDevice dtype op inv.device s := rfl
  rw [launch_eq, launch_eq, hkey, Store.registry_retain]
  split
  · rfl
  · exact (Routine.run_heedless _).mapError s

/-! ## Operations -/

namespace Tensor

variable {t : Tensor} {s : Store} {α : Type}

theorem count_retain (t : Tensor) (s : Store) (b : BlockId) :
    t.count (s.retain b) = t.count s := by
  unfold Tensor.count byteSize
  cases t.block with
  | none => rfl
  | some c => exact congrArg (· / t.dtype.width) (Store.modifyBlock_keeps Block.size rfl c)

theorem isBound_retain (t : Tensor) (s : Store) (b : BlockId) :
    t.isBound (s.retain b) = t.isBound s := by
  unfold isBound
  cases t.block with
  | none => rfl
  | some c => exact Store.modifyBlock_keeps (fun k => k.memory.isBound) rfl c

theorem castTo_heedless (t : Tensor) (src : BlockId) (d : ElemType) (target : BlockId) :
    (t.castTo src d target).Heedless b := by
  refine .bind (.inspect fun s => t.isBound_retain s b) fun _ => ?_
  refine .bind (.inspect fun s => t.count_retain s b) fun _ => .ite ?_ (.pure ())
  exact launch_heedless _ _ _

theorem into_heedless (c : Computation) (out : Tensor) : (c.into out).Heedless b := by
  rw [show c.into out = _ from funext (c.into_eq out)]
  refine .bind (.examine fun s => ?_) fun i => launch_heedless i.op i.dtype i.inv
  exact Computation.plan_of_shows (s.shows_retain b) (fun t => t.count_retain s b) c out

theorem assign_heedless (f : Operator) (t : Tensor) (rhs : RightSide) :
    (assign f t rhs).Heedless b := by
  rw [Computation.assign_eq]
  exact into_heedless _ t

/-- The action, with a second handle on the block of the tensor while it runs. -/
def doubled (t : Tensor) (x : Action Fault α) : Action Fault α := do
  Action.change t.retain
  Action.thenTidy t.release x

/-- A second handle makes no difference to an action that takes no notice of it. -/
theorem doubled_eq {x : Action Fault α} (hx : ∀ b, x.Heedless b) {hs : List BlockId}
    (hh : ((x s).2).Holds hs) (ht : t.held ⊆ hs) : t.doubled x s = x s := by
  have hrun : t.doubled x s = ((x (t.retain s)).1, t.release (x (t.retain s)).2) := rfl
  rw [hrun]
  unfold retain release
  cases hb : t.block with
  | none => rfl
  | some b =>
    dsimp only
    rw [hx b s, Store.retain_release (hh.handles_pos (mem_of_held ht hb))]

end Tensor

end DeviceTensor
