import DeviceTensor.Proofs.Routine.Failure
import DeviceTensor.Proofs.Routine.Registration
import DeviceTensor.Proofs.Store.Ledger
set_option autoImplicit false

/-!
# Actions as paths

An action on a store runs along a path: `Store.Runs`.  It says which handles the action uses while
it runs, which it is given and which it hands out, and whether it may draw samples.  Work on blocks
takes and hands out nothing; a temporary block is gone at its end, also after a failure.
-/

namespace DeviceTensor

open DeviceTensor.Action

namespace Store

/-- A path leads from `s` to `s'`, and from the handles `given` to the handles `taken`, beside any
others that include `operands`.  On a regular registry samples are drawn only if `P` holds. -/
structure Runs (P : Prop) (operands given taken : List BlockId) (s s' : Store) : Prop where
  registry : s'.registry = s.registry
  path : ∀ hs, operands ⊆ hs → ∃ log, Path ⟨s, given ++ hs⟩ log ⟨s', taken ++ hs⟩ ∧
    ∀ d, .drawn d ∈ log → s.registry.Regular → P

namespace Runs

variable {P : Prop} {operands given taken left : List BlockId} {s t u : Store}

theorem refl (s : Store) : Runs P operands given given s s where
  registry := rfl
  path hs _ := ⟨[], .refl _, fun d hd => by cases hd⟩

theorem trans (h : Runs P operands given taken s t) (h' : Runs P operands taken left t u) :
    Runs P operands given left s u where
  registry := h'.registry.trans h.registry
  path hs hsub := by
    obtain ⟨log, hp, hdraws⟩ := h.path hs hsub
    obtain ⟨log', hp', hdraws'⟩ := h'.path hs hsub
    refine ⟨log ++ log', hp.trans hp', fun d hd hr => ?_⟩
    rcases List.mem_append.mp hd with hd | hd
    · exact hdraws d hd hr
    · exact hdraws' d hd (h.registry ▸ hr)

/-- One step without a draw. -/
theorem of_step (log : Store → List Dealing) (hr : t.registry = s.registry)
    (h : ∀ hs, operands ⊆ hs → Step ⟨s, given ++ hs⟩ (log s) ⟨t, taken ++ hs⟩)
    (hlog : ∀ d, .drawn d ∉ log s) : Runs P operands given taken s t where
  registry := hr
  path hs hsub := ⟨log s, .single (h hs hsub), fun d hd => absurd hd (hlog d)⟩

/-- Handles that take no part. -/
theorem beside (h : Runs P operands given taken s t) (others : List BlockId) :
    Runs P operands (given ++ others) (taken ++ others) s t where
  registry := h.registry
  path hs hsub := by
    rw [List.append_assoc, List.append_assoc]
    exact h.path (others ++ hs) fun b hb => List.mem_append_right _ (hsub hb)

/-- Operands may be among the handles that are kept. -/
theorem onGiven (kept : List BlockId) (h : Runs P (kept ++ operands) given taken s t) :
    Runs P operands (given ++ kept) (taken ++ kept) s t where
  registry := h.registry
  path hs hsub := by
    rw [List.append_assoc, List.append_assoc]
    refine h.path (kept ++ hs) fun b hb => ?_
    rcases List.mem_append.mp hb with hb | hb
    · exact List.mem_append_left _ hb
    · exact List.mem_append_right _ (hsub hb)

theorem mono {P' : Prop} {operands' : List BlockId}
    (h : Runs P operands given taken s t) (hd : P → P') (ho : operands ⊆ operands') :
    Runs P' operands' given taken s t where
  registry := h.registry
  path hs hsub := by
    obtain ⟨log, hp, hdraws⟩ := h.path hs fun b hb => hsub (ho hb)
    exact ⟨log, hp, fun d hmem hr => hd (hdraws d hmem hr)⟩

theorem perm (s : Store) (h : given.Perm taken) : Runs P operands given taken s s :=
  of_step (fun _ => []) rfl (fun hs _ => .perm s (h.append_right hs)) fun _ hd => by cases hd

theorem acquire (s : Store) (d : DeviceId) (n : Nat) :
    Runs P operands [] [s.blocks.size] s (s.acquire d n).2 :=
  of_step (fun _ => []) rfl (fun hs _ => .acquire s hs d n) fun _ hd => by cases hd

theorem retain (s : Store) {b : BlockId} (hb : b ∈ operands) :
    Runs P operands [] [b] s (s.retain b) :=
  of_step (fun _ => []) rfl (fun _ hsub => .retain s (hsub hb)) fun _ hd => by cases hd

theorem release (s : Store) (b : BlockId) : Runs P operands [b] [] s (s.release b) := by
  refine of_step (fun s => s.returns b) (registry_release b) (fun hs _ => .release s hs b)
    fun d hd => ?_
  unfold returns at hd
  split at hd
  · simp at hd
  · cases hd

theorem write (s : Store) {b : BlockId} (hb : b ∈ operands) {f : Array UInt8 → Array UInt8}
    (hf : ∀ bytes, (f bytes).size = bytes.size) :
    Runs P operands [] [] s (Block.modifyBytes b f s) :=
  of_step (fun _ => []) rfl (fun _ hsub => .write s (hsub hb) hf) fun _ hd => by cases hd

/-- A device is asked for something else than memory. -/
theorem ask (s : Store) (d : DeviceId) {r : Request} (hr : ∀ n, r ≠ .allocate n) :
    Runs P operands [] [] s (s.modifyDevice d (·.after r)) :=
  of_step (fun _ => []) rfl (fun hs _ => .ask s hs d hr) fun _ hd => by cases hd

theorem tally (s : Store) (d : DeviceId) :
    Runs P operands [] [] s (s.modifyDevice d Device.tallied) :=
  of_step (fun _ => []) rfl (fun hs _ => .tally s hs d) fun _ hd => by cases hd

/-- The stream of a device moves. -/
theorem draw (h : P) (s : Store) (d : DeviceId) (stream : Stream) :
    Runs P operands [] [] s (s.modifyDevice d fun k => { k with stream := stream }) where
  registry := rfl
  path hs _ := ⟨[.drawn d], .single (.draw s hs d stream), fun _ _ _ => h⟩

instance : Frame (Runs P operands given given) := ⟨refl, trans⟩

end Runs

end Store

variable {P : Prop} {operands : List BlockId}

/-! ## Work on blocks -/

namespace Block

variable {b : BlockId}

theorem bindMemory_runs (hb : b ∈ operands) :
    (bindMemory b).Within (Store.Runs P operands [] []) := by
  intro s
  have hregistry := (bindMemory_binds b s).registry
  rcases bindMemory_cases b s with ⟨-, hrun⟩ | ⟨hm, ⟨-, hrun⟩ | ⟨e, -, hrun⟩⟩
  · rw [hrun]
    exact .refl s
  · have hok : (bindMemory b s).1 = .ok () := by rw [hrun]
    refine .of_step (fun s => [.granted b (s.block b).device (s.block b).size])
      hregistry (fun hs hsub => ?_) fun d hd => ?_
    · exact .bind (hsub hb) hm (Prod.ext hok rfl)
    · cases List.mem_singleton.mp hd
  · have herror := congrArg Prod.fst hrun
    refine .of_step (fun s => [.refused b (s.block b).device (s.block b).size])
      hregistry (fun hs hsub => ?_) fun d hd => ?_
    · exact .refuse (hsub hb) (Prod.ext herror rfl)
    · cases List.mem_singleton.mp hd

theorem view_runs (hb : b ∈ operands) (d : ElemType) (count : Nat) :
    (view b d count).Within (Store.Runs P operands [] []) :=
  .bind (.examine _) fun _ => .bind (bindMemory_runs hb) fun _ => .inspect _

theorem write_runs {d : ElemType} (hb : b ∈ operands) (xs : Array (Elem d)) :
    (write b xs).Within (Store.Runs P operands [] []) :=
  .bind (.examine _) fun _ => .bind (bindMemory_runs hb) fun _ =>
    .change fun s => .write s hb (Elem.size_overlay xs)

theorem moveBytes_runs {dst : Range} (hdst : dst.block ∈ operands) (executor : DeviceId)
    (direction : Direction) (src : Range) (size : Nat) :
    (moveBytes executor direction dst src size).Within (Store.Runs P operands [] []) := by
  refine .bind (fun s => .ask s executor nofun) fun _ => ?_
  refine .bind (.change fun s => ?_) fun _ => fun s => .ask s executor nofun
  have hwrite := Store.Runs.write (P := P) (s.modifyDevice executor Device.tallied) hdst
    fun bytes => size_spliced bytes (s.block src.block).contents dst.offset src.offset size
  exact (Store.Runs.tally s executor).trans hwrite

theorem copy_runs {dst src : Range} (hdst : dst.block ∈ operands) (hsrc : src.block ∈ operands)
    (size : Nat) : (copy dst src size).Within (Store.Runs P operands [] []) := by
  refine .bind (.examine _) fun _ => .ite (.pure ()) ?_
  refine .bind (.inspect _) fun _ => .bind (.inspect _) fun _ => ?_
  refine .bind (bindMemory_runs hdst) fun _ => .bind (bindMemory_runs hsrc) fun _ => ?_
  exact moveBytes_runs hdst _ _ src size

/-- A temporary block comes and goes. -/
theorem temporary_runs {α : Type} (d : DeviceId) (size : Nat) {body : BlockId → Action Fault α}
    (h : ∀ b, (body b).Within (Store.Runs P (b :: operands) [] [])) :
    (temporary d size body).Within (Store.Runs P operands [] []) := by
  intro s
  have hbody : Store.Runs P operands [s.blocks.size] [s.blocks.size] (s.acquire d size).2
      (body s.blocks.size (s.acquire d size).2).2 := (h s.blocks.size _).onGiven [_]
  exact ((Store.Runs.acquire s d size).trans hbody).trans (.release _ _)

end Block

/-! ## Routines -/

namespace Invocation

variable {inv : Invocation} {d : ElemType}

theorem input_runs (h : inv.inputs ⊆ operands) (index count : Nat) :
    (inv.input d index count).Within (Store.Runs P operands [] []) := by
  unfold input
  split
  · exact .fail _
  · rename_i b hb
    exact .mapError (Block.view_runs (h (List.mem_of_getElem? hb)) d count)

theorem output_runs (h : inv.output ∈ operands) (count : Nat) :
    (inv.output? d count).Within (Store.Runs P operands [] []) :=
  .mapError (Block.view_runs h d count)

theorem scalar_runs (x : Double) :
    (scalar d x).Within (Store.Runs P operands [] []) := by
  unfold scalar
  split
  · exact .pure _
  · exact .fail _

theorem settle_runs (h : inv.output ∈ operands) (o : Outcome (Elem d)) :
    (inv.settle o).Within (Store.Runs P operands [] []) :=
  .bind (.change fun s => .write s h (Elem.size_overlay o.1)) fun _ => .ofExcept _

theorem run_runs (h : inv.output ∈ operands) (count : Nat)
    (kernel : Array (Elem d) → Outcome (Elem d)) :
    (inv.run d count kernel).Within (Store.Runs P operands [] []) :=
  .bind (output_runs h count) fun _ => settle_runs h _

end Invocation

namespace Recipe

open Invocation

variable {inv : Invocation} {d : ElemType}

theorem runRow_runs (hin : inv.inputs ⊆ operands) (hout : inv.output ∈ operands)
    (f : Elem d → Elem d → Except Trap (Elem d)) :
    (runRow inv f).Within (Store.Runs P operands [] []) :=
  .bind (input_runs hin _ _) fun _ => .bind (.ofExcept _) fun _ => run_runs hout _ _

theorem runColumn_runs (hin : inv.inputs ⊆ operands) (hout : inv.output ∈ operands)
    (f : Elem d → Elem d → Except Trap (Elem d)) :
    (runColumn inv f).Within (Store.Runs P operands [] []) :=
  .bind (input_runs hin _ _) fun _ => .bind (.ofExcept _) fun _ => run_runs hout _ _

theorem runRandom_runs (hdraws : P) (hout : inv.output ∈ operands) (D : Distribution) :
    (runRandom inv d D).Within (Store.Runs P operands [] []) := by
  refine .bind (output_runs hout _) fun dst => .bind (.inspect _) fun device => ?_
  exact .bind (.change fun s => .draw hdraws s _ _) fun _ => settle_runs hout _

theorem runProduct_runs (hin : inv.inputs ⊆ operands) (hout : inv.output ∈ operands)
    (kernel : Elem d → Array (Elem d) → Array (Elem d) → Elem d → Array (Elem d) →
      Outcome (Elem d)) :
    (runProduct inv kernel).Within (Store.Runs P operands [] []) := by
  refine .bind (.ofExcept _) fun _ => .bind (input_runs hin _ _) fun _ => ?_
  refine .bind (.ofExcept _) fun _ => .bind (input_runs hin _ _) fun _ => ?_
  refine .bind (.ofExcept _) fun _ => .bind (output_runs hout _) fun _ => ?_
  exact .bind (scalar_runs _) fun _ => .bind (scalar_runs _) fun _ => settle_runs hout _

/-- A recipe P samples only if it is that of a random fill. -/
theorem run_runs (hin : inv.inputs ⊆ operands) (hout : inv.output ∈ operands) (recipe : Recipe d)
    (hdraws : ∀ D, recipe = .random D → P) :
    (recipe.run inv).Within (Store.Runs P operands [] []) := by
  cases recipe with
  | map f => exact .bind (input_runs hin _ _) fun _ => Invocation.run_runs hout _ _
  | mapScalar f =>
    exact .bind (scalar_runs _) fun _ => .bind (input_runs hin _ _) fun _ =>
      Invocation.run_runs hout _ _
  | zip f =>
    exact .bind (input_runs hin _ _) fun _ => .bind (input_runs hin _ _) fun _ =>
      Invocation.run_runs hout _ _
  | fill =>
    exact .bind (output_runs hout _) fun _ => .bind (scalar_runs _) fun _ => settle_runs hout _
  | cast => exact .bind (input_runs hin _ _) fun _ => Invocation.run_runs hout _ _
  | reduce f => exact .bind (input_runs hin _ _) fun _ => Invocation.run_runs hout _ _
  | softmax F =>
    exact .bind (.ofExcept _) fun _ => .bind (input_runs hin _ _) fun _ =>
      Invocation.run_runs hout _ _
  | row f => exact runRow_runs hin hout f
  | column f => exact runColumn_runs hin hout f
  | scaledRow =>
    exact .bind (scalar_runs _) fun _ => .bind (scalar_runs _) fun _ => runRow_runs hin hout _
  | scaledColumn =>
    exact .bind (scalar_runs _) fun _ => .bind (scalar_runs _) fun _ => runColumn_runs hin hout _
  | sumRows =>
    exact .bind (.ofExcept _) fun _ => .bind (input_runs hin _ _) fun _ =>
      Invocation.run_runs hout _ _
  | sumColumns =>
    exact .bind (.ofExcept _) fun _ => .bind (input_runs hin _ _) fun _ =>
      Invocation.run_runs hout _ _
  | random D => exact runRandom_runs (hdraws D rfl) hout _
  | addScaled =>
    exact .bind (input_runs hin _ _) fun _ => .bind (scalar_runs _) fun _ =>
      Invocation.run_runs hout _ _
  | product => exact runProduct_runs hin hout _
  | wideProduct => exact .bind (.inspect _) fun _ => runProduct_runs hin hout _

end Recipe

theorem Probe.run_runs {inv : Invocation} (hout : inv.output ∈ operands) (p : Probe) :
    (p.run inv).Within (Store.Runs P operands [] []) := by
  cases p with
  | idle => exact .pure ()
  | ramp => exact .bind (.inspect _) fun _ => .mapError (Block.write_runs hout _)
  | unsupported => exact .fail _
  | mismatch => exact .fail _
  | echo => exact .fail _

namespace Routine

variable {inv : Invocation}

theorem run_runs (hin : inv.inputs ⊆ operands) (hout : inv.output ∈ operands) (routine : Routine)
    (hdraws : ∀ d op D, routine = .catalog d op → Recipe.ofOperation? d op = some (.random D) →
      P) : (routine.run inv).Within (Store.Runs P operands [] []) := by
  cases routine with
  | catalog d op =>
    unfold run
    dsimp only
    split
    · rename_i recipe hrecipe
      refine Recipe.run_runs hin hout recipe fun D hD => hdraws d op D rfl ?_
      rw [hrecipe, hD]
    · exact .fail _
  | singleProduct => exact Recipe.run_runs hin hout .wideProduct fun D hD => by cases hD
  | doubleProduct => exact Recipe.run_runs hin hout .wideProduct fun D hD => by cases hD
  | probe p => exact p.run_runs hout

/-- On a regular registry, the routine of an operation P samples only if the operation is a
random fill. -/
theorem run_runs_of_get? (hin : inv.inputs ⊆ operands) (hout : inv.output ∈ operands)
    {key : RoutineKey} (hop : key.op ∈ Operation.sampling → P) {s : Store} {routine : Routine}
    (hget : s.registry.get? key = some routine) :
    Store.Runs P operands [] [] s (routine.run inv s).2 := by
  by_cases hregular : s.registry.Regular
  · refine routine.run_runs hin hout ?_ s
    rintro d op D rfl hrecipe
    rcases hregular key _ hget with ⟨-, hkey, -⟩ | ⟨p, hp⟩
    · exact hop (hkey ▸ Recipe.Does.of_random (.catalog hrecipe))
    · cases hp
  · have hany := routine.run_runs (P := True) hin hout (fun _ _ _ _ _ => trivial) s
    refine ⟨hany.registry, fun hs hsub => ?_⟩
    obtain ⟨log, hp, -⟩ := hany.path hs hsub
    exact ⟨log, hp, fun _ _ hr => absurd hr hregular⟩

end Routine

theorem launch_runs {inv : Invocation} (hin : inv.inputs ⊆ operands)
    (hout : inv.output ∈ operands) (op : Operation) (dtype : ElemType)
    (hop : op ∈ Operation.sampling → P) :
    (launch op dtype inv).Within (Store.Runs P operands [] []) := by
  intro s
  rw [launch_eq]
  split
  · exact .refl s
  · rename_i routine hlookup
    rw [mapError_apply]
    exact Routine.run_runs_of_get? hin hout hop (Registry.lookup_eq_ok_iff.mp hlookup)

end DeviceTensor
