import DeviceTensor.Proofs.Routine.Launch
import DeviceTensor.Session.Command
set_option autoImplicit false

/-!
# Work on elements keeps the handles

Everything that reads or writes the elements of tensors and blocks, and makes no tensor, moves the
store within `Store.Keeps`: a temporary block is gone again at the end, also after a failure.
-/

namespace DeviceTensor

open DeviceTensor.Action

/-! ## Blocks -/

/-- A question leaves the device as it is described. -/
theorem Action.request_keeps (d : DeviceId) (r : Request) (fault : DeviceFailure → Fault) :
    (Action.request d r fault).Within Store.Keeps :=
  fun s => Store.keeps_modifyDevice s d rfl

namespace Block

theorem bindMemory_keeps (b : BlockId) : (bindMemory b).Within Store.Keeps :=
  fun s => (bindMemory_binds b s).keeps

theorem view_keeps (b : BlockId) (d : ElemType) (count : Nat) :
    (view b d count).Within Store.Keeps :=
  fun s => ((view_reads (List.mem_singleton_self b) d count).binds s).keeps

theorem write_keeps {d : ElemType} (b : BlockId) (xs : Array (Elem d)) :
    (write b xs).Within Store.Keeps := by
  refine .bind (.examine _) fun _ => .bind (bindMemory_keeps b) fun _ => ?_
  exact .change (keeps_modifyBytes b (Elem.size_overlay xs))

theorem size_spliced (dst src : Array UInt8) (dstOffset srcOffset size : Nat) :
    (spliced dst src dstOffset srcOffset size).size = dst.size := by
  simp [spliced]

theorem moveBytes_keeps (executor : DeviceId) (direction : Direction) (dst src : Range)
    (size : Nat) : (moveBytes executor direction dst src size).Within Store.Keeps := by
  refine .bind (request_keeps executor _ _) fun _ => .bind (.change fun s => ?_) fun _ =>
    request_keeps executor _ _
  have hcount : s.Keeps (s.modifyDevice executor Device.tallied) :=
    Store.keeps_modifyDevice s executor rfl
  have hbytes := keeps_modifyBytes dst.block
    (fun bytes => size_spliced bytes (s.block src.block).contents dst.offset src.offset size)
    (s.modifyDevice executor Device.tallied)
  exact Frame.trans hcount hbytes

theorem copy_keeps (dst src : Range) (size : Nat) : (copy dst src size).Within Store.Keeps := by
  refine .bind (.examine _) fun _ => ?_
  refine .ite (.pure ()) ?_
  refine .bind (.inspect _) fun _ => .bind (.inspect _) fun _ => ?_
  refine .bind (bindMemory_keeps _) fun _ => .bind (bindMemory_keeps _) fun _ => ?_
  exact moveBytes_keeps _ _ dst src size

/-- A temporary block comes and goes. -/
theorem temporary_keeps {α : Type} (d : DeviceId) (size : Nat) {body : BlockId → Action Fault α}
    (h : ∀ b, (body b).Within Store.Keeps) : (temporary d size body).Within Store.Keeps := by
  intro s
  have hbody := h s.blocks.size (s.acquire d size).2
  have hrun : (temporary d size body s).2 =
      ((body s.blocks.size (s.acquire d size).2).2).release s.blocks.size := rfl
  rw [hrun]
  constructor
  · exact ((s.extends_acquire d size).trans hbody.extend).trans (Store.extends_release _ _)
  · intro hs hh
    exact (hbody.holds _ (hh.acquire d size)).release

end Block

/-! ## Tensors -/

namespace Tensor

variable {d : ElemType}

theorem writeAt_keeps (b : BlockId) (xs : Array (Elem d)) (offset : Nat) :
    (writeAt b xs offset).Within Store.Keeps := by
  refine .bind (Block.view_keeps b d _) fun old => ?_
  exact .change (Block.keeps_modifyBytes b (Elem.size_overlay _))

theorem stageAt_keeps (b : BlockId) (xs : Array (Elem d)) (offset : Nat) :
    (stageAt b xs offset).Within Store.Keeps := by
  refine Block.temporary_keeps _ _ fun staging => ?_
  refine .bind (Block.write_keeps staging xs) fun _ => .bind (.ofExcept _) fun start => ?_
  exact Block.copy_keeps _ _ _

theorem upload_keeps (t : Tensor) (xs : Array (Elem d)) (offset : Nat) :
    (t.upload xs offset).Within Store.Keeps := by
  refine .bind (.examine _) fun _ => ?_
  split
  · exact .pure ()
  · refine .bind (.inspect _) fun _ => .ite ?_ ?_
    · exact writeAt_keeps _ xs offset
    · exact stageAt_keeps _ xs offset

theorem readStaged_keeps (b : BlockId) (d : ElemType) (count size : Nat) :
    (readStaged b d count size).Within Store.Keeps := by
  refine Block.temporary_keeps _ _ fun staging => ?_
  exact .bind (Block.copy_keeps _ _ _) fun _ => Block.view_keeps staging d count

theorem read_keeps (t : Tensor) (d : ElemType) : (t.read d).Within Store.Keeps := by
  refine .bind (.ofExcept _) fun _ => ?_
  split
  · exact .pure _
  · refine .bind (.inspect _) fun _ => .bind (.inspect _) fun _ => .bind (.inspect _) fun _ => ?_
    refine .ite ?_ ?_
    · exact Block.view_keeps _ d _
    · exact readStaged_keeps _ d _ _

theorem copyFrom_keeps (t other : Tensor) : (t.copyFrom other).Within Store.Keeps := by
  unfold copyFrom
  split
  · exact .bind (.inspect _) fun _ => Block.copy_keeps _ _ _
  · exact .pure ()

theorem copyRange_keeps (t other : Tensor) (count dstOffset srcOffset : Nat) :
    (t.copyRange other count dstOffset srcOffset).Within Store.Keeps := by
  refine .bind (.ofExcept _) fun ranges => ?_
  exact Block.copy_keeps _ _ _

theorem castTo_keeps (t : Tensor) (src : BlockId) (d : ElemType) (target : BlockId) :
    (t.castTo src d target).Within Store.Keeps := by
  refine .bind (.inspect _) fun _ => .bind (.inspect _) fun _ => .ite ?_ (.pure ())
  exact launch_keeps _ _ _

theorem fill_keeps (t : Tensor) (x : Double) : (t.fill x).Within Store.Keeps := by
  unfold fill
  split
  · exact .pure ()
  · exact .bind (.inspect _) fun _ => launch_keeps _ _ _

/-! ## Operations on tensors -/

theorem mapTo_keeps (op : Operation) (t : Tensor) (x : Double) (out : Tensor) :
    (mapTo op t x out).Within Store.Keeps :=
  .bind (.examine _) fun _ => launch_keeps _ _ _

theorem zipTo_keeps (op : Operation) (lhs rhs out : Tensor) :
    (zipTo op lhs rhs out).Within Store.Keeps :=
  .bind (.examine _) fun _ => launch_keeps _ _ _

theorem addScaled_keeps (alpha : Double) (t out : Tensor) :
    (addScaled alpha t out).Within Store.Keeps :=
  .bind (.examine _) fun _ => launch_keeps _ _ _

theorem assign_keeps (f : Operator) (t : Tensor) (rhs : RightSide) :
    (assign f t rhs).Within Store.Keeps := by
  cases rhs with
  | tensor other => exact zipTo_keeps _ _ _ _
  | scalar x => exact mapTo_keeps _ _ _ _

theorem broadcast_keeps (op : Operation) (alpha beta : Double) (v m : Tensor) :
    (broadcast op alpha beta v m).Within Store.Keeps :=
  .bind (.examine _) fun _ => launch_keeps _ _ _

theorem sumsTo_keeps (which : Summation) (t out : Tensor) :
    (sumsTo which t out).Within Store.Keeps :=
  .bind (.examine _) fun _ => launch_keeps _ _ _

theorem sumAxisTo_keeps (t : Tensor) (axis : Nat) (out : Tensor) :
    (t.sumAxisTo axis out).Within Store.Keeps :=
  .bind (.ofExcept _) fun _ => .bind (.examine _) fun _ => launch_keeps _ _ _

theorem softmaxTo_keeps (t : Tensor) (axis : Nat) (out : Tensor) :
    (t.softmaxTo axis out).Within Store.Keeps :=
  .bind (.examine _) fun _ => launch_keeps _ _ _

theorem productScaled_keeps (alpha : Double) (a b : Tensor) (beta : Double) (c : Tensor) :
    (productScaled alpha a b beta c).Within Store.Keeps :=
  .bind (.examine _) fun _ => launch_keeps _ _ _

theorem fillSamples_keeps (t : Tensor) (D : Distribution) :
    (t.fillSamples D).Within Store.Keeps :=
  .bind (.ofExcept _) fun _ => .bind (.inspect _) fun _ => launch_keeps _ _ _

end Tensor

end DeviceTensor
