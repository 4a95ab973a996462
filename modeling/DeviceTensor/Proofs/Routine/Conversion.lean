import DeviceTensor.Proofs.Kernel.Conversion
import DeviceTensor.Proofs.Routine.Views
set_option autoImplicit false

/-!
# Launches of casts

A cast that sees its source and its target stores the conversions of the first elements of the
source into the target, up to the first element without one; the bytes behind them stay as they
were.  Source and target may be one block.
-/

namespace DeviceTensor

open DeviceTensor.Except

/-- The host routine for casts is registered for elements of this type on the device. -/
def Store.CastsOnHost (s : Store) (dtype : ElemType) (device : DeviceId) : Prop :=
  s.registry.get? (.onDevice dtype .cast device s) = some (.catalog dtype .cast)

/-- The cast of `n` elements of `src` to type `d`, into `target`. -/
def castInvocation (device : DeviceId) (src target : BlockId) (n : Nat) (d : ElemType) :
    Invocation where
  device := device
  inputs := [src]
  output := target
  count := n
  outType := d

/-- The bytes `bytes'` start with the conversions of the first `n` elements of `src`; behind them
they are the bytes `bytes`. -/
structure EncodesUpTo {dtype : ElemType} (d : ElemType) (src : Array (Elem dtype)) (n : Nat)
    (bytes bytes' : Array UInt8) : Prop where
  size : bytes'.size = bytes.size
  encoded : ∀ k j, k < n → j < d.width → ∃ x y, src[k]? = some x ∧ Elem.cast dtype d x = some y ∧
    bytes'[k * d.width + j]? = some (y.byte j)
  behind : ∀ p, n * d.width ≤ p → bytes'[p]? = bytes[p]?

/-- Elements that are laid over the bytes that they have been stored over. -/
theorem encodesUpTo_overlay {dtype d : ElemType} {src : Array (Elem dtype)} {n count : Nat}
    {bytes : Array UInt8} {dst : Array (Elem d)}
    (h : Kernel.ConvertedUpTo (Elem.cast dtype d) src n (Elem.decode d count bytes) dst)
    (hfits : count * d.width ≤ bytes.size) :
    EncodesUpTo d src n bytes (Elem.overlay dst bytes) where
  size := Elem.size_overlay dst bytes
  encoded k j hk hj := by
    obtain ⟨x, y, hx, hy, hat⟩ := h.elements k hk
    have hsize : dst.size * d.width ≤ bytes.size := by
      rw [h.size, Elem.size_decode]
      exact hfits
    exact ⟨x, y, hx, hy, Elem.getElem?_overlay hsize hat hj⟩
  behind p hp := by
    have hsame : dst[p / d.width]? = (Elem.decode d count bytes)[p / d.width]? :=
      h.others _ ((Nat.le_div_iff_mul_le d.width_pos).mpr hp)
    exact Elem.getElem?_overlay_of_decode hsame

section

variable {s : Store} {dtype d : ElemType} {device : DeviceId} {src target : BlockId} {n : Nat}
  {xs : Array (Elem dtype)} {dst : Array (Elem d)}

theorem launchSeen_cast (hcasts : s.CastsOnHost dtype device)
    (hsrc : Block.seen src dtype n s = .ok xs) (hdst : Block.seen target d n s = .ok dst) :
    launchSeen .cast dtype (castInvocation device src target n d) s =
      .ok (.ofOutcome (Kernel.cast (Elem.cast dtype d) xs dst)) := by
  have heffect : (Routine.catalog dtype .cast).effect (castInvocation device src target n d) s =
      Recipe.effect (castInvocation device src target n d) s (.cast : Recipe dtype) := rfl
  have hdevice : (castInvocation device src target n d).device = device := rfl
  unfold launchSeen Registry.lookup
  dsimp only
  rw [hdevice, show s.registry.get? (.onDevice dtype .cast device s) = _ from hcasts]
  dsimp only
  rw [heffect]
  unfold Recipe.effect Invocation.inputSeen Invocation.outputSeen castInvocation
  dsimp only [List.getElem?_cons_zero]
  rw [hsrc, hdst]
  rfl

variable (hcasts : s.CastsOnHost dtype device) (hsrc : Block.seen src dtype n s = .ok xs)
  (hdst : Block.seen target d n s = .ok dst) (hout : s.Receives target (n * d.width))
  (hn : ¬(castInvocation device src target n d).Stops
    (launch .cast dtype (castInvocation device src target n d)) s)

include hcasts hsrc hdst hout hn

/-- A cast ends as its kernel ends, and leaves the target with what the kernel leaves. -/
theorem launch_cast :
    let o := Kernel.cast (Elem.cast dtype d) xs dst
    let run := launch .cast dtype (castInvocation device src target n d) s
    run.1 = o.2.mapError (fun e =>
        (RoutineFailure.ofHalt e).toFault (.onDevice dtype .cast device s)) ∧
      (run.2.block target).contents = Elem.overlay o.1 (s.block target).contents := by
  intro o run
  have hseen := launchSeen_cast hcasts hsrc hdst
  refine ⟨?_, contents_launch_of_ok hn hseen hout.lt hout.live⟩
  change (launch .cast dtype (castInvocation device src target n d) s).1 = _
  rw [launch_result hn, hseen]
  change (o.2.mapError RoutineFailure.ofHalt).mapError _ = _
  cases o.2 <;> rfl

theorem launch_cast_of_convertible (h : Kernel.Convertible (Elem.cast dtype d) xs) :
    let run := launch .cast dtype (castInvocation device src target n d) s
    run.1 = .ok () ∧ Kernel.ConvertedUpTo (Elem.cast dtype d) xs n dst
      (Elem.decode d n (run.2.block target).contents) := by
  intro run
  have hsize := Block.size_of_seen hsrc
  have hsize' := Block.size_of_seen hdst
  obtain ⟨hends, hconverted⟩ := Kernel.cast_of_convertible (hsize.trans hsize'.symm) h
  obtain ⟨hresult, hcontents⟩ := launch_cast hcasts hsrc hdst hout hn
  have hcount := hconverted.size.trans hsize'
  have hread := Elem.decode_overlay (hcount.symm ▸ hout.room)
  rw [hcount, ← hcontents] at hread
  rw [hends] at hresult
  rw [hsize] at hconverted
  exact ⟨hresult, hread.symm ▸ hconverted⟩

theorem launch_cast_of_first {i : Nat}
    (h : Kernel.FirstUnconvertible (Elem.cast dtype d) xs i) :
    let run := launch .cast dtype (castInvocation device src target n d) s
    run.1 = .error (.launch (.routineFailed (.onDevice dtype .cast device s) (.castOutOfRange i))) ∧
      EncodesUpTo d xs i (s.block target).contents (run.2.block target).contents := by
  intro run
  have hsize := (Block.size_of_seen hsrc).trans (Block.size_of_seen hdst).symm
  obtain ⟨hends, hconverted⟩ := Kernel.cast_of_first hsize h
  obtain ⟨hresult, hcontents⟩ := launch_cast hcasts hsrc hdst hout hn
  rw [hends] at hresult
  refine ⟨hresult, ?_⟩
  rw [hcontents]
  rw [Block.decode_of_seen hdst] at hconverted ⊢
  exact encodesUpTo_overlay hconverted hout.room

end

end DeviceTensor
