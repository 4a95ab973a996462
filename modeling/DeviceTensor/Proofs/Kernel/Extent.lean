import DeviceTensor.Proofs.Kernel.Admissible
set_option autoImplicit false

/-!
# How much a kernel writes

However it ends, a kernel leaves a destination of as many elements as it was given.  What stands
behind the destination is therefore not its to change.
-/

namespace DeviceTensor

variable {α β : Type}

theorem size_checked {check : Except Halt Unit} {dst : Array α} {run : Array α → Outcome α}
    (h : (run dst).1.size = dst.size) : (checked check dst run).1.size = dst.size := by
  cases check with
  | ok u => exact h
  | error e => rfl

namespace Kernel

/-! ## Sweeps -/

theorem size_map (f : α → Except Trap β) (src : Array α) (dst : Array β) :
    (map f src dst).1.size = dst.size :=
  size_checked (size_sweep ..)

theorem size_zip (f : α → α → Except Trap β) (lhs rhs : Array α) (dst : Array β) :
    (zip f lhs rhs dst).1.size = dst.size :=
  size_checked (size_sweep ..)

theorem size_fill (value : α) (dst : Array α) : (fill value dst).1.size = dst.size :=
  Array.size_replicate

theorem size_cast (convert : α → Option β) (src : Array α) (dst : Array β) :
    (cast convert src dst).1.size = dst.size :=
  size_checked (size_sweep ..)

theorem size_addScaled (A : Arithmetic α) (alpha : α) (src dst : Array α) :
    (addScaled A alpha src dst).1.size = dst.size :=
  size_checked (size_sweep ..)

theorem size_broadcastRow (f : α → α → Except Trap α) (v : Array α) (g : Grid) (m : Array α) :
    (broadcastRow f v g m).1.size = m.size :=
  size_checked (size_sweep ..)

theorem size_broadcastColumn (f : α → α → Except Trap α) (v : Array α) (g : Grid) (m : Array α) :
    (broadcastColumn f v g m).1.size = m.size :=
  size_checked (size_sweep ..)

theorem size_sumRows (A : Arithmetic α) (m : Array α) (g : Grid) (dst : Array α) :
    (sumRows A m g dst).1.size = dst.size :=
  size_checked (size_sweep ..)

theorem size_sumColumns (A : Arithmetic α) (m : Array α) (g : Grid) (dst : Array α) :
    (sumColumns A m g dst).1.size = dst.size :=
  size_checked (size_sweep ..)

theorem size_product (A : Arithmetic α) (alpha : α) (a b : Array α) (beta : α) (x : Extents)
    (c : Array α) : (product A alpha a b beta x c).1.size = c.size :=
  size_checked (size_sweep ..)

theorem size_wideProduct {A : Arithmetic α} (P : WideProduct A) (alpha : α) (a b : Array α)
    (beta : α) (x : Extents) (c : Array α) :
    (wideProduct A P alpha a b beta x c).1.size = c.size :=
  size_checked Array.size_ofFn

/-! ## Rows of a softmax -/

theorem size_softmax (A : Arithmetic α) (F : Analysis α) (src : Array α) (g : Grid)
    (dst : Array α) : (softmax A F src g dst).1.size = dst.size := by
  refine size_checked ?_
  have hrows (is : List Nat) : ∀ o : Outcome α,
      (is.foldl (fun o i => andThen o fun dst => softmaxRow A F src g dst i) o).1.size =
        o.1.size := by
    induction is with
    | nil => exact fun _ => rfl
    | cons i is ih =>
      intro o
      calc _ = (andThen o fun dst => softmaxRow A F src g dst i).1.size := ih _
        _ = o.1.size := size_andThen (size_softmaxRow A F src g o.1 i)
  exact hrows _ (dst, .ok ())

/-! ## Samples -/

theorem size_drawInto {σ : Type} (draw : σ → β × σ) (convert : β → Option α) (is : List Nat)
    (dst : Array α) (s : σ) : (drawInto draw convert is dst s).1.1.size = dst.size := by
  induction is generalizing dst s with
  | nil => rfl
  | cons i is ih =>
    unfold drawInto
    dsimp only
    split
    · split
      · rename_i dst' hstore
        exact (ih dst' _).trans (Buffer.size_store hstore)
      · rfl
    · rfl

theorem size_fillSamples {σ : Type} (D : Distribution) (draw : σ → β × σ)
    (convert : β → Option α) (dst : Array α) (s : σ) :
    (fillSamples D draw convert dst s).1.1.size = dst.size := by
  unfold fillSamples
  split
  · rfl
  · exact size_drawInto draw convert _ dst s

end Kernel

end DeviceTensor
