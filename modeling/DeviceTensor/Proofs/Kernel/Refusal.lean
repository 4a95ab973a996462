import DeviceTensor.Proofs.Kernel.Admissible
set_option autoImplicit false

/-!
# What kernels refuse

Whatever buffers it is given, a kernel refuses at most their sizes, and halts otherwise in its
arithmetic.  Only a cast refuses elements as well, and only a random fill refuses the parameters of
its distribution; it has then drawn and stored nothing.
-/

namespace DeviceTensor

open DeviceTensor.Except

/-- The kernel halted in its arithmetic, or refused the sizes of its buffers. -/
def Halt.OfBuffers : Halt → Prop
  | .trap _ => True
  | .refused (.lengthMismatch _ _) => True
  | .refused (.matrixTooSmall _ _ _) => True
  | .refused (.castOutOfRange _) => False
  | .refused (.invalidDistribution _) => False
  | .refused (.unsupportedType _) => False

/-- The kernel halted as above, or refused an element. -/
def Halt.OfElements (h : Halt) : Prop := h.OfBuffers ∨ ∃ i, h = .refused (.castOutOfRange i)

/-- A computation may trap wherever traps are among the failures. -/
theorem Except.FailsIn.ofTrap {α : Type} {P : Halt → Prop} (hP : ∀ t, P (.trap t))
    (x : Except Trap α) : FailsIn P (Halt.ofTrap x) := by
  cases x with
  | ok a => exact .ok a
  | error t => exact .error (hP t)

/-- A step that traps, as it may wherever traps are among the failures. -/
theorem Except.FailsIn.trapping {α β : Type} {P : Halt → Prop} (hP : ∀ t, P (.trap t))
    {x : Except Trap α} {f : α → Except Halt β} (hf : ∀ a, FailsIn P (f a)) :
    FailsIn P (Halt.ofTrap x >>= f) :=
  .bind (.ofTrap hP x) fun a _ => hf a

/-- A sweep where traps are among the failures: it may store anywhere. -/
theorem sweep_trapping {ι α : Type} {P : Halt → Prop} (hP : ∀ t, P (.trap t))
    {place : ι → Array α → Except Halt (Nat × α)} {cs : List ι} {dst : Array α}
    (h : ∀ c ∈ cs, ∀ dst', FailsIn P (place c dst')) : FailsIn P (sweep place cs dst).2 := by
  refine sweep_failsIn fun c hc dst' _ => .bind (h c hc dst') fun (k, x) _ => ?_
  exact .ofTrap hP (Buffer.store dst' k x)

namespace Kernel

variable {α β : Type}

/-- A step of a kernel that may trap. -/
private theorem step {γ : Type} {x : Except Trap β} {f : β → Except Halt γ}
    (hf : ∀ a, FailsIn Halt.OfBuffers (f a)) : FailsIn Halt.OfBuffers (Halt.ofTrap x >>= f) :=
  .trapping (fun _ => trivial) hf

theorem trap_ofBuffers (x : Except Trap α) : FailsIn Halt.OfBuffers (Halt.ofTrap x) :=
  .ofTrap (fun _ => trivial) x

/-! ## Sizes -/

theorem requireEqual_ofBuffers (left right : Nat) :
    FailsIn Halt.OfBuffers (requireEqual left right) :=
  .ite (fun _ => .ok ()) fun _ => .error trivial

theorem requireHolds_ofBuffers (n : Nat) (g : Grid) : FailsIn Halt.OfBuffers (requireHolds n g) :=
  step fun _ => .ite (fun _ => .error trivial) fun _ => .ok ()

theorem requireOperand_ofBuffers (size rows cols : Nat) :
    FailsIn Halt.OfBuffers (requireOperand size rows cols) :=
  step fun _ => .ite (fun _ => .error trivial) fun _ => .ok ()

theorem requireProduct_ofBuffers (x : Extents) (a b c : Nat) :
    FailsIn Halt.OfBuffers (requireProduct x a b c) :=
  .bind (requireOperand_ofBuffers _ _ _) fun _ _ =>
    .bind (requireOperand_ofBuffers _ _ _) fun _ _ => requireOperand_ofBuffers _ _ _

/-- One check and then another. -/
theorem requireBoth_ofBuffers {left right : Except Halt Unit} (hl : FailsIn Halt.OfBuffers left)
    (hr : FailsIn Halt.OfBuffers right) : FailsIn Halt.OfBuffers (left *> right) := by
  cases left with
  | ok u => exact hr
  | error e => exact .error (hl e rfl)

/-! ## Kernels -/

theorem map_ofBuffers (f : α → Except Trap β) (src : Array α) (dst : Array β) :
    FailsIn Halt.OfBuffers (map f src dst).2 :=
  checked_failsIn (requireEqual_ofBuffers _ _) <| sweep_trapping (fun _ => trivial) fun _ _ _ =>
    step fun _ => step fun _ => .ok _

theorem zip_ofBuffers (f : α → α → Except Trap β) (lhs rhs : Array α) (dst : Array β) :
    FailsIn Halt.OfBuffers (zip f lhs rhs dst).2 :=
  checked_failsIn
    (requireBoth_ofBuffers (requireEqual_ofBuffers _ _) (requireEqual_ofBuffers _ _)) <|
    sweep_trapping (fun _ => trivial) fun _ _ _ => step fun _ => step fun _ => step fun _ => .ok _

theorem fill_ofBuffers (value : α) (dst : Array α) : FailsIn Halt.OfBuffers (fill value dst).2 :=
  .ok ()

theorem addScaled_ofBuffers (A : Arithmetic α) (alpha : α) (src dst : Array α) :
    FailsIn Halt.OfBuffers (addScaled A alpha src dst).2 :=
  checked_failsIn (requireEqual_ofBuffers _ _) <| sweep_trapping (fun _ => trivial) fun _ _ _ =>
    step fun _ => step fun _ => step fun _ => step fun _ => .ok _

/-- Kernels on a vector and a grid check both sizes. -/
theorem requireBroadcast_ofBuffers (n k size : Nat) (g : Grid) :
    FailsIn Halt.OfBuffers (requireEqual n k *> requireHolds size g) :=
  requireBoth_ofBuffers (requireEqual_ofBuffers n k) (requireHolds_ofBuffers size g)

theorem combine_ofBuffers (f : α → α → Except Trap α) (v m : Array α) (g : Grid)
    (k : Nat × Nat → Nat) (cells : List (Nat × Nat)) :
    FailsIn Halt.OfBuffers (sweep (combineAt f v g k) cells m).2 :=
  sweep_trapping (fun _ => trivial) fun _ _ _ =>
    step fun _ => step fun _ => step fun _ => step fun _ => .ok _

theorem broadcastRow_ofBuffers (f : α → α → Except Trap α) (v : Array α) (g : Grid)
    (m : Array α) : FailsIn Halt.OfBuffers (broadcastRow f v g m).2 :=
  checked_failsIn (requireBroadcast_ofBuffers _ _ _ _) (combine_ofBuffers _ _ _ _ _ _)

theorem broadcastColumn_ofBuffers (f : α → α → Except Trap α) (v : Array α) (g : Grid)
    (m : Array α) : FailsIn Halt.OfBuffers (broadcastColumn f v g m).2 :=
  checked_failsIn (requireBroadcast_ofBuffers _ _ _ _) (combine_ofBuffers _ _ _ _ _ _)

theorem sumRows_ofBuffers (A : Arithmetic α) (m : Array α) (g : Grid) (dst : Array α) :
    FailsIn Halt.OfBuffers (sumRows A m g dst).2 :=
  checked_failsIn (requireBroadcast_ofBuffers _ _ _ _) <|
    sweep_trapping (fun _ => trivial) fun _ _ _ =>
      .bind (.foldlM fun _ _ _ => trap_ofBuffers _) fun _ _ => .ok _

theorem sumColumns_ofBuffers (A : Arithmetic α) (m : Array α) (g : Grid) (dst : Array α) :
    FailsIn Halt.OfBuffers (sumColumns A m g dst).2 :=
  checked_failsIn (requireBroadcast_ofBuffers _ _ _ _) <|
    sweep_trapping (fun _ => trivial) fun _ _ _ =>
      .bind (.foldlM fun _ _ _ => trap_ofBuffers _) fun _ _ => .ok _

theorem shiftRow_ofBuffers (A : Arithmetic α) (F : Analysis α) (src : Array α) (g : Grid)
    (i : Nat) (top : α) {next : α → Array α → Outcome α}
    (hn : ∀ sum m, FailsIn Halt.OfBuffers (next sum m).2) (js : List Nat) (sum : α)
    (dst : Array α) : FailsIn Halt.OfBuffers (shiftRow A F src g i top next js sum dst).2 := by
  induction js generalizing sum dst with
  | nil => exact hn sum dst
  | cons j js ih =>
    refine withValue_failsIn (fun _ _ => trivial) fun (place, power) _ => ?_
    refine withValue_failsIn (fun _ _ => trivial) fun dst' _ => ?_
    exact withValue_failsIn (fun _ _ => trivial) fun sum' _ => ih sum' dst'

theorem softmaxRow_ofBuffers (A : Arithmetic α) (F : Analysis α) (src : Array α) (g : Grid)
    (dst : Array α) (i : Nat) : FailsIn Halt.OfBuffers (softmaxRow A F src g dst i).2 := by
  refine withValue_failsIn (fun _ _ => trivial) fun top _ => ?_
  refine shiftRow_ofBuffers A F src g i top (fun denominator m => ?_) _ _ dst
  exact sweep_trapping (fun _ => trivial) fun _ _ _ => step fun _ => step fun _ => step fun _ => .ok _

theorem softmax_ofBuffers (A : Arithmetic α) (F : Analysis α) (src : Array α) (g : Grid)
    (dst : Array α) : FailsIn Halt.OfBuffers (softmax A F src g dst).2 := by
  refine checked_failsIn (requireBroadcast_ofBuffers _ _ _ _) ?_
  have hrows (is : List Nat) : ∀ o : Outcome α, FailsIn Halt.OfBuffers o.2 →
      FailsIn Halt.OfBuffers
        (is.foldl (fun o i => andThen o fun dst => softmaxRow A F src g dst i) o).2 := by
    induction is with
    | nil => exact fun _ ho => ho
    | cons i is ih => exact fun o ho => ih _ (andThen_failsIn ho (softmaxRow_ofBuffers _ _ _ _ _ _))
  exact hrows _ (dst, .ok ()) (.ok ())

theorem product_ofBuffers (A : Arithmetic α) (alpha : α) (a b : Array α) (beta : α) (x : Extents)
    (c : Array α) : FailsIn Halt.OfBuffers (product A alpha a b beta x c).2 := by
  refine checked_failsIn (requireProduct_ofBuffers _ _ _ _) ?_
  refine sweep_trapping (fun _ => trivial) fun _ _ _ => ?_
  refine step fun _ => step fun _ => step fun _ => step fun _ => .ite (fun _ => .ok _) fun _ => ?_
  exact step fun _ => step fun _ => .ok _

theorem wideProduct_ofBuffers {A : Arithmetic α} (P : WideProduct A) (alpha : α) (a b : Array α)
    (beta : α) (x : Extents) (c : Array α) :
    FailsIn Halt.OfBuffers (wideProduct A P alpha a b beta x c).2 :=
  checked_failsIn (requireProduct_ofBuffers _ _ _ _) (.ok ())

/-! ## Kernels that refuse more -/

theorem cast_ofElements (convert : α → Option β) (src : Array α) (dst : Array β) :
    FailsIn Halt.OfElements (cast convert src dst).2 := by
  refine checked_failsIn (fun e he => .inl (requireEqual_ofBuffers _ _ e he)) ?_
  refine sweep_trapping (fun _ => .inl trivial) fun i _ _ => ?_
  refine .trapping (fun _ => .inl trivial) fun x => ?_
  split
  · exact .ok _
  · exact .error (.inr ⟨i, rfl⟩)

theorem drawInto_ofElements {σ : Type} (draw : σ → β × σ) (convert : β → Option α) (is : List Nat)
    (dst : Array α) (s : σ) : FailsIn Halt.OfElements (drawInto draw convert is dst s).1.2 := by
  induction is generalizing dst s with
  | nil => exact .ok ()
  | cons i is ih =>
    unfold drawInto
    dsimp only
    split
    · split
      · exact ih _ _
      · exact .error (.inl trivial)
    · exact .error (.inr ⟨i, rfl⟩)

/-- A fill that refuses its parameters leaves the destination and the stream. -/
theorem fillSamples_of_invalid {σ : Type} {D : Distribution} {draw : σ → β × σ}
    {convert : β → Option α} {dst : Array α} {s : σ} {h : Halt}
    (hh : (fillSamples D draw convert dst s).1.2 = .error h) :
    h.OfElements ∨ (fillSamples D draw convert dst s).1.1 = dst ∧
      (fillSamples D draw convert dst s).2 = s := by
  unfold fillSamples at hh ⊢
  split at hh
  · exact .inr ⟨rfl, rfl⟩
  · exact .inl (drawInto_ofElements draw convert _ dst s h hh)

end Kernel

end DeviceTensor
