import DeviceTensor.Proofs.Routine.Launch
import DeviceTensor.Proofs.Store.Sight
set_option autoImplicit false

/-!
# Launches on blocks that show the same

What a launch does depends on its inputs through their sight alone.  Two launches that differ in the
blocks of their inputs, but not in what these show, end the same way and leave the same bytes in
their output, unless one of them is refused memory.
-/

namespace DeviceTensor

namespace Invocation

/-- The invocation `inv'` on `s'` is `inv` on `s` but for its inputs, which show the same. -/
structure Mirrors (inv : Invocation) (s : Store) (inv' : Invocation) (s' : Store) : Prop where
  same : inv' = { inv with inputs := inv'.inputs }
  inputs : inv'.inputs.map (Block.sight · s') = inv.inputs.map (Block.sight · s)
  shows : s.Shows s'
  output : inv.output < s.blocks.size

namespace Mirrors

variable {inv inv' : Invocation} {s s' : Store}

theorem device (h : inv.Mirrors s inv' s') : inv'.device = inv.device := by
  rw [h.same]

theorem length_inputs (h : inv.Mirrors s inv' s') : inv'.inputs.length = inv.inputs.length := by
  have hlength := congrArg List.length h.inputs
  simpa using hlength

theorem inputSeen_eq (h : inv.Mirrors s inv' s') (d : ElemType) (index count : Nat) :
    inv'.inputSeen d index count s' = inv.inputSeen d index count s := by
  have hsight : (inv'.inputs[index]?).map (Block.sight · s') =
      (inv.inputs[index]?).map (Block.sight · s) := by
    rw [← List.getElem?_map, ← List.getElem?_map, h.inputs]
  unfold inputSeen
  rw [h.length_inputs]
  cases hi : inv.inputs[index]? with
  | none =>
    rw [hi] at hsight
    cases hi' : inv'.inputs[index]? with
    | none => rfl
    | some b' =>
      rw [hi'] at hsight
      cases hsight
  | some b =>
    rw [hi] at hsight
    cases hi' : inv'.inputs[index]? with
    | none =>
      rw [hi'] at hsight
      cases hsight
    | some b' =>
      rw [hi'] at hsight
      exact congrArg (Except.mapError RoutineFailure.fault)
        (Block.seen_congr (Option.some.inj hsight) d count)

theorem outputSeen_eq (h : inv.Mirrors s inv' s') (d : ElemType) (count : Nat) :
    inv'.outputSeen d count s' = inv.outputSeen d count s := by
  unfold outputSeen
  rw [h.same]
  exact congrArg _ (Block.seen_congr (h.shows.sight inv.output h.output) d count)

end Mirrors

end Invocation

variable {inv inv' : Invocation} {s s' : Store}

theorem Recipe.effect_of_mirrors {d : ElemType} (h : inv.Mirrors s inv' s') (recipe : Recipe d) :
    recipe.effect inv' s' = recipe.effect inv s := by
  have hsame := h.same
  generalize inv'.inputs = inputs at hsame
  subst hsame
  cases recipe with
  | random D =>
    have hsamples (dst : Array (Elem d)) :
        samplesEffect (D inv.alpha inv.beta) dst (s'.device inv.device) =
          samplesEffect (D inv.alpha inv.beta) dst (s.device inv.device) := by
      unfold samplesEffect
      rw [h.shows.draws, h.shows.stream]
    simp only [effect, randomEffect, h.outputSeen_eq, hsamples]
  | _ =>
    simp only [effect, rowEffect, columnEffect, productEffect, h.inputSeen_eq, h.outputSeen_eq,
      h.shows.library]

theorem Probe.effect_of_mirrors (h : inv.Mirrors s inv' s') (p : Probe) :
    p.effect inv' s' = p.effect inv s := by
  have hlength := h.length_inputs
  have hsame := h.same
  generalize inv'.inputs = inputs at hsame hlength
  subst hsame
  cases p with
  | idle => rfl
  | ramp => simp only [effect, h.shows.size _ h.output, h.outputSeen_eq]
  | unsupported => rfl
  | mismatch => simp only [effect, hlength]
  | echo => rfl

theorem Routine.effect_of_mirrors (h : inv.Mirrors s inv' s') (routine : Routine) :
    routine.effect inv' s' = routine.effect inv s := by
  cases routine with
  | catalog d op =>
    unfold effect
    dsimp only
    split
    · exact Recipe.effect_of_mirrors h _
    · rfl
  | singleProduct => exact Recipe.effect_of_mirrors (d := .float32) h .wideProduct
  | doubleProduct => exact Recipe.effect_of_mirrors (d := .float64) h .wideProduct
  | probe p => exact p.effect_of_mirrors h

theorem RoutineKey.onDevice_of_mirrors (h : inv.Mirrors s inv' s') (op : Operation)
    (dtype : ElemType) :
    RoutineKey.onDevice dtype op inv'.device s' = RoutineKey.onDevice dtype op inv.device s := by
  have hdevice : inv'.device = inv.device := h.device
  unfold RoutineKey.onDevice
  rw [hdevice, h.shows.backend]

end DeviceTensor
