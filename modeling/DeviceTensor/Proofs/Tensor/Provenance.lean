import DeviceTensor.Proofs.Tensor.Making
set_option autoImplicit false

/-!
# Where the block of a result comes from

Whether an operation gives a tensor on an old block or on a new one does not depend on elements or on
shapes.  Copies and computed results have a new block; a view has the block of its source; an operation
that changes a tensor keeps the block, takes a new one, or is left with none.
-/

namespace DeviceTensor.Tensor

open DeviceTensor.Action

variable {s : Store} {P : Option BlockId → Prop}

/-- The tensor that the action gives, if it gives one, has a block that `P` admits. -/
def Lands (x : Action Fault Tensor) (s : Store) (P : Option BlockId → Prop) : Prop :=
  x.Ends s (fun t _ => P t.block) fun _ _ => True

/-- The tensor that the action gives, if it gives one, has a new block. -/
def LandsAnew (x : Action Fault Tensor) (s : Store) : Prop :=
  Lands x s (· = some s.blocks.size)

theorem Lands.of_ends {x : Action Fault Tensor} {Q : Tensor → Store → Prop}
    {E : Fault → Store → Prop} (h : x.Ends s Q E) (hP : ∀ t s', Q t s' → P t.block) :
    Lands x s P :=
  h.mono hP fun _ _ _ => trivial

/-- Work on a tensor that was made does not change where it is. -/
theorem building_lands {make : Action Fault Tensor} {work : Tensor → Action Fault Unit}
    (h : Lands make s P) : Lands (building make work) s P := by
  unfold Lands building
  rw [ends_bind]
  refine Ends.mono h (fun t s₁ ht => ?_) fun _ _ h => h
  rw [ends_bind, ends_onFailure]
  exact .of_forall (fun _ _ => ht) fun _ _ => trivial

/-! ## New tensors -/

theorem onDevice_lands (shape : Shape) (d : DeviceId) (dtype : ElemType) :
    LandsAnew (onDevice shape d dtype) s :=
  .of_ends (onDevice_new shape d dtype s) fun _ _ h => h.1

theorem blankLike_lands (t : Tensor) : LandsAnew t.blankLike s :=
  .of_ends (t.blankLike_new s) fun _ _ h => h.1

theorem ofElements_lands {d : ElemType} (shape : Shape) (xs : Array (Elem d)) :
    LandsAnew (ofElements shape xs) s := by
  unfold LandsAnew Lands ofElements
  rw [ends_bind, ends_ofExcept]
  refine ⟨fun count _ => ?_, fun _ _ => trivial⟩
  split
  · exact trivial
  · exact building_lands (onDevice_lands _ _ _)

theorem map_lands (op : Operation) (t : Tensor) (x : Double) : LandsAnew (t.map op x) s :=
  building_lands t.blankLike_lands

theorem zip_lands (op : Operation) (lhs rhs : Tensor) : LandsAnew (lhs.zip op rhs) s :=
  building_lands lhs.blankLike_lands

theorem operate_lands (f : Operator) (t : Tensor) (rhs : RightSide) :
    LandsAnew (t.operate f rhs) s := by
  cases rhs with
  | tensor other => exact zip_lands f.onTensors t other
  | scalar x => exact map_lands f.onScalar t x

theorem softmax_lands (t : Tensor) (axis : Nat) : LandsAnew (t.softmax axis) s :=
  building_lands t.blankLike_lands

theorem sums_lands (which : Summation) (t : Tensor) : LandsAnew (t.sums which) s := by
  unfold LandsAnew Lands sums
  rw [ends_bind, ends_ofExcept]
  exact ⟨fun _ _ => building_lands (onDevice_lands _ _ _), fun _ _ => trivial⟩

theorem sumAxis_lands (t : Tensor) (axis : Nat) : LandsAnew (t.sumAxis axis) s :=
  .of_ends (t.sumAxis_ends axis) fun _ _ h => h.1

theorem average_lands (t : Tensor) (axis : Nat) : LandsAnew (t.average axis) s := by
  unfold LandsAnew Lands average
  rw [ends_bind, ends_ofExcept]
  exact ⟨fun _ _ => building_lands (t.sumAxis_lands axis), fun _ _ => trivial⟩

theorem product_lands (a b : Tensor) : LandsAnew (a.product b) s := by
  unfold LandsAnew Lands product
  rw [ends_bind, ends_examine]
  refine ⟨fun _ _ => ?_, fun _ _ => trivial⟩
  rw [ends_bind, ends_ofExcept]
  exact ⟨fun _ _ => building_lands (onDevice_lands _ _ _), fun _ _ => trivial⟩

/-- A duplicate has a new block if there is one to copy. -/
theorem duplicate_lands (t : Tensor) :
    Lands t.duplicate s fun o => o = t.block.map fun _ => s.blocks.size := by
  unfold Lands duplicate
  rw [ends_bind]
  refine Ends.mono t.blankLike_lands (fun out s₁ hout => ?_) fun _ _ h => h
  cases hb : t.block with
  | none => rfl
  | some b =>
    dsimp only
    rw [ends_bind, ends_inspect, ends_bind, ends_onFailure]
    exact .of_forall (fun _ _ => hout) fun _ _ => trivial

/-! ## Views -/

theorem share_lands (t : Tensor) : Lands t.share s (· = t.block) := by
  unfold Lands share
  rw [ends_bind, ends_change, ends_pure]

theorem transpose_lands (t : Tensor) : Lands t.transpose s (· = t.block) := by
  unfold transpose
  split
  · unfold Lands
    rw [ends_bind]
    exact t.share_lands.mono (fun _ _ h => h) fun _ _ h => h
  · trivial

/-! ## Changed tensors -/

theorem resize_lands (t : Tensor) (shape : Shape) :
    Lands (t.resize shape) s fun o => o = t.block ∨ o = some s.blocks.size := by
  unfold Lands resize
  rw [ends_bind, ends_ofExcept]
  refine ⟨fun n _ => ?_, fun _ _ => trivial⟩
  rw [ends_bind, ends_inspect]
  split
  · exact .inl rfl
  · exact .inr rfl

/-- A reshaped tensor stays on its block; only a tensor without one gets a new one. -/
theorem reshape_lands (t : Tensor) (shape : Shape) :
    Lands (t.reshape shape) s fun o => o = t.block ∨ t.block = none ∧ o = some s.blocks.size := by
  unfold reshape
  split
  · rename_i hb
    exact (t.resize_lands shape).mono (fun _ _ h => h.imp_right fun h => ⟨hb, h⟩) fun _ _ h => h
  · rename_i b hb
    unfold Lands
    rw [ends_bind, ends_ofExcept]
    exact ⟨fun _ _ => .inl rfl, fun _ _ => trivial⟩

theorem reshaped_lands (t : Tensor) (shape : Shape) :
    Lands (t.reshaped shape) s fun o => o = t.block ∨ t.block = none ∧ o = some s.blocks.size := by
  unfold Lands reshaped share
  rw [ends_bind, ends_bind, ends_change, ends_pure, ends_onFailure]
  refine (t.reshape_lands shape).mono (fun u s' h => h.imp_right fun ⟨hb, h⟩ => ⟨hb, ?_⟩) fun _ _ h => h
  unfold retain at h
  rw [hb] at h
  exact h

/-- The tensor keeps its block, gets a new one, or is left without one. -/
def StaysOrMoves (t : Tensor) (s : Store) (o : Option BlockId) : Prop :=
  o = t.block ∨ o = none ∨ o = some s.blocks.size

theorem takeForm_lands (t other : Tensor) : Lands (t.takeForm other) s (t.StaysOrMoves s) := by
  unfold Lands takeForm
  rw [ends_bind, ends_inspect]
  split
  · exact .inl rfl
  · cases hb : other.block with
    | none =>
      dsimp only
      rw [ends_bind, ends_change, ends_pure]
      exact .inr (.inl hb)
    | some b => exact .inr (.inr rfl)

theorem convert_lands (t : Tensor) (d : ElemType) : Lands (t.convert d) s (t.StaysOrMoves s) := by
  unfold convert
  split
  · exact .inl rfl
  · split
    · exact .inl rfl
    · rename_i b hb
      unfold Lands
      rw [ends_bind, ends_examine]
      refine ⟨fun size _ => ?_, fun _ _ => trivial⟩
      rw [ends_bind, ends_inspect]
      split
      · rw [ends_bind]
        exact .of_forall (fun _ _ => .inl rfl) fun _ _ => trivial
      · rw [ends_bind, ends_changing, ends_bind, ends_onFailure]
        exact .of_forall (fun _ _ => .inr (.inr rfl)) fun _ _ => trivial

theorem moveTo_lands (t : Tensor) (d : DeviceId) : Lands (t.moveTo d) s (t.StaysOrMoves s) := by
  unfold moveTo
  split
  · exact .inl rfl
  · split
    · exact .inl rfl
    · rename_i b hb
      unfold Lands moveBlock
      rw [ends_bind, ends_inspect, ends_bind, ends_inspect, ends_bind, ends_changing, ends_bind,
        ends_onFailure]
      exact .of_forall (fun _ _ => .inr (.inr rfl)) fun _ _ => trivial

end DeviceTensor.Tensor
