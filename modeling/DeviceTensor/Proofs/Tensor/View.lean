import Mathlib.Data.List.Forall2
import DeviceTensor.Proofs.Tensor.Aliasing
import DeviceTensor.Proofs.Tensor.Exchange
set_option autoImplicit false

/-!
# Views of one block

A clone, a reshaped tensor and a transpose describe the elements of the same block.  Taking a view
binds no memory and changes no byte: `Store.Sheds`.  Where the element at a multi-index lies in the
block depends on the shape and on the order of storage alone, `Tensor.place`, so that a view that
has both of them back has the same elements at the same places.
-/

namespace DeviceTensor

open DeviceTensor.Action

/-! ## Stores that bind nothing -/

namespace Store

/-- The memory of every block is as it was, or was given back; no device holds more than before. -/
structure Sheds (s s' : Store) : Prop where
  size : ∀ b, (s'.block b).size = (s.block b).size
  memory : ∀ b, (s'.block b).memory = (s.block b).memory ∨ (s'.block b).memory = .released
  held : ∀ d, (s'.device d).held ≤ (s.device d).held

namespace Sheds

variable {s t u : Store}

theorem refl (s : Store) : s.Sheds s :=
  ⟨fun _ => rfl, fun _ => .inl rfl, fun _ => Nat.le_refl _⟩

theorem trans (h : s.Sheds t) (h' : t.Sheds u) : s.Sheds u where
  size b := (h'.size b).trans (h.size b)
  memory b := by
    rcases h'.memory b with hsame | hgone
    · rw [hsame]
      exact h.memory b
    · exact .inr hgone
  held d := Nat.le_trans (h'.held d) (h.held d)

theorem retain (s : Store) (b : BlockId) : s.Sheds (s.retain b) where
  size c := modifyBlock_keeps Block.size rfl c
  memory c := .inl (modifyBlock_keeps Block.memory rfl c)
  held _ := Nat.le_refl _

theorem release (s : Store) (b : BlockId) : s.Sheds (s.release b) where
  size := release_keeps Block.size (fun _ => rfl) (fun _ => rfl) b
  memory := memory_release s b
  held d := by
    have hreclaim (s : Store) (e : DeviceId) (n : Nat) :
        ((s.modifyDevice e (·.reclaim n)).device d).held ≤ (s.device d).held := by
      rw [device_modifyDevice]
      split
      · exact Nat.sub_le _ _
      · exact Nat.le_refl _
    unfold Store.release giveBack
    dsimp only
    split
    · split
      · exact hreclaim _ _ _
      · exact Nat.le_refl _
      · exact Nat.le_refl _
    · exact Nat.le_refl _

/-- Memory that was not given back is as it was. -/
theorem memory_of_live (h : s.Sheds t) {b : BlockId} (hlive : (t.block b).memory ≠ .released) :
    (t.block b).memory = (s.block b).memory :=
  (h.memory b).resolve_right hlive

end Sheds

end Store

/-! ## Places of elements -/

namespace Shape

/-- The place of a multi-index among all of a shape, the last index running fastest. -/
def rowMajor : Shape → List Nat → Nat
  | _ :: shape, i :: idx => i * shape.prod + rowMajor shape idx
  | _, _ => 0

/-- Every index of a multi-index lies inside its dimension. -/
abbrev Contains (shape : Shape) (idx : List Nat) : Prop := List.Forall₂ (· < ·) idx shape

theorem rowMajor_lt {shape : Shape} {idx : List Nat} (h : shape.Contains idx) :
    shape.rowMajor idx < shape.prod := by
  induction h with
  | nil => exact Nat.zero_lt_one
  | @cons i n idx shape hi _ ih =>
    rw [List.prod_cons]
    calc i * shape.prod + rowMajor shape idx < i * shape.prod + shape.prod :=
          Nat.add_lt_add_left ih _
      _ = (i + 1) * shape.prod := (Nat.succ_mul i _).symm
      _ ≤ n * shape.prod := Nat.mul_le_mul_right _ hi

end Shape

namespace Tensor

variable {s s' : Store} {t u v : Tensor} {b : BlockId} {d : ElemType} {idx : List Nat}

/-- The place of a multi-index in the block: a transposed matrix is stored column by column. -/
def place (t : Tensor) (idx : List Nat) : Nat :=
  if t.transposed then Shape.rowMajor t.shape.reverse idx.reverse else t.shape.rowMajor idx

/-- The element at a multi-index. -/
def elementAt (d : ElemType) (t : Tensor) (s : Store) (idx : List Nat) : Option (Elem d) :=
  (t.stored d s)[t.place idx]?

theorem place_lt (h : t.shape.Contains idx) : t.place idx < t.shape.prod := by
  unfold place
  split
  · rw [← List.prod_reverse]
    exact Shape.rowMajor_lt (List.forall₂_reverse_iff.mpr h)
  · exact Shape.rowMajor_lt h

/-- There is an element at every multi-index of the shape. -/
theorem exists_elementAt (ht : t.Valid s) (hb : t.block = some b) (h : t.shape.Contains idx)
    (d : ElemType) : ∃ e, t.elementAt d s idx = some e := by
  have hsize : (t.stored d s).size = t.shape.prod := (size_stored ht hb).trans (size_grid t)
  have hlt : t.place idx < (t.stored d s).size := hsize ▸ place_lt h
  exact ⟨_, Array.getElem?_eq_getElem hlt⟩

/-- The element of a matrix at two indices is the one in their row and column. -/
theorem elementAt_matrix (ht : t.rank = 2) (s : Store) (i j : Nat) :
    t.elementAt d s [i, j] = t.element d s i j := by
  obtain ⟨rows, cols, hshape⟩ := matrix_of_rank ht
  have hplace : t.place [i, j] = t.grid.offset i j := by
    unfold place grid Grid.offset
    rw [hshape]
    change (if t.transposed = true then Shape.rowMajor [cols, rows] [j, i]
      else Shape.rowMajor [rows, cols] [i, j]) = _
    simp only [Shape.rowMajor, List.prod_cons, List.prod_nil, Nat.mul_one, Nat.add_zero]
  unfold elementAt element
  rw [hplace]

/-- With rows and columns exchanged, the places of a matrix are those of the exchanged indices. -/
theorem place_flipped (t : Tensor) (idx : List Nat) :
    t.flipped.place idx.reverse = t.place idx := by
  unfold place flipped
  cases t.transposed with
  | false =>
    dsimp only
    rw [List.reverse_reverse, List.reverse_reverse]
    rfl
  | true => rfl

theorem flipped_flipped (t : Tensor) : t.flipped.flipped = t := by
  unfold flipped
  dsimp only
  rw [List.reverse_reverse, Bool.not_not]

/-! ## Views -/

/-- The tensor `u` describes as many elements of the same block as `t`, in the same order of storage
unless `turns` holds. -/
structure ViewOf (turns : Prop) (u t : Tensor) : Prop where
  block : u.block = t.block
  dtype : u.dtype = t.dtype
  device : u.device = t.device
  prod : u.shape.prod = t.shape.prod
  order : turns ∨ u.transposed = t.transposed

namespace ViewOf

variable {turns turns' : Prop}

theorem refl (t : Tensor) : t.ViewOf turns t := ⟨rfl, rfl, rfl, rfl, .inr rfl⟩

theorem mono (h : u.ViewOf turns t) (hturns : turns → turns') : u.ViewOf turns' t :=
  ⟨h.block, h.dtype, h.device, h.prod, h.order.imp_left hturns⟩

theorem trans (h : v.ViewOf turns u) (h' : u.ViewOf turns t) : v.ViewOf turns t where
  block := h.block.trans h'.block
  dtype := h.dtype.trans h'.dtype
  device := h.device.trans h'.device
  prod := h.prod.trans h'.prod
  order := by
    rcases h.order with hturns | hsame
    · exact .inl hturns
    · exact h'.order.imp_right hsame.trans

/-- A view that has the shape and the order of storage back is the tensor. -/
theorem eq_of_shape (h : u.ViewOf turns t) (hshape : u.shape = t.shape)
    (horder : u.transposed = t.transposed) : u = t := by
  obtain ⟨shape, dtype, transposed, device, block⟩ := u
  obtain ⟨rfl, rfl, rfl, -, -⟩ := h
  subst hshape horder
  rfl

theorem count (h : u.ViewOf turns t) (hs : s.Sheds s') : u.count s' = t.count s := by
  unfold Tensor.count byteSize
  rw [h.block, h.dtype]
  cases t.block with
  | none => rfl
  | some b => exact congrArg (· / t.dtype.width) (hs.size b)

/-- As long as its block is not released, a view stores the elements of the tensor. -/
theorem stored (h : u.ViewOf turns t) (hs : s.Sheds s') (hlive : u.Live s') (d : ElemType) :
    u.stored d s' = t.stored d s := by
  have hcount := h.count hs
  unfold Tensor.stored
  rw [hcount, h.block]
  cases hb : t.block with
  | none => rfl
  | some b =>
    have hmemory := hs.memory_of_live (hlive b (h.block.trans hb))
    unfold Block.contents
    dsimp only
    rw [hmemory, hs.size b]

end ViewOf

/-- If the action succeeds, it gives a view of `t` and binds no memory. -/
def GivesView (turns : Prop) (x : Action Fault Tensor) (t : Tensor) (s : Store) : Prop :=
  x.Ends s (fun u s' => u.ViewOf turns t ∧ s.Sheds s') fun _ _ => True

theorem sheds_retain (t : Tensor) (s : Store) : s.Sheds (t.retain s) := by
  unfold retain
  split
  · exact .retain s _
  · exact .refl s

theorem sheds_release (t : Tensor) (s : Store) : s.Sheds (t.release s) := by
  unfold release
  split
  · exact .release s _
  · exact .refl s

theorem share_givesView (t : Tensor) (s : Store) : GivesView False t.share t s :=
  ⟨.refl t, t.sheds_retain s⟩

theorem reshape_givesView (hb : t.block = some b) (shape : Shape) (s : Store) :
    GivesView False (t.reshape shape) t s := by
  unfold GivesView reshape
  rw [hb]
  dsimp only
  rw [ends_bind, ends_ofExcept]
  refine ⟨fun _ hcheck => ?_, fun _ _ => trivial⟩
  refine ⟨⟨hb.symm, rfl, rfl, ?_, .inr rfl⟩, .refl s⟩
  rcases of_checkReshape hcheck with ⟨-, hshape⟩ | ⟨-, -, hprod⟩
  · exact congrArg List.prod hshape
  · exact hprod

theorem reshaped_givesView (hb : t.block = some b) (shape : Shape) (s : Store) :
    GivesView False (t.reshaped shape) t s := by
  unfold GivesView reshaped share
  rw [ends_bind, ends_bind, ends_change, ends_pure, ends_onFailure]
  refine Ends.mono (reshape_givesView hb shape (t.retain s)) (fun u s' h => ?_) fun _ _ h => h
  exact ⟨h.1, (t.sheds_retain s).trans h.2⟩

theorem transpose_givesView (t : Tensor) (s : Store) : GivesView True t.transpose t s := by
  unfold GivesView transpose
  split
  · rename_i rows cols hshape
    unfold share
    rw [ends_bind, ends_bind, ends_change, ends_pure, ends_pure]
    refine ⟨⟨rfl, rfl, rfl, ?_, .inl trivial⟩, t.sheds_retain s⟩
    rw [hshape]
    exact List.prod_reverse [rows, cols]
  · exact trivial

/-! ## Transposed tensors and shapes -/

/-- A transposed tensor takes no other shape. -/
theorem reshape_of_transposed (hb : t.block = some b) (ht : t.transposed = true) {shape : Shape}
    (hne : shape ≠ t.shape) (s : Store) :
    t.reshape shape s = (.error (.reshapeTransposed t.shape shape), s) := by
  have hcheck : t.checkReshape shape = .error (.reshapeTransposed t.shape shape) := by
    unfold checkReshape
    rw [if_pos ht, if_neg hne]
  unfold reshape
  rw [hb]
  dsimp only
  rw [hcheck]
  rfl

/-- Neither is there a view of it in another shape. -/
theorem reshaped_of_transposed (hb : t.block = some b) (hpos : 0 < (s.block b).handles)
    (ht : t.transposed = true) {shape : Shape} (hne : shape ≠ t.shape) :
    t.reshaped shape s = (.error (.reshapeTransposed t.shape shape), s) := by
  unfold reshaped
  rw [bind_apply_of_ok (share_of_block hb s)]
  unfold onFailure
  rw [reshape_of_transposed hb ht hne]
  dsimp only
  rw [release_of_block hb, Store.retain_release hpos]

end Tensor

end DeviceTensor
