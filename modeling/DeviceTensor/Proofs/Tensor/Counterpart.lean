import DeviceTensor.Proofs.Element.Bytes
import DeviceTensor.Proofs.Routine.Arrangement
import DeviceTensor.Proofs.Store.Sight
import DeviceTensor.Proofs.Tensor.Check
set_option autoImplicit false

/-!
# Tensors with the same elements

A tensor is a counterpart of another if both have one shape, one element type and the same elements,
on devices that are alike.  Whether a matrix is stored transposed, and in which block, does not
matter; what a routine sees of counterparts is laid alike.
-/

namespace DeviceTensor

open DeviceTensor.Except

/-- The devices lie on one backend, and the host addresses the memory of both or of none. -/
structure Device.Like (d d' : Device) : Prop where
  backend : d'.backend = d.backend
  addressable : d'.addressable = d.addressable

theorem Device.Like.refl (d : Device) : d.Like d := ⟨rfl, rfl⟩

theorem Device.Like.symm {d d' : Device} (h : d.Like d') : d'.Like d :=
  ⟨h.backend.symm, h.addressable.symm⟩

/-- Devices stay alike. -/
theorem Device.Like.mono {d d' : DeviceId} {s s' s₁ s₁' : Store}
    (h : (s.device d).Like (s'.device d')) (hs : s.Extends s₁) (hs' : s'.Extends s₁') :
    (s₁.device d).Like (s₁'.device d') where
  backend := (hs'.backend d').trans (h.backend.trans (hs.backend d).symm)
  addressable := by rw [hs'.addressable, hs.addressable, h.addressable]

namespace Store

/-- The stores have the same routines, all of them for the host. -/
structure Peers (s s' : Store) : Prop where
  onHost : s.registry.OnHost
  registry : s'.registry = s.registry
  library : s'.library = s.library

variable {s s' s₁ s₁' : Store}

theorem Peers.symm (h : s.Peers s') : s'.Peers s :=
  ⟨h.registry ▸ h.onHost, h.registry.symm, h.library.symm⟩

theorem Peers.mono (h : s.Peers s') (hs : s.Extends s₁) (hs' : s'.Extends s₁') : s₁.Peers s₁' where
  onHost := hs.registry ▸ h.onHost
  registry := by rw [hs.registry, hs'.registry, h.registry]
  library := by rw [hs.library, hs'.library, h.library]

end Store

namespace Tensor

/-! ## Elements -/

/-- The matrix of a tensor; one of another rank is a single row. -/
def grid (t : Tensor) : Grid :=
  match t.shape with
  | [rows, cols] => ⟨rows, cols, t.transposed⟩
  | shape => ⟨1, shape.prod, false⟩

/-- The elements in the block of a tensor, in the order of storage. -/
def stored (d : ElemType) (t : Tensor) (s : Store) : Array (Elem d) :=
  match t.block with
  | some b => Elem.decode d (t.count s) (s.block b).contents
  | none => #[]

/-- Element `(i, j)` of a tensor. -/
def element (d : ElemType) (t : Tensor) (s : Store) (i j : Nat) : Option (Elem d) :=
  (t.stored d s)[t.grid.offset i j]?

/-- The tensor `t'` of `s'` has the shape, the type and the elements of `t` of `s`. -/
structure Counterpart (t : Tensor) (s : Store) (t' : Tensor) (s' : Store) : Prop where
  shape : t'.shape = t.shape
  dtype : t'.dtype = t.dtype
  device : (s.device t.device).Like (s'.device t'.device)
  elements : ∀ i j, i < t.grid.rows → j < t.grid.cols →
    t'.element t.dtype s' i j = t.element t.dtype s i j

/-- The tensor is valid, and its handle is among those of the store. -/
structure Owned (t : Tensor) (s : Store) : Prop where
  valid : t.Valid s
  holds : ∃ hs, s.Holds hs ∧ t.held ⊆ hs

variable {t t' : Tensor} {s s' : Store} {b b' : BlockId} {d : ElemType}

theorem size_grid (t : Tensor) : t.grid.size = t.shape.prod := by
  unfold grid
  split
  · rename_i rows cols hs
    simp [hs, Grid.size]
  · simp [Grid.size]

theorem grid_of_matrix {rows cols : Nat} (hs : t.shape = [rows, cols]) :
    t.grid = ⟨rows, cols, t.transposed⟩ := by
  unfold grid
  rw [hs]

theorem stored_of_block (hb : t.block = some b) :
    t.stored d s = Elem.decode d (t.count s) (s.block b).contents := by
  unfold stored
  rw [hb]

/-- What a tensor stores is in its block. -/
theorem stored_congr (h : ∀ b, t.block = some b → s'.block b = s.block b) :
    t.stored d s' = t.stored d s := by
  unfold stored count byteSize
  cases hb : t.block with
  | none => rfl
  | some b =>
    dsimp only
    rw [h b hb]

theorem size_stored (ht : t.Valid s) (hb : t.block = some b) :
    (t.stored d s).size = t.grid.size := by
  rw [stored_of_block hb, Elem.size_decode, (ht.filled b hb).count hb, size_grid]

/-! ## Counterparts -/

namespace Counterpart

theorem refl (t : Tensor) (s : Store) : t.Counterpart s t s :=
  ⟨rfl, rfl, .refl _, fun _ _ _ _ => rfl⟩

theorem rows (h : t.Counterpart s t' s') : t'.grid.rows = t.grid.rows := by
  unfold grid
  rw [h.shape]
  split <;> rfl

theorem cols (h : t.Counterpart s t' s') : t'.grid.cols = t.grid.cols := by
  unfold grid
  rw [h.shape]
  split <;> rfl

theorem rank (h : t.Counterpart s t' s') : t'.rank = t.rank := by
  unfold Tensor.rank
  rw [h.shape]

theorem symm (h : t.Counterpart s t' s') : t'.Counterpart s' t s where
  shape := h.shape.symm
  dtype := h.dtype.symm
  device := h.device.symm
  elements i j hi hj := by
    rw [h.dtype]
    exact (h.elements i j (h.rows ▸ hi) (h.cols ▸ hj)).symm

theorem backend (h : t.Counterpart s t' s') : s'.backend t'.device = s.backend t.device :=
  h.device.backend

/-- A counterpart of a tensor on a block lies on a block itself. -/
theorem block (h : t.Counterpart s t' s') (ht : t.Valid s) (ht' : t'.Valid s')
    (hb : t.block = some b) : ∃ b', t'.block = some b' := by
  cases hb' : t'.block with
  | some b' => exact ⟨b', rfl⟩
  | none =>
    have hshape : t.shape = [] := h.shape.symm.trans (ht'.bare hb').1
    have hgrid : t.grid = ⟨1, 1, false⟩ := by
      unfold grid
      rw [hshape]
      rfl
    have hlt : t.grid.offset 0 0 < (t.stored t.dtype s).size := by
      rw [size_stored ht hb, hgrid]
      exact Nat.one_pos
    have helement := h.elements 0 0 (by rw [hgrid]; exact Nat.one_pos)
      (by rw [hgrid]; exact Nat.one_pos)
    unfold element at helement
    rw [Array.getElem?_eq_getElem hlt, stored, hb'] at helement
    cases helement

/-- The elements of counterparts are laid alike. -/
theorem laid (h : t.Counterpart s t' s') (ht : t.Valid s) (ht' : t'.Valid s')
    (hb : t.block = some b) :
    Laid t.grid (t.stored t.dtype s) t'.grid (t'.stored t.dtype s') := by
  obtain ⟨b', hb'⟩ := h.block ht ht' hb
  refine ⟨h.rows, h.cols, size_stored ht hb, ?_, h.elements⟩
  rw [size_stored ht' hb', size_grid, size_grid, h.shape]

theorem count (h : t.Counterpart s t' s') (ht : t.Valid s) (ht' : t'.Valid s')
    (hb : t.block = some b) : t'.count s' = t.count s := by
  obtain ⟨b', hb'⟩ := h.block ht ht' hb
  rw [(ht.filled b hb).count hb, (ht'.filled b' hb').count hb', h.shape]

/-- Counterparts in one storage order have one matrix. -/
theorem grid_eq (h : t.Counterpart s t' s') (hflag : t'.transposed = t.transposed) :
    t'.grid = t.grid := by
  unfold grid
  rw [h.shape, hflag]

end Counterpart

/-! ## Readings -/

/-- The grids read counterparts as the same matrix: each in its own storage order, or both in one
order if they are stored in one. -/
inductive Reading (t t' : Tensor) : Grid → Grid → Prop where
  | matrix : Reading t t' t.grid t'.grid
  | storage (g : Grid) (hsize : g.size = t.shape.prod) (hflag : t'.transposed = t.transposed) :
      Reading t t' g g

/-- The elements of counterparts are laid alike in every reading. -/
theorem Reading.laid {g g' : Grid} (hr : Reading t t' g g') (h : t.Counterpart s t' s')
    (ht : t.Valid s) (ht' : t'.Valid s') (hb : t.block = some b) :
    Laid g (t.stored t.dtype s) g' (t'.stored t.dtype s') := by
  have hlaid := h.laid ht ht' hb
  cases hr with
  | matrix => exact hlaid
  | storage g hsize hflag =>
    rw [h.grid_eq hflag] at hlaid
    rw [hlaid.eq]
    exact .refl (by rw [hlaid.size, size_grid, hsize])

/-- Only matrices are transposed views. -/
theorem Counterpart.flag_eq (h : t.Counterpart s t' s') (ht : t.Valid s) (ht' : t'.Valid s')
    (hrank : t.rank ≠ 2) : t'.transposed = t.transposed := by
  have hflag : t.transposed = false := Bool.eq_false_iff.mpr fun hflag => hrank (ht.rank hflag)
  have hflag' : t'.transposed = false := Bool.eq_false_iff.mpr fun hflag =>
    hrank (h.rank ▸ ht'.rank hflag)
  exact hflag'.trans hflag.symm

/-- A matrix is read in its own storage order, and storage without a matrix in any. -/
theorem Reading.of_dims (h : t.Counterpart s t' s') (ht : t.Valid s) (ht' : t'.Valid s')
    {rows cols : Nat} (hsize : rows * cols = t.shape.prod)
    (hdims : t.rank = 2 → t.shape = [rows, cols]) :
    Reading t t' ⟨rows, cols, t.transposed⟩ ⟨rows, cols, t'.transposed⟩ := by
  by_cases hrank : t.rank = 2
  · have hs := hdims hrank
    rw [← grid_of_matrix hs, ← grid_of_matrix (h.shape.trans hs)]
    exact .matrix
  · have hflag := h.flag_eq ht ht' hrank
    rw [hflag]
    exact .storage _ hsize hflag

/-- What is laid alike in a reading of counterparts is laid alike as their matrices are. -/
theorem Reading.matrices {g g' : Grid} (hr : Reading t t' g g') (h : t.Counterpart s t' s')
    {α : Type} {xs ys : Array α} (hlaid : Laid g xs g' ys) : Laid t.grid xs t'.grid ys := by
  cases hr with
  | matrix => exact hlaid
  | storage g hsize hflag =>
    rw [h.grid_eq hflag, hlaid.eq]
    exact .refl (by rw [hlaid.size, size_grid, hsize])

/-! ## Views of counterparts -/

variable {n : Nat}

/-- A view of a counterpart shows its elements. -/
theorem seen_follows (h : t.Counterpart s t' s') (ht : t.Owned s) (ht' : t'.Owned s')
    (hb : t.block = some b) (hb' : t'.block = some b') (hd : t.dtype = d)
    (hn : n = t.shape.prod) {g g' : Grid} (hr : Reading t t' g g') :
    Follows (Laid g · g' ·) (Block.seen b d n s) (Block.seen b' d n s') := by
  have hf := ht.valid.filled b hb
  have hf' := ht'.valid.filled b' hb'
  have howner : (s.owner b).Like (s'.owner b') := by
    unfold Store.owner
    rw [hf.place, hf'.place]
    exact h.device
  have hsize : (s'.block b').size = (s.block b).size := by
    rw [hf.size, hf'.size, h.shape, h.dtype]
  refine .bind (R := fun _ _ => True) ?_ fun _ _ _ => .ok ?_
  · intro u hu
    refine ⟨u, ?_, trivial⟩
    rw [Block.checkView_eq_ok_iff] at hu ⊢
    rwa [howner.addressable, hsize]
  · have hlaid := hr.laid h ht.valid ht'.valid hb
    subst hd
    rw [stored_of_block hb, stored_of_block hb', hf.count hb, hf'.count hb', h.shape,
      ← hn] at hlaid
    exact hlaid

end Tensor

end DeviceTensor
