import DeviceTensor.Proofs.Tensor.Migration
import DeviceTensor.Tensor.Form
set_option autoImplicit false

/-!
# Tensors that take a form

A tensor that is resized, or takes the form of another, keeps its block if the block has the right
size and lies on the right device.  Otherwise it lets go of the block and gets a new one without
memory, or none.  Sizes are products taken from the left; a product that is no size changes nothing.
-/

namespace DeviceTensor

open DeviceTensor.Action

/-! ## Byte sizes -/

namespace Size

/-- A product of sizes from the left is exact if all partial products are sizes, and overflows
otherwise. -/
theorem foldlM_mul {dims : List Nat} {a : Nat} :
    ((∀ k, k < dims.length → a * (dims.take (k + 1)).prod < limit) →
      dims.foldlM mul a = .ok (a * dims.prod)) ∧
    ((¬∀ k, k < dims.length → a * (dims.take (k + 1)).prod < limit) →
      dims.foldlM mul a = .error (.overflow .mul)) := by
  induction dims generalizing a with
  | nil => exact ⟨fun _ => congrArg Except.ok (Nat.mul_one a).symm, fun h => absurd nofun h⟩
  | cons n dims ih =>
    have hstep (k : Nat) : a * ((n :: dims).take (k + 2)).prod =
        a * n * (dims.take (k + 1)).prod := by
      rw [List.take_succ_cons, List.prod_cons, Nat.mul_assoc]
    have hfirst : a * ((n :: dims).take 1).prod = a * n := by
      rw [List.take_succ_cons, List.take_zero, List.prod_cons, List.prod_nil, Nat.mul_one]
    by_cases hn : a * n < limit
    · have hall : (∀ k, k < (n :: dims).length → a * ((n :: dims).take (k + 1)).prod < limit) ↔
          ∀ k, k < dims.length → a * n * (dims.take (k + 1)).prod < limit := by
        constructor
        · intro h k hk
          rw [← hstep]
          exact h (k + 1) (Nat.succ_lt_succ hk)
        · intro h k hk
          cases k with
          | zero => exact hfirst ▸ hn
          | succ k =>
            rw [hstep]
            exact h k (Nat.lt_of_succ_lt_succ hk)
      rw [List.foldlM_cons, mul_of_lt hn, hall, List.prod_cons, ← Nat.mul_assoc]
      exact ih
    · have htrap : mul a n = .error (.overflow .mul) := if_neg hn
      rw [List.foldlM_cons, htrap]
      exact ⟨fun h => absurd (hfirst ▸ h 0 (Nat.succ_pos _)) hn, fun _ => rfl⟩

end Size

namespace Shape

variable {shape : Shape} {d : ElemType}

/-- The elements of the shape are counted by sizes, from the first dimension on, and so are their
bytes. -/
structure Measured (shape : Shape) (d : ElemType) : Prop where
  partials : ∀ k, k < shape.length → (shape.take (k + 1)).prod < Size.limit
  bytes : shape.prod * d.width < Size.limit

theorem byteSize_of_measured (h : shape.Measured d) :
    shape.byteSize d = .ok (shape.prod * d.width) := by
  have hcount : Size.product shape = .ok shape.prod := by
    have hprod := (Size.foldlM_mul (a := 1)).1 fun k hk => by
      rw [Nat.one_mul]
      exact h.partials k hk
    rwa [Nat.one_mul] at hprod
  unfold byteSize
  rw [count_eq, hcount]
  exact congrArg Fault.ofTrap (Size.mul_of_lt h.bytes)

theorem byteSize_of_not_measured (h : ¬shape.Measured d) :
    shape.byteSize d = .error (.trap (.overflow .mul)) := by
  unfold byteSize
  rw [count_eq]
  by_cases hall : ∀ k, k < shape.length → 1 * (shape.take (k + 1)).prod < Size.limit
  · have hcount : Size.product shape = .ok (1 * shape.prod) := Size.foldlM_mul.1 hall
    simp only [Nat.one_mul] at hall hcount
    have hbytes : ¬shape.prod * d.width < Size.limit := fun hlt => h ⟨hall, hlt⟩
    rw [hcount]
    exact congrArg Fault.ofTrap (if_neg hbytes)
  · have hcount : Size.product shape = .error (.overflow .mul) := Size.foldlM_mul.2 hall
    rw [hcount]
    rfl

end Shape

namespace Tensor

variable {s : Store} {t o : Tensor} {b c : BlockId} {n : Nat} {shape : Shape}

/-! ## Blocks that are kept -/

/-- The tensor has a block of `n` bytes. -/
def HasBytes (t : Tensor) (n : Nat) (s : Store) : Prop :=
  ∃ b, t.block = some b ∧ (s.block b).size = n

/-- Both tensors have blocks, of one size and on one device. -/
def Suited (t o : Tensor) (s : Store) : Prop :=
  o.block ≠ none ∧ t.HasBytes (o.byteSize s) s ∧ t.device = o.device

theorem hasByteSize_iff : t.hasByteSize n s = true ↔ t.HasBytes n s := by
  unfold hasByteSize HasBytes
  cases t.block with
  | none => exact ⟨nofun, nofun⟩
  | some b => simp

theorem keepsBlock_iff : t.keepsBlock o s = true ↔ t.Suited o s := by
  unfold keepsBlock Suited HasBytes byteSize
  cases t.block with
  | none => exact ⟨nofun, fun h => nomatch h.2.1⟩
  | some b =>
    cases o.block with
    | none => exact ⟨nofun, fun h => absurd rfl h.1⟩
    | some c => simp

/-! ## Results -/

theorem takeForm_of_suited (h : t.Suited o s) :
    t.takeForm o s = (.ok { o with block := t.block }, s) := by
  unfold takeForm
  rw [inspect_bind_apply, if_pos (keepsBlock_iff.mpr h)]
  rfl

theorem takeForm_of_bare (hc : o.block = none) : t.takeForm o s = (.ok o, t.release s) := by
  have hnot : ¬t.keepsBlock o s = true := fun h => (keepsBlock_iff.mp h).1 hc
  unfold takeForm
  rw [inspect_bind_apply, if_neg hnot, hc]
  rfl

theorem takeForm_of_not_suited (h : ¬t.Suited o s) (hc : o.block = some c) :
    t.takeForm o s = (.ok { o with block := some s.blocks.size },
      t.release (s.acquire o.device (s.block c).size).2) := by
  unfold takeForm
  rw [inspect_bind_apply, if_neg (mt keepsBlock_iff.mp h), hc]
  rfl

theorem resize_of_hasBytes (hshape : shape.Measured t.dtype)
    (h : t.HasBytes (shape.prod * t.dtype.width) s) :
    t.resize shape s = (.ok { t with shape := shape, transposed := false }, s) := by
  unfold resize
  rw [Shape.byteSize_of_measured hshape, bind_apply, Action.ofExcept]
  dsimp only
  rw [inspect_bind_apply, if_pos (hasByteSize_iff.mpr h)]
  rfl

theorem resize_of_not_hasBytes (hshape : shape.Measured t.dtype)
    (h : ¬t.HasBytes (shape.prod * t.dtype.width) s) :
    t.resize shape s =
      (.ok { t with shape := shape, transposed := false, block := some s.blocks.size },
        t.release (s.acquire t.device (shape.prod * t.dtype.width)).2) := by
  unfold resize
  rw [Shape.byteSize_of_measured hshape, bind_apply, Action.ofExcept]
  dsimp only
  rw [inspect_bind_apply, if_neg (mt hasByteSize_iff.mp h)]
  rfl

theorem resize_of_not_measured (hshape : ¬shape.Measured t.dtype) :
    t.resize shape s = (.error (.trap (.overflow .mul)), s) := by
  unfold resize
  rw [Shape.byteSize_of_not_measured hshape]
  rfl

/-! ## New blocks -/

/-- The new block of a tensor that has let go of its old one. -/
theorem block_release_acquire (hb : ∀ b, t.block = some b → b < s.blocks.size) (d : DeviceId)
    (n : Nat) : (t.release (s.acquire d n).2).block s.blocks.size = ⟨d, n, 1, .unbound⟩ := by
  cases hblock : t.block with
  | none =>
    unfold release
    rw [hblock]
    exact Store.block_acquire_self d n
  | some b =>
    rw [release_of_block hblock, Store.block_release_of_ne (Nat.ne_of_lt (hb b hblock)),
      Store.block_acquire_self]

end Tensor

end DeviceTensor
