import Mathlib.Algebra.Group.Nat.Defs
import DeviceTensor.Element.Basic
set_option autoImplicit false

/-!
# Elements and their bytes

Elements that are laid over bytes are read back as they were, if the bytes have room for them.
-/

namespace DeviceTensor.Elem

variable {d : ElemType}

/-- The bytes of a number, each by its position. -/
theorem bytesOf_eq_map (w n : Nat) :
    bytesOf w n = (List.range w).map fun k => UInt8.ofNat ((n >>> (8 * k)) % 256) := by
  induction w generalizing n with
  | zero => rfl
  | succ w ih =>
    have hshift (k : Nat) : (n / 256) >>> (8 * k) = n >>> (8 * (k + 1)) := by
      rw [Nat.mul_add, Nat.add_comm, Nat.shiftRight_add, Nat.shiftRight_eq_div_pow n]
    rw [bytesOf, ih, List.range_succ_eq_map, List.map_cons, List.map_map]
    refine congrArg (List.cons _) (List.map_congr_left fun k _ => ?_)
    rw [Function.comp, hshift]

/-- The bytes of an element are read back as the element. -/
theorem ofNat_ofBytes (x : Elem d) :
    BitVec.ofNat (8 * d.width) (ofBytes ((List.range d.width).map x.byte)) = x := by
  have hbytes : (List.range d.width).map x.byte = bytesOf d.width x.toNat :=
    (bytesOf_eq_map d.width x.toNat).symm
  rw [hbytes, ofBytes_bytesOf, Nat.one_shiftLeft]
  apply BitVec.eq_of_toNat_eq
  rw [BitVec.toNat_ofNat, Nat.mod_mod, Nat.mod_eq_of_lt x.isLt]

/-- Byte `k` of an element that is laid over bytes. -/
theorem getElem?_overlay {xs : Array (Elem d)} {bytes : Array UInt8}
    (h : xs.size * d.width ≤ bytes.size) {i k : Nat} {x : Elem d} (hx : xs[i]? = some x)
    (hk : k < d.width) : (overlay xs bytes)[i * d.width + k]? = some (x.byte k) := by
  have hi : i < xs.size := (Array.getElem?_eq_some_iff.mp hx).1
  have hlt : i * d.width + k < bytes.size := by
    calc i * d.width + k < i * d.width + d.width := Nat.add_lt_add_left hk _
      _ = (i + 1) * d.width := (Nat.succ_mul i d.width).symm
      _ ≤ xs.size * d.width := Nat.mul_le_mul_right _ hi
      _ ≤ bytes.size := h
  have hpos : 0 < d.width := Nat.lt_of_le_of_lt (Nat.zero_le k) hk
  have hdiv : (i * d.width + k) / d.width = i := by
    rw [Nat.mul_comm, Nat.mul_add_div hpos, Nat.div_eq_of_lt hk, Nat.add_zero]
  have hmod : (i * d.width + k) % d.width = k := by
    rw [Nat.mul_comm, Nat.mul_add_mod, Nat.mod_eq_of_lt hk]
  rw [overlay, Array.getElem?_mapIdx, Array.getElem?_eq_getElem hlt, Option.map_some, hdiv, hmod, hx]

theorem getD_overlay {xs : Array (Elem d)} {bytes : Array UInt8}
    (h : xs.size * d.width ≤ bytes.size) {i k : Nat} (hi : i < xs.size) (hk : k < d.width) :
    (overlay xs bytes).getD (i * d.width + k) 0 = xs[i].byte k := by
  rw [Array.getD_eq_getD_getElem?, getElem?_overlay h (Array.getElem?_eq_getElem hi) hk]
  rfl

/-- Nothing is laid over the bytes behind the elements. -/
theorem getElem?_overlay_of_le {xs : Array (Elem d)} {p : Nat} (h : xs.size * d.width ≤ p)
    (bytes : Array UInt8) : (overlay xs bytes)[p]? = bytes[p]? := by
  have hbehind : xs[p / d.width]? = none :=
    Array.getElem?_eq_none ((Nat.le_div_iff_mul_le d.width_pos).mpr h)
  rw [overlay, Array.getElem?_mapIdx, hbehind]
  exact Option.map_id'

/-- What is laid over bytes is read back. -/
theorem decode_overlay {xs : Array (Elem d)} {bytes : Array UInt8}
    (h : xs.size * d.width ≤ bytes.size) : decode d xs.size (overlay xs bytes) = xs := by
  apply Array.ext_getElem?
  intro i
  by_cases hi : i < xs.size
  · have hbytes : ((List.range d.width).map fun k => (overlay xs bytes).getD (i * d.width + k) 0) =
        (List.range d.width).map xs[i].byte :=
      List.map_congr_left fun k hk => getD_overlay h hi (List.mem_range.mp hk)
    rw [decode, Array.getElem?_map, Array.getElem?_range, if_pos hi, Option.map_some, hbytes,
      ofNat_ofBytes, Array.getElem?_eq_getElem hi]
  · have hle := Nat.le_of_not_lt hi
    rw [Array.getElem?_eq_none hle, Array.getElem?_eq_none (by rwa [size_decode])]

theorem ofBytes_lt (bs : List UInt8) : ofBytes bs < 2 ^ (8 * bs.length) := by
  induction bs with
  | nil => exact Nat.one_pos
  | cons b bs ih =>
    have hb : b.toNat < 256 := b.toNat_lt
    have hstep : 2 ^ (8 * (b :: bs).length) = 256 * 2 ^ (8 * bs.length) := by
      rw [List.length_cons, Nat.mul_succ, Nat.pow_add, Nat.mul_comm]
    rw [ofBytes, hstep]
    omega

/-- The bytes that a number was read from. -/
theorem bytesOf_ofBytes (bs : List UInt8) : bytesOf bs.length (ofBytes bs) = bs := by
  induction bs with
  | nil => rfl
  | cons b bs ih =>
    have hb : b.toNat < 256 := b.toNat_lt
    have hlow : (b.toNat + 256 * ofBytes bs) % 256 = b.toNat := by omega
    have hhigh : (b.toNat + 256 * ofBytes bs) / 256 = ofBytes bs := by omega
    rw [List.length_cons, ofBytes, bytesOf, hlow, hhigh, ih, UInt8.ofNat_toNat]

/-- Byte `k` of the element that a list of bytes is read as. -/
theorem byte_ofBytes {bs : List UInt8} (hbs : bs.length = d.width) {k : Nat} (hk : k < d.width) :
    byte (d := d) (BitVec.ofNat (8 * d.width) (ofBytes bs)) k = bs.getD k 0 := by
  have hlt : ofBytes bs < 2 ^ (8 * d.width) := hbs ▸ ofBytes_lt bs
  have hmap := bytesOf_eq_map d.width (ofBytes bs)
  rw [← hbs, bytesOf_ofBytes] at hmap
  unfold byte
  rw [BitVec.toNat_ofNat, Nat.mod_eq_of_lt hlt]
  have hget : bs[k]? = some (UInt8.ofNat ((ofBytes bs >>> (8 * k)) % 256)) := by
    conv => lhs; rw [hmap]
    rw [List.getElem?_map, List.getElem?_range (by rwa [hbs]), Option.map_some]
  rw [List.getD_eq_getElem?_getD, hget, Option.getD_some]

/-- Elements that are laid back over the bytes that they were read from. -/
theorem overlay_decode (d : ElemType) (count : Nat) (bytes : Array UInt8) :
    overlay (decode d count bytes) bytes = bytes := by
  apply Array.ext_getElem?
  intro p
  by_cases hp : p < bytes.size
  · have hlt : p % d.width < d.width := Nat.mod_lt _ d.width_pos
    have hplace : p / d.width * d.width + p % d.width = p := by
      rw [Nat.mul_comm]
      exact Nat.div_add_mod p d.width
    rw [overlay, Array.getElem?_mapIdx, Array.getElem?_eq_getElem hp, Option.map_some, decode,
      Array.getElem?_map, Array.getElem?_range]
    by_cases hi : p / d.width < count
    · rw [if_pos hi, Option.map_some]
      dsimp only
      rw [byte_ofBytes (by simp) hlt]
      simp [hplace, hlt, hp]
    · rw [if_neg hi]
      rfl
  · have hle := Nat.le_of_not_lt hp
    rw [Array.getElem?_eq_none hle, Array.getElem?_eq_none (by rwa [size_overlay])]

/-- A byte that belongs to an element as it was read. -/
theorem getElem?_overlay_of_decode {xs : Array (Elem d)} {count p : Nat} {bytes : Array UInt8}
    (h : xs[p / d.width]? = (decode d count bytes)[p / d.width]?) :
    (overlay xs bytes)[p]? = bytes[p]? := by
  conv => rhs; rw [← overlay_decode d count bytes]
  rw [overlay, overlay, Array.getElem?_mapIdx, Array.getElem?_mapIdx, h]

theorem ofBytes_zeros (w : Nat) : ofBytes (List.replicate w 0) = 0 := by
  induction w with
  | zero => rfl
  | succ w ih =>
    rw [List.replicate_succ, ofBytes, ih]
    rfl

/-- Bytes that are all zero hold the zero element throughout. -/
theorem decode_zeros (d : ElemType) (count size : Nat) :
    decode d count (Array.replicate size 0) = Array.replicate count 0 := by
  have hzero (p : Nat) : (Array.replicate size (0 : UInt8)).getD p 0 = 0 := by
    rw [Array.getD_eq_getD_getElem?, Array.getElem?_replicate]
    split <;> rfl
  apply Array.ext_getElem?
  intro i
  simp only [decode, hzero, List.map_const', List.length_range, ofBytes_zeros, Array.getElem?_map,
    Array.getElem?_range, Array.getElem?_replicate]
  split <;> rfl

/-- The cast of zero is zero, between any two element types. -/
theorem cast_zero (s t : ElemType) : cast s t 0 = some 0 := by
  cases s <;> cases t <;> decide +kernel

end DeviceTensor.Elem
