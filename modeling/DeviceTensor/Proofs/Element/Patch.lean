import DeviceTensor.Proofs.Element.Bytes
import DeviceTensor.Store.Copy
set_option autoImplicit false

/-!
# Elements laid over bytes at an offset

Elements reach the middle of a block in two ways: as bytes that are copied to a range, or by laying
everything up to the last of them over the start.  Both patch the same bytes, and what is read back
is an element that was laid there, or the one from before.
-/

namespace DeviceTensor.Elem

variable {d : ElemType}

/-! ## Places of bytes -/

theorem place_div {k j : Nat} (hj : j < d.width) : (k * d.width + j) / d.width = k := by
  rw [Nat.mul_comm, Nat.mul_add_div d.width_pos, Nat.div_eq_of_lt hj, Nat.add_zero]

theorem place_mod {k j : Nat} (hj : j < d.width) : (k * d.width + j) % d.width = j := by
  rw [Nat.mul_comm, Nat.mul_add_mod, Nat.mod_eq_of_lt hj]

theorem place_lt {count k j : Nat} (hk : k < count) (hj : j < d.width) :
    k * d.width + j < count * d.width := by
  calc k * d.width + j < k * d.width + d.width := Nat.add_lt_add_left hj _
    _ = (k + 1) * d.width := (Nat.succ_mul k d.width).symm
    _ ≤ count * d.width := Nat.mul_le_mul_right _ hk

/-- The bytes `bytes` with those of `xs` laid over them from element `offset` on. -/
def patch (xs : Array (Elem d)) (offset : Nat) (bytes : Array UInt8) : Array UInt8 :=
  bytes.mapIdx fun p old =>
    if offset ≤ p / d.width then
      match xs[p / d.width - offset]? with
      | some x => x.byte (p % d.width)
      | none => old
    else old

@[simp] theorem size_patch (xs : Array (Elem d)) (offset : Nat) (bytes : Array UInt8) :
    (patch xs offset bytes).size = bytes.size := by
  simp [patch]

/-! ## Two ways to lay elements at an offset -/

/-- What is read up to the offset and laid back changes nothing, so that only the elements behind it
count. -/
theorem overlay_extract (xs : Array (Elem d)) (offset count : Nat) (h : offset ≤ count)
    (bytes : Array UInt8) :
    overlay ((decode d count bytes).extract 0 offset ++ xs) bytes = patch xs offset bytes := by
  have hsame := overlay_decode d count bytes
  have hsize : ((decode d count bytes).extract 0 offset).size = offset := by
    simp [size_decode, h]
  apply Array.ext
  · simp [size_overlay]
  intro p hp hp'
  have hlt : p < bytes.size := by simpa [size_overlay] using hp
  simp only [overlay, patch, Array.getElem_mapIdx, Array.getElem?_append, hsize]
  by_cases hbefore : p / d.width < offset
  · have hread : (overlay (decode d count bytes) bytes)[p]? = bytes[p]? := by rw [hsame]
    simp only [overlay, Array.getElem?_mapIdx, Array.getElem?_eq_getElem hlt, Option.map_some,
      Option.some.injEq] at hread
    rw [if_pos hbefore, if_neg (Nat.not_le_of_lt hbefore), Array.getElem?_extract]
    simpa [size_decode, h, hbefore] using hread
  · rw [if_neg hbefore]
    exact (if_pos (Nat.le_of_not_lt hbefore)).symm

/-- Byte `j` of element `k` is byte `k * width + j`. -/
theorem getElem?_encode {xs : Array (Elem d)} {k j : Nat} (hk : k < xs.size) (hj : j < d.width) :
    (encode xs)[k * d.width + j]? = some (xs[k].byte j) := by
  have hlt : k * d.width + j < (Array.replicate (xs.size * d.width) (0 : UInt8)).size := by
    rw [Array.size_replicate]
    exact place_lt hk hj
  rw [encode, overlay, Array.getElem?_mapIdx, Array.getElem?_eq_getElem hlt, Option.map_some,
    place_div hj, place_mod hj, Array.getElem?_eq_getElem hk]

/-- Copying the bytes of elements to the place of an element. -/
theorem spliced_encode (xs : Array (Elem d)) (offset : Nat) (bytes : Array UInt8) :
    Block.spliced bytes (encode xs) (offset * d.width) 0 (xs.size * d.width) =
      patch xs offset bytes := by
  apply Array.ext
  · simp [Block.spliced]
  intro p hp hp'
  have hw := d.width_pos
  have hle : offset * d.width ≤ p ↔ offset ≤ p / d.width := (Nat.le_div_iff_mul_le hw).symm
  have hlt : p < offset * d.width + xs.size * d.width ↔ p / d.width < offset + xs.size := by
    rw [← Nat.add_mul]
    exact (Nat.div_lt_iff_lt_mul hw).symm
  simp only [Block.spliced, patch, Array.getElem_mapIdx, hle, hlt, Nat.zero_add]
  by_cases hfrom : offset ≤ p / d.width
  · rw [if_pos hfrom]
    by_cases hto : p / d.width < offset + xs.size
    · have hindex : p / d.width - offset < xs.size := by omega
      have hplace : p - offset * d.width = (p / d.width - offset) * d.width + p % d.width := by
        have hsplit := Nat.div_add_mod' p d.width
        have hstart := Nat.mul_le_mul_right d.width hfrom
        rw [Nat.sub_mul]
        omega
      rw [if_pos ⟨hfrom, hto⟩, hplace, Array.getD_eq_getD_getElem?,
        getElem?_encode hindex (Nat.mod_lt p hw), Array.getElem?_eq_getElem hindex]
      rfl
    · rw [if_neg fun h => hto h.2, Array.getElem?_eq_none (by omega)]
  · rw [if_neg fun h => hfrom h.1, if_neg hfrom]

/-! ## Reading back -/

theorem getElem?_decode {count k : Nat} (hk : k < count) (bytes : Array UInt8) :
    (decode d count bytes)[k]? =
      some (BitVec.ofNat _ (ofBytes ((List.range d.width).map fun j =>
        bytes.getD (k * d.width + j) 0))) := by
  rw [decode, Array.getElem?_map, Array.getElem?_range, if_pos hk, Option.map_some]

/-- The byte `j` of place `k` is that of the element that was laid there, if one was. -/
theorem getD_patch (xs : Array (Elem d)) (offset : Nat) {bytes : Array UInt8} {k j : Nat}
    (hj : j < d.width) (hlt : k * d.width + j < bytes.size) :
    (patch xs offset bytes).getD (k * d.width + j) 0 =
      if offset ≤ k then
        match xs[k - offset]? with
        | some x => x.byte j
        | none => bytes.getD (k * d.width + j) 0
      else bytes.getD (k * d.width + j) 0 := by
  simp only [Array.getD_eq_getD_getElem?, patch, Array.getElem?_mapIdx,
    Array.getElem?_eq_getElem hlt, Option.map_some, Option.getD_some, place_div hj,
    place_mod hj]

/-- The elements that are read back from patched bytes. -/
theorem getElem?_decode_patch (xs : Array (Elem d)) (offset : Nat) {bytes : Array UInt8}
    {count k : Nat} (hfit : count * d.width ≤ bytes.size) (hk : k < count) :
    (decode d count (patch xs offset bytes))[k]? =
      if offset ≤ k ∧ k < offset + xs.size then xs[k - offset]?
      else (decode d count bytes)[k]? := by
  have hlt {j : Nat} (hj : j < d.width) : k * d.width + j < bytes.size :=
    Nat.lt_of_lt_of_le (place_lt hk hj) hfit
  rw [getElem?_decode hk, getElem?_decode hk]
  by_cases hin : offset ≤ k ∧ k < offset + xs.size
  · have hindex : k - offset < xs.size := by omega
    have hbytes : ((List.range d.width).map fun j =>
        (patch xs offset bytes).getD (k * d.width + j) 0) =
          (List.range d.width).map xs[k - offset].byte := by
      refine List.map_congr_left fun j hj => ?_
      have hj := List.mem_range.mp hj
      rw [getD_patch xs offset hj (hlt hj), if_pos hin.1, Array.getElem?_eq_getElem hindex]
    rw [if_pos hin, hbytes, ofNat_ofBytes, Array.getElem?_eq_getElem hindex]
  · have hbytes : ((List.range d.width).map fun j =>
        (patch xs offset bytes).getD (k * d.width + j) 0) =
          (List.range d.width).map fun j => bytes.getD (k * d.width + j) 0 := by
      refine List.map_congr_left fun j hj => ?_
      have hj := List.mem_range.mp hj
      rw [getD_patch xs offset hj (hlt hj)]
      split
      · rw [Array.getElem?_eq_none (by omega)]
      · rfl
    rw [if_neg hin, hbytes]

end DeviceTensor.Elem
