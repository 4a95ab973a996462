import Mathlib.Algebra.Order.Field.Power
import Mathlib.Data.Rat.Floor
import DeviceTensor.Element.Double
set_option autoImplicit false

/-!
# Numbers and their patterns

A pattern of a binary format stands for a rational number, `Binary.value?`, unless it is an infinity
or a NaN.  The cast to an integer takes the integer part of that number, toward zero; integers other
than the integer part compare with it as they compare with the number.  Integers below `2 ^ 53` have
a 64-bit pattern of their own, and larger ones are rounded to numbers that are not below `2 ^ 53`.
-/

namespace DeviceTensor

/-! ## Integer parts -/

/-- The integer part of a number, toward zero. -/
def integerPart (q : ℚ) : ℤ := if 0 ≤ q then ⌊q⌋ else ⌈q⌉

section

variable {q : ℚ} {n : ℤ}

theorem integerPart_of_nonneg (h : 0 ≤ q) : integerPart q = ⌊q⌋ := if_pos h

theorem integerPart_of_neg (h : q < 0) : integerPart q = ⌈q⌉ := if_neg (not_le.mpr h)

theorem integerPart_neg (q : ℚ) : integerPart (-q) = -integerPart q := by
  rcases lt_trichotomy q 0 with hq | rfl | hq
  · rw [integerPart_of_neg hq, integerPart_of_nonneg (neg_nonneg.mpr hq.le), Int.floor_neg]
  · simp [integerPart]
  · rw [integerPart_of_nonneg hq.le, integerPart_of_neg (neg_neg_of_pos hq), Int.ceil_neg]

/-- An integer other than the integer part is below it exactly if it is below the number. -/
theorem lt_integerPart_iff (h : n ≠ integerPart q) : n < integerPart q ↔ (n : ℚ) < q := by
  rcases lt_or_ge q 0 with hq | hq
  · rw [integerPart_of_neg hq]
    exact Int.lt_ceil
  · rw [integerPart_of_nonneg hq] at h ⊢
    constructor
    · exact fun hlt => (Int.cast_lt.mpr hlt).trans_le (Int.floor_le q)
    · exact fun hlt => lt_of_le_of_ne (Int.le_floor.mpr hlt.le) h

/-- An integer other than the integer part is above it exactly if it is above the number. -/
theorem integerPart_lt_iff (h : n ≠ integerPart q) : integerPart q < n ↔ q < n := by
  have hneg : -n ≠ integerPart (-q) := by
    rw [integerPart_neg]
    exact fun heq => h (neg_injective heq)
  have hlt := lt_integerPart_iff hneg
  rwa [integerPart_neg, neg_lt_neg_iff, Int.cast_neg, neg_lt_neg_iff] at hlt

end

namespace Binary

variable {F : Format}

/-! ## The number of a pattern -/

/-- The number that a pattern stands for; none for infinities and NaNs. -/
def value? (x : Bits F) : Option ℚ :=
  match classify x with
  | .nan => none
  | .infinite _ => none
  | .finite s m e => some (if s then -(m * 2 ^ e) else m * 2 ^ e)

/-- The integer part of a positive number. -/
theorem floor_mul_zpow (m : ℕ) (e : ℤ) :
    ⌊(m * 2 ^ e : ℚ)⌋ = ((if 0 ≤ e then m <<< e.toNat else m >>> (-e).toNat : ℕ) : ℤ) := by
  by_cases he : 0 ≤ e
  · obtain ⟨k, rfl⟩ := Int.eq_ofNat_of_zero_le he
    have hvalue : (m * 2 ^ (k : ℤ) : ℚ) = ((m * 2 ^ k : ℕ) : ℚ) := by
      push_cast
      rw [zpow_natCast]
    rw [if_pos he, hvalue, Int.floor_natCast, Int.toNat_natCast, Nat.shiftLeft_eq]
  · obtain ⟨k, hk⟩ := Int.eq_ofNat_of_zero_le (Int.neg_nonneg_of_nonpos (not_le.mp he).le)
    have hvalue : (m * 2 ^ e : ℚ) = ((m : ℤ) : ℚ) / ((2 ^ k : ℕ) : ℚ) := by
      push_cast
      rw [show e = -(k : ℤ) by omega, zpow_neg, zpow_natCast, div_eq_mul_inv]
    rw [if_neg he, hvalue, Rat.floor_intCast_div_natCast, hk, Int.toNat_natCast,
      Nat.shiftRight_eq_div_pow, Int.natCast_div]

/-- The cast of a pattern to an integer is the integer part of its number. -/
theorem truncate?_eq (x : Bits F) : truncate? x = (value? x).map integerPart := by
  unfold truncate? value?
  cases classify x with
  | nan => rfl
  | infinite s => rfl
  | finite s m e =>
    have hpart := integerPart_of_nonneg (q := m * 2 ^ e) (by positivity)
    rw [floor_mul_zpow] at hpart
    cases s with
    | false => exact congrArg some hpart.symm
    | true =>
      refine congrArg some ?_
      rw [if_pos rfl, if_pos rfl, integerPart_neg, hpart]

/-! ## Patterns of positive numbers -/

/-- A magnitude with a positive sign is its pattern. -/
theorem toNat_pack_false {m : ℕ} (h : m < F.magnitudes) : (pack F false m).toNat = m := by
  have hwidth : F.magnitudes < 2 ^ F.width := by
    unfold Format.magnitudes Format.width
    rw [Nat.one_shiftLeft]
    exact Nat.pow_lt_pow_right Nat.one_lt_two (by omega)
  unfold pack
  rw [if_neg Bool.false_ne_true, BitVec.toNat_ofNat, Nat.mod_eq_of_lt (h.trans hwidth)]

/-- A pattern is read off its two fields; those of normal numbers are neither zero nor full. -/
theorem classify_fields {field fraction : ℕ} (hpos : 0 < field)
    (hfull : field + 1 < 1 <<< F.exponentBits) (hfraction : fraction < F.fractions) :
    classify (pack F false (field * F.fractions + fraction)) =
      .finite false (F.fractions + fraction) (F.leastExponent + (field - 1 : ℕ)) := by
  have hinfinity : field * F.fractions + fraction < F.infinity := by
    calc field * F.fractions + fraction < field * F.fractions + F.fractions := by omega
      _ = (field + 1) * F.fractions := (Nat.succ_mul field F.fractions).symm
      _ ≤ F.infinity := Nat.mul_le_mul_right _ (by omega)
  have hmagnitudes : F.infinity ≤ F.magnitudes := by
    unfold Format.infinity Format.magnitudes Format.fractions
    rw [Nat.one_shiftLeft, Nat.one_shiftLeft, Nat.one_shiftLeft, Nat.pow_add]
    exact Nat.mul_le_mul_right _ (Nat.sub_le _ _)
  have hlt := hinfinity.trans_le hmagnitudes
  have hmagnitude : magnitude (pack F false (field * F.fractions + fraction)) =
      field * F.fractions + fraction := by
    unfold magnitude
    rw [toNat_pack_false hlt, Nat.mod_eq_of_lt hlt]
  have hsign : isNegative (pack F false (field * F.fractions + fraction)) = false := by
    unfold isNegative
    rw [toNat_pack_false hlt, Nat.div_eq_of_lt hlt]
    rfl
  have hfield : (field * F.fractions + fraction) / F.fractions = field := by
    rw [Nat.add_comm, Nat.add_mul_div_right _ _ (Nat.zero_lt_of_lt hfraction),
      Nat.div_eq_of_lt hfraction, Nat.zero_add]
  have hrest : (field * F.fractions + fraction) % F.fractions = fraction := by
    rw [Nat.add_comm, Nat.add_mul_mod_self_right, Nat.mod_eq_of_lt hfraction]
  unfold classify isNaN
  rw [hmagnitude, hsign, hfield, hrest]
  dsimp only
  rw [if_neg (by rw [decide_eq_true_iff]; omega), if_neg (Nat.ne_of_lt hinfinity),
    if_neg (Nat.ne_of_gt hpos)]

/-! ## Patterns of integers -/

/-- A positive number lies between two powers of two. -/
theorem bitLength_spec {n : ℕ} (h : 0 < n) :
    ∃ k, bitLength n = k + 1 ∧ 2 ^ k ≤ n ∧ n < 2 ^ (k + 1) := by
  unfold bitLength
  rw [if_neg (Nat.ne_of_gt h)]
  exact ⟨n.log2, rfl, Nat.log2_self_le (Nat.ne_of_gt h), Nat.lt_log2_self⟩

theorem le_shiftToNearest (n k : ℕ) : n / 2 ^ k ≤ shiftToNearest n k := by
  unfold shiftToNearest
  rw [Nat.one_shiftLeft]
  dsimp only
  split
  · exact Nat.le_succ _
  · exact Nat.le_refl _

theorem ofInt_natCast (n : ℕ) :
    ofInt F n = pack F false (roundMagnitude F n 0) := by
  unfold ofInt round
  rw [decide_eq_false (by omega), Int.natAbs_natCast]

/-- The magnitude of the 64-bit pattern nearest to a number of `k + 1` bits: its significand has 53
bits. -/
theorem roundMagnitude_double {n k significand : ℕ} (hk : bitLength n = k + 1)
    (hs : (if k ≤ 52 then n * 2 ^ (52 - k) else shiftToNearest n (k - 52)) = significand) :
    roundMagnitude .double n 0 =
      if significand = 0 then 0
      else min Format.double.infinity ((k + 1022) * Format.double.fractions + significand) := by
  have hleast : Format.double.leastExponent = -1074 := by decide
  have hplace : (0 : ℤ) + (bitLength n : ℕ) - (Format.double.fractionBits + 1) = k - 52 := by
    rw [hk]
    change (0 : ℤ) + (k + 1 : ℕ) - (52 + 1) = k - 52
    omega
  have hsignificand : (if (k : ℤ) - 52 ≤ 0 then n <<< (0 - ((k : ℤ) - 52)).toNat
      else shiftToNearest n ((k : ℤ) - 52 - 0).toNat) = significand := by
    rw [← hs]
    by_cases h : k ≤ 52
    · rw [if_pos (by omega), if_pos h, Nat.shiftLeft_eq,
        show (0 - ((k : ℤ) - 52)).toNat = 52 - k by omega]
    · rw [if_neg (by omega), if_neg h, show ((k : ℤ) - 52 - 0).toNat = k - 52 by omega]
  unfold roundMagnitude
  rw [hleast, hplace, max_eq_right (by omega)]
  dsimp only
  rw [hsignificand, show ((k : ℤ) - 52 - -1074).toNat = k + 1022 by omega]

theorem fractions_double : Format.double.fractions = 2 ^ 52 := by decide

theorem infinity_double : Format.double.infinity = 2047 * 2 ^ 52 := by decide

/-- A normal 64-bit pattern, read off its fields. -/
theorem classify_double {field fraction : ℕ} (hpos : 0 < field) (hfull : field < 2047)
    (hfraction : fraction < 2 ^ 52) :
    classify (pack .double false (field * Format.double.fractions + fraction)) =
      .finite false (2 ^ 52 + fraction) (field - 1075) := by
  have hbits : field + 1 < 1 <<< Format.double.exponentBits := by
    change field + 1 < 2048
    omega
  have hexponent : Format.double.leastExponent + (field - 1 : ℕ) = field - 1075 := by
    change (-1074 : ℤ) + (field - 1 : ℕ) = field - 1075
    omega
  rw [classify_fields hpos hbits (fractions_double ▸ hfraction), fractions_double, hexponent]

/-- Integers below `2 ^ 53` have a 64-bit pattern. -/
theorem truncate?_ofInt_of_lt {n : ℕ} (h : n < 2 ^ 53) :
    truncate? (ofInt .double n) = some (n : ℤ) := by
  rcases Nat.eq_zero_or_pos n with rfl | hpos
  · decide +kernel
  · obtain ⟨k, hk, hlow, hhigh⟩ := bitLength_spec hpos
    have hk53 : k < 53 := (Nat.pow_lt_pow_iff_right Nat.one_lt_two).mp (hlow.trans_lt h)
    obtain ⟨j, hj⟩ : ∃ j, 52 = k + j := Nat.exists_eq_add_of_le (by omega)
    have hbounds : 2 ^ 52 ≤ n * 2 ^ j ∧ n * 2 ^ j < 2 ^ 53 := by
      rw [show 53 = k + 1 + j by omega, hj, Nat.pow_add, Nat.pow_add _ (k + 1)]
      exact ⟨Nat.mul_le_mul_right _ hlow, (Nat.mul_lt_mul_right (Nat.two_pow_pos j)).mpr hhigh⟩
    obtain ⟨r, hr⟩ := Nat.exists_eq_add_of_le hbounds.1
    have hsignificand : (if k ≤ 52 then n * 2 ^ (52 - k) else shiftToNearest n (k - 52)) =
        2 ^ 52 + r := by
      rw [if_pos (by omega), show 52 - k = j by omega, hr]
    have hround : roundMagnitude .double n 0 = (k + 1023) * Format.double.fractions + r := by
      rw [roundMagnitude_double hk hsignificand, if_neg (by omega), fractions_double,
        infinity_double, min_eq_right (by omega)]
      omega
    have hclass : classify (ofInt .double n) = .finite false (n * 2 ^ j) (-(j : ℤ)) := by
      rw [ofInt_natCast, hround, classify_double (by omega) (by omega) (by omega), hr]
      exact congrArg _ (by omega)
    unfold truncate?
    rw [hclass]
    refine congrArg some (congrArg Nat.cast ?_)
    by_cases hj0 : j = 0
    · subst hj0
      simp
    · rw [if_neg (by omega), Int.neg_neg, Int.toNat_natCast, Nat.shiftRight_eq_div_pow,
        Nat.mul_div_cancel _ (Nat.two_pow_pos j)]

/-- A larger integer is rounded to a number that is not smaller than `2 ^ 53`. -/
theorem le_of_truncate?_ofInt {n : ℕ} (h : 2 ^ 53 ≤ n) {m : ℤ}
    (hm : truncate? (ofInt .double n) = some m) : 2 ^ 53 ≤ m := by
  obtain ⟨k, hk, hlow, hhigh⟩ := bitLength_spec (Nat.lt_of_lt_of_le (Nat.two_pow_pos 53) h)
  have hk53 : 53 < k + 1 := (Nat.pow_lt_pow_iff_right Nat.one_lt_two).mp (h.trans_lt hhigh)
  obtain ⟨significand, hs, hleast⟩ : ∃ significand,
      (if k ≤ 52 then n * 2 ^ (52 - k) else shiftToNearest n (k - 52)) = significand ∧
        2 ^ 52 ≤ significand := by
    refine ⟨_, if_neg (by omega), le_trans ?_ (le_shiftToNearest n (k - 52))⟩
    rw [Nat.le_div_iff_mul_le (Nat.two_pow_pos _), ← Nat.pow_add, show 52 + (k - 52) = k by omega]
    exact hlow
  obtain ⟨pattern, hround, hlower, hupper⟩ : ∃ pattern,
      roundMagnitude .double n 0 = pattern ∧ 1076 * 2 ^ 52 ≤ pattern ∧
        pattern ≤ 2047 * 2 ^ 52 := by
    refine ⟨_, roundMagnitude_double hk hs, ?_⟩
    rw [if_neg (by omega), fractions_double, infinity_double]
    omega
  rw [ofInt_natCast, hround] at hm
  rcases hupper.lt_or_eq with hlt | rfl
  · have hsplit : pattern =
        pattern / 2 ^ 52 * Format.double.fractions + pattern % 2 ^ 52 := by
      rw [fractions_double]
      omega
    have hclass : classify (pack .double false pattern) =
        .finite false (2 ^ 52 + pattern % 2 ^ 52) ((pattern / 2 ^ 52 : ℕ) - 1075) := by
      rw [hsplit, classify_double (by omega) (by omega) (by omega), ← hsplit]
    have hpositive : (0 : ℤ) ≤ (pattern / 2 ^ 52 : ℕ) - 1075 := by omega
    unfold truncate? at hm
    rw [hclass] at hm
    dsimp only at hm
    rw [if_pos hpositive, if_neg Bool.false_ne_true, Nat.shiftLeft_eq] at hm
    obtain rfl := Option.some.inj hm
    obtain ⟨e, he⟩ : ∃ e, ((pattern / 2 ^ 52 : ℕ) - 1075 : ℤ).toNat = e + 1 :=
      ⟨pattern / 2 ^ 52 - 1076, by omega⟩
    rw [he]
    have hpow : 2 ^ 53 ≤ (2 ^ 52 + pattern % 2 ^ 52) * 2 ^ (e + 1) :=
      Nat.mul_le_mul (Nat.le_add_right (2 ^ 52) _)
        (Nat.pow_le_pow_right Nat.two_pos (Nat.le_add_left 1 e))
    exact_mod_cast hpow
  · have hclass : classify (pack .double false (2047 * 2 ^ 52)) = .infinite false := by
      decide +kernel
    unfold truncate? at hm
    rw [hclass] at hm
    cases hm

end Binary

/-! ## 64-bit numbers -/

namespace Double

/-- The number that a 64-bit pattern stands for. -/
def value? (x : Double) : Option ℚ := Binary.value? (F := .double) x

theorem truncate?_eq (x : Double) : Elem.truncate? .float64 x = x.value?.map integerPart :=
  Binary.truncate?_eq (F := .double) x

/-- An integer read as a 64-bit number and cast to a word is the word of the integer, and has none
where the integer has none. -/
theorem bind_truncate?_ofInt {w : ℕ} (hw : w ≤ 54) (n : ℕ) :
    (Elem.truncate? .float64 (ofInt n)).bind (Word.ofInt? w) = Word.ofInt? w n := by
  change (Binary.truncate? (Binary.ofInt .double n)).bind (Word.ofInt? w) = Word.ofInt? w n
  rcases Nat.lt_or_ge n (2 ^ 53) with hn | hn
  · rw [Binary.truncate?_ofInt_of_lt hn, Option.bind_some]
  · have hlarge {m : ℤ} (hm : 2 ^ 53 ≤ m) : Word.ofInt? w m = none := by
      refine if_neg fun hfits => ?_
      have hpow : (2 : ℤ) ^ (w - 1) ≤ 2 ^ 53 := pow_le_pow_right₀ (by decide) (by omega)
      have hmax := hfits.2
      rw [BitVec.toInt_intMax] at hmax
      omega
    have hnone : Word.ofInt? w n = none := hlarge (by exact_mod_cast hn)
    rw [hnone]
    cases hm : Binary.truncate? (Binary.ofInt .double n) with
    | none => rfl
    | some m => exact hlarge (Binary.le_of_truncate?_ofInt hn hm)

end Double

end DeviceTensor
