import IndexPlanner.Proofs.Binary64.Bits

/-!
# Arithmetic of doubles

What the planner does with doubles is stated here in terms of the numbers that they stand for.
A product and a quotient are rounded, and so is a number of 64 bits that is made a double.
Before it is rounded a quotient has as many digits as a significand, because the dividend is
shifted as far as that takes (`divCore_eq`).  Doubles are compared as their numbers are, since a
magnitude in the form of doubles has the greater exponent if it is the greater one.

Infinity stands for no number.  It absorbs what it is multiplied with, and it leaves nothing of
what it divides.

* `Denotes.mul`, `Denotes.div` and `rounds_toFloat`;
* `Denotes.le_iff` and `Denotes.toNat_ceil`, which are exact;
* `Denotes.exists_lt`: a finite double that is not at most another one stands for a number.
-/

namespace IndexPlanner
namespace Binary64

open Float.Model (totalExponent Format UnpackedFloat)
open Float.Model.UnpackedFloat

variable {x y : Float} {p q : ℚ}

theorem Denotes.exists_unpack (h : Denotes x q) :
    ∃ v : Magnitude, v.Canonical ∧ v.value = q ∧ x.toModel.unpack = v.unpacked .positive := by
  have hsign : sign x = .positive := if_neg (by simp [h.isNegative_eq])
  refine ⟨magnitude x, canonical_magnitude x, h.value_eq, ?_⟩
  rw [unpack_toModel h.exponentField_ne, hsign]

/-! ## What the operations do -/

theorem mul_eq (x y : Float) :
    x * y = .ofModel (.pack (.mul .binary64 x.toModel.unpack y.toModel.unpack)) := rfl

theorem div_eq (x y : Float) :
    x / y = .ofModel (.pack (.div .binary64 x.toModel.unpack y.toModel.unpack)) := rfl

theorem le_iff_unpack (x y : Float) :
    x ≤ y ↔ UnpackedFloat.le x.toModel.unpack y.toModel.unpack = true := decide_eq_true_iff

/-- Positive numbers are compared by their exponents, and then by their significands. -/
theorem le_finite_eq {m n : ℕ} {e f : ℤ} (hm : 0 < m) (hn : 0 < n) :
    UnpackedFloat.le (.finite .positive m e hm) (.finite .positive n f hn) =
      ((compare e f).then (compare m n)).isLE := rfl

/-- The core of a quotient is rounded. -/
theorem div_finite_eq {m n : ℕ} {e f : ℤ} (hm : 0 < m) (hn : 0 < n) :
    UnpackedFloat.div .binary64 (.finite .positive m e hm) (.finite .positive n f hn) =
      roundWithAccuracy .binary64 .positive (divCore .binary64 m e n f).1
        (divCore .binary64 m e n f).2.1 (divCore .binary64 m e n f).2.2 := rfl

/-- There are enough digits in a quotient before it is rounded. -/
theorem divCore_eq (m : ℕ) (e : ℤ) {n : ℕ} (f : ℤ) (hm : 0 < m) (hn : 0 < n) :
    ∃ (s : ℕ) (j : ℤ), j + s = e - f ∧
      divCore .binary64 m e n f =
        (m * 2 ^ s / n, j, accuracyOfFraction (m * 2 ^ s % n) n) ∧
      (2 ^ 52 ≤ m * 2 ^ s / n ∨ j ≤ -1074) := by
  obtain ⟨j, hj⟩ : ∃ j, j = min (e - f) (Format.binary64.targetExponent
    (totalExponent m e - totalExponent n f)) := ⟨_, rfl⟩
  have hj' : j = min (e - f) (max ((m.log2 : ℤ) + e - (n.log2 + f) - 53) (-1074)) := by
    rw [hj, targetExponent_eq, totalExponent, totalExponent]
    omega
  refine ⟨(e - f - j).toNat, j, by omega, ?_, ?_⟩
  · rw [divCore, ← hj, Nat.shiftLeft_eq]
  · by_cases hleast : j ≤ -1074
    · exact .inr hleast
    · -- the dividend is shifted by 53 places more than it is shorter than the divisor
      have hlead : 2 ^ (n.log2 + 53) ≤ m * 2 ^ (e - f - j).toNat :=
        calc 2 ^ (n.log2 + 53) ≤ 2 ^ (m.log2 + (e - f - j).toNat) :=
              Nat.pow_le_pow_right two_pos (by omega)
          _ = 2 ^ m.log2 * 2 ^ (e - f - j).toNat := pow_add ..
          _ ≤ m * 2 ^ (e - f - j).toNat := Nat.mul_le_mul_right _ (Nat.log2_self_le hm.ne')
      have hn' : n ≤ 2 ^ (n.log2 + 1) := Nat.lt_log2_self.le
      refine .inl ((Nat.le_div_iff_mul_le hn).2 ?_)
      calc 2 ^ 52 * n ≤ 2 ^ 52 * 2 ^ (n.log2 + 1) := Nat.mul_le_mul_left _ hn'
        _ = 2 ^ (n.log2 + 53) := by ring
        _ ≤ m * 2 ^ (e - f - j).toNat := hlead

/-- A positive number of 64 bits is shifted until its digits are enough, and then rounded. -/
theorem exists_toFloat_eq {n : UInt64} (hpos : 0 < n.toNat) :
    ∃ s : ℕ, 2 ^ 52 ≤ n.toNat * 2 ^ s ∧ n.toFloat = .ofModel (.pack
      (roundWithAccuracy .binary64 .positive (n.toNat * 2 ^ s) (-s) .exact)) := by
  obtain ⟨s, hs⟩ : ∃ s, s = (-Format.binary64.targetExponent (totalExponent n.toNat 0)).toNat :=
    ⟨_, rfl⟩
  refine ⟨s, ?_, ?_⟩
  · rw [targetExponent_totalExponent] at hs
    calc 2 ^ 52 ≤ 2 ^ (n.toNat.log2 + s) := Nat.pow_le_pow_right two_pos (by omega)
      _ = 2 ^ n.toNat.log2 * 2 ^ s := pow_add ..
      _ ≤ n.toNat * 2 ^ s := Nat.mul_le_mul_right _ (Nat.log2_self_le hpos.ne')
  · have hcompare : compare (n.toNat : ℤ) 0 = .gt := compare_gt_iff_gt.2 (by exact_mod_cast hpos)
    rw [UInt64.toFloat, Float.Model.ofUInt64, UnpackedFloat.ofUInt64, UnpackedFloat.ofNat,
      UnpackedFloat.ofInt, UnpackedFloat.normalize, hcompare]
    simp only [UnpackedFloat.round, decreaseExponent, Int.toNat_natCast, zero_sub, ← hs,
      Nat.shiftLeft_eq]

/-! ## Rounded results -/

namespace Magnitude

variable {v w : Magnitude}

theorem value_mul_value : v.value * w.value =
    (v.significand * w.significand : ℕ) * 2 ^ (v.exponent + w.exponent) := by
  rw [value, value, zpow_add₀ two_ne_zero]
  push_cast
  ring

theorem value_div_value {s : ℕ} {j : ℤ} (hw : 0 < w.significand)
    (hj : j + s = v.exponent - w.exponent) :
    v.value / w.value = ((v.significand * 2 ^ s : ℕ) : ℚ) / w.significand * 2 ^ j := by
  have hne : (w.significand : ℚ) ≠ 0 := by exact_mod_cast hw.ne'
  have hpow : (2 : ℚ) ^ v.exponent = 2 ^ s * 2 ^ j * 2 ^ w.exponent := by
    rw [← zpow_natCast, ← zpow_add₀ two_ne_zero, ← zpow_add₀ two_ne_zero]
    congr 1
    omega
  rw [value, value, hpow]
  push_cast
  field_simp

end Magnitude

/-- **A product of doubles is the rounded product of their numbers.** -/
theorem Denotes.mul (hx : Denotes x p) (hy : Denotes y q) : Rounds (p * q) (x * y) := by
  obtain ⟨v, hv, rfl, hxv⟩ := hx.exists_unpack
  obtain ⟨w, hw, rfl, hyw⟩ := hy.exists_unpack
  rw [mul_eq, hxv, hyw]
  rcases Nat.eq_zero_or_pos v.significand with hzero | hvpos
  · rw [Magnitude.value_of_eq_zero hzero, zero_mul, Magnitude.unpacked_of_eq_zero hzero]
    rcases w.unpacked_eq_or .positive with hw | ⟨_, hw⟩ <;> rw [hw] <;> exact denotes_zero.rounds
  rcases Nat.eq_zero_or_pos w.significand with hzero | hwpos
  · rw [Magnitude.value_of_eq_zero hzero, mul_zero, Magnitude.unpacked_of_eq_zero hzero,
      Magnitude.unpacked_of_pos hvpos]
    exact denotes_zero.rounds
  rw [Magnitude.unpacked_of_pos hvpos, Magnitude.unpacked_of_pos hwpos,
    Magnitude.value_mul_value]
  refine rounds_roundWithAccuracy (spells_natCast _) ?_
  rcases hv.full with hfull | hleast
  · exact .inl (hfull.trans (Nat.le_mul_of_pos_right _ hwpos))
  rcases hw.full with hfull | hleast'
  · exact .inl (hfull.trans (Nat.le_mul_of_pos_left _ hvpos))
  · exact .inr (by omega)

/-- **A quotient of doubles is the rounded quotient of their numbers.** -/
theorem Denotes.div (hx : Denotes x p) (hy : Denotes y q) (hq : 0 < q) :
    Rounds (p / q) (x / y) := by
  obtain ⟨v, -, rfl, hxv⟩ := hx.exists_unpack
  obtain ⟨w, -, rfl, hyw⟩ := hy.exists_unpack
  have hwpos := Magnitude.value_pos_iff.1 hq
  rw [div_eq, hxv, hyw, Magnitude.unpacked_of_pos hwpos]
  rcases Nat.eq_zero_or_pos v.significand with hzero | hvpos
  · rw [Magnitude.value_of_eq_zero hzero, zero_div, Magnitude.unpacked_of_eq_zero hzero]
    exact denotes_zero.rounds
  obtain ⟨s, j, hj, hcore, henough⟩ := divCore_eq v.significand v.exponent w.exponent hvpos hwpos
  rw [Magnitude.unpacked_of_pos hvpos, div_finite_eq, hcore, Magnitude.value_div_value hwpos hj]
  exact rounds_roundWithAccuracy (spells_div _ hwpos) henough

/-- **A number of 64 bits is rounded when it is made a double.** -/
theorem rounds_toFloat (n : UInt64) : Rounds (n.toNat : ℚ) n.toFloat := by
  rcases Nat.eq_zero_or_pos n.toNat with hzero | hpos
  · obtain rfl : n = 0 := UInt64.toNat_inj.1 hzero
    exact denotes_zero.rounds
  · obtain ⟨s, henough, hfloat⟩ := exists_toFloat_eq hpos
    have hvalue : (n.toNat : ℚ) = (n.toNat * 2 ^ s : ℕ) * 2 ^ (-s : ℤ) := by
      rw [zpow_neg, zpow_natCast]
      push_cast
      field_simp
    rw [hfloat, hvalue]
    exact rounds_roundWithAccuracy (spells_natCast _) (.inl henough)

/-! ## Comparing and rounding up -/

/-- A greater exponent makes a greater number. -/
theorem Magnitude.Canonical.value_lt_of_exponent_lt {v w : Magnitude} (hv : v.Canonical)
    (hw : w.Canonical) (h : v.exponent < w.exponent) : v.value < w.value := by
  have hlt : (v.significand : ℚ) < 2 ^ 53 := by exact_mod_cast hv.lt
  have hge := hv.exponent_ge
  have hfull : (2 : ℚ) ^ 52 ≤ w.significand := by
    exact_mod_cast hw.full.resolve_right (by omega)
  calc v.value < 2 ^ 53 * 2 ^ v.exponent := by
        unfold Magnitude.value
        gcongr
    _ = 2 ^ 52 * 2 ^ (v.exponent + 1) := by
      rw [zpow_add₀ two_ne_zero]
      ring
    _ ≤ w.significand * 2 ^ w.exponent := by
      gcongr
      · norm_num
      · omega

/-- **Doubles are compared as their numbers are.** -/
theorem Denotes.le_iff (hx : Denotes x p) (hy : Denotes y q) : x ≤ y ↔ p ≤ q := by
  obtain ⟨v, hv, rfl, hxv⟩ := hx.exists_unpack
  obtain ⟨w, hw, rfl, hyw⟩ := hy.exists_unpack
  rw [le_iff_unpack, hxv, hyw]
  rcases Nat.eq_zero_or_pos v.significand with hvzero | hvpos
  · have hnonneg : 0 ≤ w.value := hy.nonneg
    rw [Magnitude.value_of_eq_zero hvzero, Magnitude.unpacked_of_eq_zero hvzero]
    refine iff_of_true ?_ hnonneg
    rcases w.unpacked_eq_or .positive with hw | ⟨_, hw⟩ <;> rw [hw] <;> rfl
  rcases Nat.eq_zero_or_pos w.significand with hwzero | hwpos
  · have hpos : 0 < v.value := Magnitude.value_pos_iff.2 hvpos
    rw [Magnitude.value_of_eq_zero hwzero, Magnitude.unpacked_of_eq_zero hwzero,
      Magnitude.unpacked_of_pos hvpos]
    exact iff_of_false Bool.false_ne_true (not_le.2 hpos)
  rw [Magnitude.unpacked_of_pos hvpos, Magnitude.unpacked_of_pos hwpos, le_finite_eq,
    Ordering.isLE_then_iff_or]
  rcases lt_trichotomy v.exponent w.exponent with hlt | heq | hgt
  · have hvw := hv.value_lt_of_exponent_lt hw hlt
    simp [compare_lt_iff_lt.2 hlt, hvw.le]
  · have hcancel : v.value ≤ w.value ↔ v.significand ≤ w.significand := by
      rw [Magnitude.value, Magnitude.value, heq, mul_le_mul_iff_left₀ (zpow_pos two_pos _),
        Nat.cast_le]
    rw [hcancel, compare_eq_iff_eq.2 heq]
    simp [Nat.isLE_compare]
  · have hwv := hw.value_lt_of_exponent_lt hv hgt
    simp [compare_gt_iff_gt.2 hgt, hwv]

/-- A finite double that is not at most one without a sign has none either. -/
theorem Denotes.exists_lt (hy : Denotes y q) (hfinite : x.isFinite = true) (h : ¬ x ≤ y) :
    ∃ p, q < p ∧ Denotes x p := by
  have hfield : exponentField x ≠ 2047 := by simpa [isFinite_eq] using hfinite
  rcases hneg : isNegative x with _ | _
  case false =>
    have hx : Denotes x (magnitude x).value := ⟨hneg, hfield, rfl⟩
    refine ⟨(magnitude x).value, ?_, hx⟩
    rwa [hx.le_iff hy, not_le] at h
  case true =>
    -- doubles with a sign are below those without one, unless both are zero
    obtain ⟨v, -, -, hyv⟩ := hy.exists_unpack
    have hxv : x.toModel.unpack = (magnitude x).unpacked .negative := by
      rw [unpack_toModel hfield, sign, if_pos hneg]
    refine absurd ((le_iff_unpack x y).2 ?_) h
    rw [hxv, hyv]
    rcases (magnitude x).unpacked_eq_or .negative with hx | ⟨_, hx⟩ <;>
      rcases v.unpacked_eq_or .positive with hv | ⟨_, hv⟩ <;> rw [hx, hv] <;> rfl

/-- The ceiling of a magnitude is that of its number. -/
theorem Magnitude.ceil_eq (v : Magnitude) : v.ceil = ⌈v.value⌉₊ := by
  have hden : (0 : ℚ) < 2 ^ (-v.exponent).toNat := by positivity
  have hvalue : v.value * 2 ^ (-v.exponent).toNat =
      (v.significand * 2 ^ v.exponent.toNat : ℕ) := by
    rw [Magnitude.value, mul_assoc, ← zpow_natCast, ← zpow_add₀ two_ne_zero]
    push_cast
    rw [← zpow_natCast]
    congr 2
    omega
  refine eq_of_forall_ge_iff fun c => ?_
  rw [Nat.ceil_le, ← mul_le_mul_iff_left₀ hden, hvalue, Magnitude.ceil, Nat.pow_eq, Nat.pow_eq,
    Nat.div_le_iff_le_mul_add_pred (Nat.two_pow_pos _), Nat.mul_comm _ c,
    Nat.add_le_add_iff_right]
  exact_mod_cast Iff.rfl

/-- **A double is rounded up as its number is**, as far as 64 bits allow. -/
theorem Denotes.toNat_ceil (h : Denotes x q) :
    (ceil x).toNat = min ⌈q⌉₊ (UInt64.size - 1) := by
  have hnan : x.isNaN = false := by
    obtain ⟨v, -, -, hxv⟩ := h.exists_unpack
    have hmodel : x.isNaN = x.toModel.unpack.isNaN := rfl
    rw [hmodel, hxv, Magnitude.isNaN_unpacked]
  rw [ceil, hnan, h.isNegative_eq, if_neg (by simp), if_neg h.exponentField_ne, toNat_saturate,
    Magnitude.ceil_eq, h.value_eq]

/-! ## One, and infinity -/

theorem denotes_one : Denotes 1 1 where
  isNegative_eq := by decide +kernel
  exponentField_ne := by decide +kernel
  value_eq := by
    have hone : magnitude 1 = ⟨2 ^ 52, -52⟩ := by decide +kernel
    rw [hone, Magnitude.value]
    norm_num

theorem one_le_infinity : (1 : Float) ≤ infinity := by decide +kernel

theorem Denotes.isFinite (h : Denotes x q) : x.isFinite = true := by
  rw [isFinite_eq, decide_eq_true h.exponentField_ne]

theorem isFinite_infinity : infinity.isFinite = false := rfl

theorem unpack_infinity : infinity.toModel.unpack = .infinity .positive := rfl

theorem infinity_mul_infinity : infinity * infinity = infinity := rfl

theorem Denotes.mul_infinity (h : Denotes x q) (hq : 0 < q) : x * infinity = infinity := by
  obtain ⟨v, -, rfl, hxv⟩ := h.exists_unpack
  rw [mul_eq, hxv, Magnitude.unpacked_of_pos (Magnitude.value_pos_iff.1 hq), unpack_infinity]
  rfl

theorem Denotes.infinity_mul (h : Denotes x q) (hq : 0 < q) : infinity * x = infinity := by
  obtain ⟨v, -, rfl, hxv⟩ := h.exists_unpack
  rw [mul_eq, hxv, Magnitude.unpacked_of_pos (Magnitude.value_pos_iff.1 hq), unpack_infinity]
  rfl

/-- **Infinity leaves nothing of what it divides.** -/
theorem Denotes.div_infinity (h : Denotes x q) : Denotes (x / infinity) 0 := by
  obtain ⟨v, -, -, hxv⟩ := h.exists_unpack
  rw [div_eq, hxv, unpack_infinity]
  rcases v.unpacked_eq_or .positive with hv | ⟨_, hv⟩ <;> rw [hv] <;> exact denotes_zero

end Binary64
end IndexPlanner
