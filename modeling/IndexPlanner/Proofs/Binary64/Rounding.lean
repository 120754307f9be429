import IndexPlanner.Decimal.Binary64
import IndexPlanner.Proofs.Binary64.Nearest

/-!
# How a result is rounded

An operation on doubles computes a whole number that is too long for a significand, and notes
what comes after it: whether the next binary digit is a one, and whether there is a one behind
it.  This is the part of the exact result that matters for rounding, and shifting keeps it
(`Spells.shiftRight`).  Once the digits before the point fit into a significand, the rounded
number is within half a unit of the exact one (`Spells.abs_sub_roundedMantissa_le`).

No representable number is nearer.  One that is a whole number of units cannot be, and there
are others only below `2 ^ 52` units, which the result has reached: the exponent is as small as
53 bits allow, or it is the least one.

* `Magnitude.Canonical` is the form in which doubles have their significand and exponent;
* `roundWithAccuracy_eq`: rounding gives a nearest number, in this form.
-/

namespace IndexPlanner
namespace Binary64

open Float.Model (totalExponent Format UnpackedFloat)
open Float.Model.UnpackedFloat

/-! ## Magnitudes -/

namespace Magnitude

/-- The number that a magnitude stands for. -/
def value (v : Magnitude) : ℚ := v.significand * 2 ^ v.exponent

/-- The form in which doubles have a magnitude: its significand uses all of its 53 bits,
unless the exponent is the least one. -/
structure Canonical (v : Magnitude) : Prop where
  lt : v.significand < 2 ^ 53
  exponent_ge : -1074 ≤ v.exponent
  full : 2 ^ 52 ≤ v.significand ∨ v.exponent = -1074

/-- A magnitude with a sign, among the numbers of the core library. -/
def unpacked (s : Sign) (v : Magnitude) : UnpackedFloat :=
  if h : v.significand = 0 then .zero s
  else .finite s v.significand v.exponent (Nat.pos_of_ne_zero h)

variable {v : Magnitude} {s : Sign}

theorem unpacked_of_eq_zero (h : v.significand = 0) : v.unpacked s = .zero s := dif_pos h

theorem unpacked_of_pos (h : 0 < v.significand) :
    v.unpacked s = .finite s v.significand v.exponent h := dif_neg h.ne'

theorem finite_eq_unpacked {m : ℕ} {e : ℤ} (h : 0 < m) :
    UnpackedFloat.finite s m e h = unpacked s ⟨m, e⟩ := (unpacked_of_pos (v := ⟨m, e⟩) h).symm

/-- A magnitude is zero or a finite number. -/
theorem unpacked_eq_or (v : Magnitude) (s : Sign) : v.unpacked s = .zero s ∨
    ∃ hpos, v.unpacked s = .finite s v.significand v.exponent hpos := by
  rcases Nat.eq_zero_or_pos v.significand with hzero | hpos
  · exact .inl (unpacked_of_eq_zero hzero)
  · exact .inr ⟨hpos, unpacked_of_pos hpos⟩

theorem isFinite_unpacked : (v.unpacked s).isFinite = true := by
  rcases v.unpacked_eq_or s with h | ⟨_, h⟩ <;> rw [h] <;> rfl

theorem isNaN_unpacked : (v.unpacked s).isNaN = false := by
  rcases v.unpacked_eq_or s with h | ⟨_, h⟩ <;> rw [h] <;> rfl

theorem value_of_eq_zero (h : v.significand = 0) : v.value = 0 := by
  rw [value, h, Nat.cast_zero, zero_mul]

theorem value_pos_iff : 0 < v.value ↔ 0 < v.significand := by
  rw [value, mul_pos_iff_of_pos_right (zpow_pos two_pos _), Nat.cast_pos]

end Magnitude

/-! ## The digits that rounding depends on -/

/-- The binary digits of a number: the mantissa is before the point, the round bit follows it,
and nothing comes after that unless the sticky bit is set. -/
def Spells (em : ExtendedMantissa) (x : ℚ) : Prop :=
  ∃ tail : ℚ, 0 ≤ tail ∧ tail < 1 / 2 ∧ (em.stickyBit = false → tail = 0) ∧
    x = em.mantissa + (if em.roundBit then 1 / 2 else 0) + tail

variable {em : ExtendedMantissa} {x : ℚ}

theorem spells_natCast (m : ℕ) : Spells (.ofMantissaAndAccuracy m .exact) m :=
  ⟨0, by simp [ExtendedMantissa.ofMantissaAndAccuracy]⟩

/-- A quotient is spelled by its whole part and the accuracy that the remainder leaves. -/
theorem spells_div (a : ℕ) {b : ℕ} (hb : 0 < b) :
    Spells (.ofMantissaAndAccuracy (a / b) (accuracyOfFraction (a % b) b)) (a / b) := by
  have hbpos : (0 : ℚ) < b := by exact_mod_cast hb
  have hsplit : (a : ℚ) / b = (a / b : ℕ) + (a % b : ℕ) / b := by
    rw [div_eq_iff hbpos.ne', add_mul, div_mul_cancel₀ _ hbpos.ne']
    exact_mod_cast (Nat.div_add_mod' a b).symm
  have hlt : ((a % b : ℕ) : ℚ) / b < 1 :=
    (div_lt_one hbpos).2 (by exact_mod_cast Nat.mod_lt a hb)
  have hnonneg : (0 : ℚ) ≤ (a % b : ℕ) / b := by positivity
  unfold accuracyOfFraction
  split
  case isTrue hzero =>
    rw [hsplit, hzero]
    simpa using spells_natCast (a / b)
  case isFalse hzero =>
    rcases h : compare (2 * (a % b)) b with _ | _ | _
    case lt =>
      have hhalf : 2 * ((a % b : ℕ) : ℚ) < b := by exact_mod_cast Nat.compare_eq_lt.1 h
      have hless : ((a % b : ℕ) : ℚ) / b < 1 / 2 := by
        rw [div_lt_iff₀ hbpos]
        linarith
      exact ⟨(a % b : ℕ) / b, hnonneg, hless,
        by simpa [ExtendedMantissa.ofMantissaAndAccuracy] using hsplit⟩
    case eq =>
      have hhalf : 2 * ((a % b : ℕ) : ℚ) = b := by exact_mod_cast Nat.compare_eq_eq.1 h
      have hequal : ((a % b : ℕ) : ℚ) / b = 1 / 2 := by
        rw [div_eq_iff hbpos.ne']
        linarith
      exact ⟨0, le_rfl, by norm_num,
        by simpa [ExtendedMantissa.ofMantissaAndAccuracy, hequal] using hsplit⟩
    case gt =>
      have hhalf : (b : ℚ) < 2 * ((a % b : ℕ) : ℚ) := by exact_mod_cast Nat.compare_eq_gt.1 h
      have hmore : (1 : ℚ) / 2 < (a % b : ℕ) / b := by
        rw [lt_div_iff₀ hbpos]
        linarith
      refine ⟨(a % b : ℕ) / b - 1 / 2, by linarith, by linarith, ?_, ?_⟩
      · simp [ExtendedMantissa.ofMantissaAndAccuracy]
      · simp only [ExtendedMantissa.ofMantissaAndAccuracy, if_true]
        linarith

theorem Spells.shiftRightOne (h : Spells em x) : Spells em.shiftRightOne (x / 2) := by
  obtain ⟨tail, hnonneg, hlt, hsticky, rfl⟩ := h
  have hsplit : (em.mantissa : ℚ) = 2 * (em.mantissa / 2 : ℕ) + (em.mantissa % 2 : ℕ) := by
    exact_mod_cast (Nat.div_add_mod em.mantissa 2).symm
  refine ⟨((if em.roundBit then 1 / 2 else 0) + tail) / 2, ?_, ?_, ?_, ?_⟩
  · split <;> linarith
  · split <;> linarith
  · intro hbits
    obtain ⟨hround, hnone⟩ := Bool.or_eq_false_iff.1 hbits
    simp [hround, hsticky hnone]
  · have hmantissa : em.shiftRightOne.mantissa = em.mantissa / 2 := rfl
    have hbit : (if em.shiftRightOne.roundBit then 1 / 2 else 0 : ℚ) =
        (em.mantissa % 2 : ℕ) / 2 := by
      rcases Nat.mod_two_eq_zero_or_one em.mantissa with hmod | hmod <;>
        simp [ExtendedMantissa.shiftRightOne, hmod]
    rw [hmantissa, hbit, hsplit]
    ring

/-- **Shifting keeps what rounding depends on.** -/
theorem Spells.shiftRight (h : Spells em x) (n : ℕ) : Spells (em >>> n) (x / 2 ^ n) := by
  induction n with
  | zero =>
    rw [pow_zero, div_one]
    exact h
  | succ n ih =>
    rw [pow_succ, ← div_div]
    exact ih.shiftRightOne

/-- The digits before the point are the whole part. -/
theorem Spells.bounds (h : Spells em x) : (em.mantissa : ℚ) ≤ x ∧ x < em.mantissa + 1 := by
  obtain ⟨tail, hnonneg, hlt, -, rfl⟩ := h
  split <;> constructor <;> linarith

/-- **Rounding leaves a number by at most half a unit.** -/
theorem Spells.abs_sub_roundedMantissa_le (h : Spells em x) :
    |x - em.roundedMantissa| ≤ 1 / 2 := by
  obtain ⟨tail, hnonneg, hlt, hsticky, rfl⟩ := h
  obtain ⟨m, round, sticky⟩ := em
  rw [abs_le]
  cases round <;> cases sticky <;>
    simp only [ExtendedMantissa.roundedMantissa, ExtendedMantissa.accuracy,
      Accuracy.roundToNearestEven, Bool.false_eq_true, if_true, if_false, Nat.cast_add,
      Nat.cast_one]
  case false.false | false.true | true.true => constructor <;> linarith
  case true.false =>
    -- a tie: the mantissa and the next one are equally near
    have hzero : tail = 0 := hsticky rfl
    rcases Nat.mod_two_eq_zero_or_one m with hmod | hmod
    · rw [hmod, Nat.cast_zero]
      constructor <;> linarith
    · rw [hmod, Nat.cast_one]
      constructor <;> linarith

/-! ## From digits to a double -/

@[simp] theorem mantissa_ofMantissaAndAccuracy (m : ℕ) (acc : Accuracy) :
    (ExtendedMantissa.ofMantissaAndAccuracy m acc).mantissa = m := by
  rcases acc with _ | (_ | _ | _) <;> rfl

/-- The exponent that makes a significand have 53 bits, if that is not too small. -/
theorem targetExponent_eq (total : ℤ) :
    Format.binary64.targetExponent total = max (total - 53) (-1074) := rfl

theorem targetExponent_totalExponent (m : ℕ) (e : ℤ) :
    Format.binary64.targetExponent (totalExponent m e) = max (m.log2 + e - 52) (-1074) := by
  rw [targetExponent_eq, totalExponent]
  omega

theorem shiftToTargetExponent_eq {m : ℕ} {e : ℤ} {s : ℕ} (acc : Accuracy)
    (hs : (max ((m.log2 : ℤ) + e - 52) (-1074) - e).toNat = s) :
    shiftToTargetExponent .binary64 m e acc =
      (ExtendedMantissa.ofMantissaAndAccuracy m acc >>> s, e + s) := by
  rw [shiftToTargetExponent, targetExponent_totalExponent, shiftToExponent, hs]

/-- The first shift leaves a significand before the point, and no less if it can be helped. -/
theorem exists_shift {m : ℕ} {e : ℤ} {acc : Accuracy}
    (h : Spells (.ofMantissaAndAccuracy m acc) x) (hm : 2 ^ 52 ≤ m ∨ e ≤ -1074) :
    ∃ (s : ℕ) (j : ℤ), e + s = j ∧ -1074 ≤ j ∧
      shiftToTargetExponent .binary64 m e acc =
        (ExtendedMantissa.ofMantissaAndAccuracy m acc >>> s, j) ∧
      x / 2 ^ s < 2 ^ 53 ∧ (2 ^ 52 ≤ x / 2 ^ s ∨ j = -1074) := by
  obtain ⟨j, hj⟩ : ∃ j, max ((m.log2 : ℤ) + e - 52) (-1074) = j := ⟨_, rfl⟩
  obtain ⟨s, hs⟩ : ∃ s, (j - e).toNat = s := ⟨_, rfl⟩
  have hlog : 2 ^ 52 ≤ m → 52 ≤ m.log2 := fun hle => (Nat.le_log2 (by omega)).2 hle
  have hes : e + s = j := by omega
  obtain ⟨hlower, hupper⟩ := h.bounds
  rw [mantissa_ofMantissaAndAccuracy] at hlower hupper
  have hspos : (0 : ℚ) < 2 ^ s := by positivity
  refine ⟨s, j, hes, by omega, ?_, ?_, ?_⟩
  · rw [shiftToTargetExponent_eq acc (by rw [hj, hs]), hes]
  · have hnext : m + 1 ≤ 2 ^ (53 + s) :=
      Nat.lt_log2_self.trans_le (Nat.pow_le_pow_right two_pos (by omega))
    rw [div_lt_iff₀ hspos, ← pow_add]
    exact hupper.trans_le (by exact_mod_cast hnext)
  · by_cases hleast : j = -1074
    · exact .inr hleast
    · have hne : m ≠ 0 := by
        rintro rfl
        simp only [Nat.log2_zero] at hj
        omega
      have hlead : 2 ^ (52 + s) ≤ m :=
        (Nat.pow_le_pow_right two_pos (by omega)).trans (Nat.log2_self_le hne)
      rw [le_div_iff₀ hspos, ← pow_add]
      exact .inl (le_trans (by exact_mod_cast hlead) hlower)

/-- A rounded significand is at most one unit too long, and shifting makes that good. -/
theorem exists_canonical_shift {k : ℕ} {e : ℤ} (hk : k ≤ 2 ^ 53) (he : -1074 ≤ e)
    (hfull : 2 ^ 52 ≤ k ∨ e = -1074) :
    ∃ v : Magnitude, v.Canonical ∧ v.value = k * 2 ^ e ∧
      (shiftToTargetExponent .binary64 k e .exact).1.mantissa = v.significand ∧
      (shiftToTargetExponent .binary64 k e .exact).2 = v.exponent := by
  rcases hk.lt_or_eq with hlt | rfl
  · have hlog : k.log2 ≤ 52 := by
      rcases Nat.eq_zero_or_pos k with rfl | hpos
      · decide
      · exact Nat.le_of_lt_succ ((Nat.log2_lt hpos.ne').2 hlt)
    have hzero : (max ((k.log2 : ℤ) + e - 52) (-1074) - e).toNat = 0 := by omega
    rw [shiftToTargetExponent_eq _ hzero]
    exact ⟨⟨k, e⟩, ⟨hlt, he, hfull⟩, rfl, rfl, add_zero e⟩
  · have hlog : (2 ^ 53 : ℕ).log2 = 53 := Nat.log2_two_pow
    have hone : (max (((2 ^ 53 : ℕ).log2 : ℤ) + e - 52) (-1074) - e).toNat = 1 := by omega
    rw [shiftToTargetExponent_eq _ hone]
    refine ⟨⟨2 ^ 52, e + 1⟩, ⟨by norm_num, by simp only; omega, .inl le_rfl⟩, ?_, rfl, rfl⟩
    rw [Magnitude.value, zpow_add₀ two_ne_zero]
    push_cast
    ring

/-- A result is shifted, rounded to a whole number of units, and shifted again. -/
theorem roundWithAccuracy_eq_unpacked (s : Sign) (m : ℕ) (e : ℤ) (acc : Accuracy) :
    roundWithAccuracy .binary64 s m e acc =
      let first := shiftToTargetExponent .binary64 m e acc
      let second := shiftToTargetExponent .binary64 first.1.roundedMantissa first.2 .exact
      Magnitude.unpacked s ⟨second.1.mantissa, second.2⟩ := rfl

/-- **A result is rounded to a nearest number.**  There must be enough digits before the point,
or they must begin below the least double. -/
theorem roundWithAccuracy_eq {m : ℕ} {e : ℤ} {acc : Accuracy}
    (h : Spells (.ofMantissaAndAccuracy m acc) x) (hm : 2 ^ 52 ≤ m ∨ e ≤ -1074) :
    ∃ v : Magnitude, v.Canonical ∧ Nearest (x * 2 ^ e) v.value ∧
      roundWithAccuracy .binary64 .positive m e acc = v.unpacked .positive := by
  obtain ⟨s, j, hes, hj, hshift, hlt, hfull⟩ := exists_shift h hm
  have hround := (h.shiftRight s).abs_sub_roundedMantissa_le
  obtain ⟨k, hk⟩ : ∃ k, k = (ExtendedMantissa.ofMantissaAndAccuracy m acc >>> s).roundedMantissa :=
    ⟨_, rfl⟩
  rw [← hk] at hround
  obtain ⟨v, hcanonical, hvalue, hsignificand, hexponent⟩ :=
    exists_canonical_shift
      (le_of_abs_sub_natCast_le (l := 2 ^ 53) hround (by exact_mod_cast hlt)) hj
      (hfull.imp_left fun hle => ge_of_abs_sub_natCast_le hround (by exact_mod_cast hle))
  refine ⟨v, hcanonical, ?_, ?_⟩
  · have hsame : x / 2 ^ s * 2 ^ j = x * 2 ^ e := by
      rw [← hes, zpow_add₀ two_ne_zero, zpow_natCast]
      field_simp
    rw [hvalue, ← hsame]
    exact nearest_mul_zpow hround hlt hj hfull
  · simp only [roundWithAccuracy_eq_unpacked, hshift, ← hk, hsignificand, hexponent]

end Binary64
end IndexPlanner
