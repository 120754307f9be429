import IndexPlanner.Proofs.Binary64.Rounding

/-!
# The number that a double stands for

A double is read here from its bits, as the model reads it, and the core library unpacks the
same bits before it computes and packs them afterwards.  The two agree: unpacking a finite
double gives its sign and its magnitude, and packing a magnitude gives the double that has it.
Only a magnitude beyond the range of doubles is packed into another one, which is infinity.

With that, what the core library does to doubles is what `Rounds` says of their numbers.

* `Denotes x q`: the double `x` stands for the number `q`, which is not negative;
* `unpack_toModel` and `denotes_pack` are the two directions;
* `Rounds q x`: the double `x` is a nearest one for `q`, or infinity.
-/

namespace IndexPlanner
namespace Binary64

open Float.Model (Format UnpackedFloat)
open Float.Model.UnpackedFloat

/-! ## The fields of packed numbers -/

section Unpacking

variable (b : BitVec Format.binary64.numBits)

theorem toNat_unpackMantissa : (unpackMantissa b).toNat = b.toNat % 2 ^ 52 := by
  simp [unpackMantissa]

theorem toNat_unpackExponent : (unpackExponent b).toNat = b.toNat / 2 ^ 52 % 2 ^ 11 := by
  simp [unpackExponent, Nat.shiftRight_eq_div_pow]

theorem toNat_unpackSign : (unpackSign b).toNat = b.toNat / 2 ^ 63 % 2 := by
  have hdef : (unpackSign b).toNat = (BitVec.extractLsb 63 63 b).toNat := rfl
  rw [hdef]
  simp [Nat.shiftRight_eq_div_pow]

theorem toNat_packComponents (exponent : BitVec 11) (mantissa : BitVec 52) :
    (packComponents Format.binary64 .positive exponent mantissa).toNat =
      exponent.toNat * 2 ^ 52 + mantissa.toNat := by
  have happend : (0#1 ++ exponent ++ mantissa).toNat =
      exponent.toNat * 2 ^ 52 + mantissa.toNat := by
    rw [BitVec.toNat_append, BitVec.toNat_append, ← Nat.shiftLeft_add_eq_or_of_lt mantissa.isLt,
      Nat.shiftLeft_eq]
    simp
  exact happend

end Unpacking

/-- The form of the magnitude of a double. -/
theorem canonical_magnitude (x : Float) : (magnitude x).Canonical := by
  have hfraction : fractionField x < 2 ^ 52 := Nat.mod_lt _ (by norm_num)
  unfold magnitude
  simp only [Nat.pow_eq]
  split
  · exact ⟨by simp only; omega, le_rfl, .inr rfl⟩
  · exact ⟨by simp only; omega, by simp only; omega, .inl (by simp only; omega)⟩

/-! ## Unpacking -/

/-- A double stands for a number, which is not negative. -/
structure Denotes (x : Float) (q : ℚ) : Prop where
  isNegative_eq : isNegative x = false
  exponentField_ne : exponentField x ≠ 2047
  value_eq : (magnitude x).value = q

/-- The bits of a double, as the core library takes them apart. -/
def bits (x : Float) : BitVec Format.binary64.numBits := x.toModel.toBits.toBitVec

/-- The sign of a double. -/
def sign (x : Float) : Sign := if isNegative x then .negative else .positive

variable (x : Float)

theorem unpackMantissa_eq_iff {m : BitVec 52} :
    unpackMantissa (bits x) = m ↔ fractionField x = m.toNat := by
  rw [← BitVec.toNat_inj, toNat_unpackMantissa]
  rfl

theorem unpackExponent_eq_iff {e : BitVec 11} :
    unpackExponent (bits x) = e ↔ exponentField x = e.toNat := by
  rw [← BitVec.toNat_inj, toNat_unpackExponent]
  rfl

theorem ofBitVec_unpackSign : Sign.ofBitVec (unpackSign (bits x)) = sign x := by
  have hlt : x.toBits.toNat < 2 ^ 64 := x.toBits.toBitVec.isLt
  have hbit : unpackSign (bits x) = 0#1 ↔ ¬ x.toBits.toNat / 2 ^ 63 = 1 := by
    rw [← BitVec.toNat_inj, toNat_unpackSign, show (bits x).toNat = x.toBits.toNat from rfl,
      BitVec.toNat_ofNat]
    omega
  simp [Sign.ofBitVec, sign, isNegative, hbit]

/-- A normal significand has a leading one that is not in its field. -/
theorem toNat_append_unpackMantissa :
    (1#1 ++ unpackMantissa (bits x)).toNat = 2 ^ 52 + fractionField x := by
  have hfraction : (unpackMantissa (bits x)).toNat = fractionField x := toNat_unpackMantissa _
  rw [BitVec.toNat_append, ← Nat.shiftLeft_add_eq_or_of_lt (BitVec.isLt _), Nat.shiftLeft_eq,
    hfraction]
  simp

variable {x}

/-- **Unpacking a finite double gives its sign and its magnitude.** -/
theorem unpack_toModel (hfinite : exponentField x ≠ 2047) :
    x.toModel.unpack = (magnitude x).unpacked (sign x) := by
  have hones : unpackExponent (bits x) ≠ -1#_ := mt (unpackExponent_eq_iff x).1 hfinite
  change unpack Format.binary64 (bits x) = _
  unfold unpack magnitude
  dsimp only
  rw [if_neg hones, ofBitVec_unpackSign]
  by_cases hzero : exponentField x = 0
  · have hvec : unpackExponent (bits x) = 0#_ := (unpackExponent_eq_iff x).2 hzero
    rw [if_pos hvec, if_pos hzero]
    by_cases hnone : fractionField x = 0
    · rw [dif_pos ((unpackMantissa_eq_iff x (m := 0#52)).2 hnone),
        Magnitude.unpacked_of_eq_zero hnone]
    · have hfraction : (unpackMantissa (bits x)).toNat = fractionField x := toNat_unpackMantissa _
      rw [dif_neg (mt (unpackMantissa_eq_iff x (m := 0#52)).1 hnone),
        Magnitude.finite_eq_unpacked, hfraction, hvec]
      rfl
  · have hexponent : (unpackExponent (bits x)).toNat = exponentField x := toNat_unpackExponent _
    rw [if_neg (mt (unpackExponent_eq_iff x (e := 0#11)).1 hzero), if_neg hzero,
      Magnitude.finite_eq_unpacked, toNat_append_unpackMantissa, hexponent]
    rfl

/-- A double with all bits of its exponent field set is infinite or not a number. -/
theorem isFinite_eq : x.isFinite = decide (exponentField x ≠ 2047) := by
  have hunpack : x.isFinite = (unpack Format.binary64 (bits x)).isFinite := rfl
  by_cases hfinite : exponentField x = 2047
  · have hones : unpackExponent (bits x) = -1#_ := (unpackExponent_eq_iff x).2 hfinite
    rw [hunpack, decide_eq_false (not_not.2 hfinite)]
    unfold unpack
    dsimp only
    rw [if_pos hones]
    split <;> rfl
  · have hmodel : x.isFinite = x.toModel.unpack.isFinite := rfl
    rw [hmodel, unpack_toModel hfinite, Magnitude.isFinite_unpacked,
      decide_eq_true (p := ¬ _) hfinite]

/-! ## Packing -/

/-- The double above all others. -/
def infinity : Float := .ofModel (.pack (.infinity .positive))

/-- The fields that are packed are those of the double. -/
theorem denotes_packComponents {u : UnpackedFloat} {e : BitVec 11} {m : BitVec 52}
    (h : pack .binary64 u = packComponents .binary64 .positive e m) (he : e.toNat ≠ 2047) :
    Denotes (.ofModel (.pack u)) (Magnitude.value (if e.toNat = 0 then ⟨m.toNat, -1074⟩
      else ⟨2 ^ 52 + m.toNat, (e.toNat : ℤ) - 1075⟩)) := by
  have hbits : (Float.ofModel (.pack u)).toBits.toNat = e.toNat * 2 ^ 52 + m.toNat :=
    (congrArg BitVec.toNat h).trans (toNat_packComponents e m)
  have hm : m.toNat < 2 ^ 52 := m.isLt
  have he' : e.toNat < 2 ^ 11 := e.isLt
  have hexponent : exponentField (.ofModel (.pack u)) = e.toNat := by
    rw [exponentField, hbits, Nat.pow_eq, Nat.pow_eq]
    omega
  have hfraction : fractionField (.ofModel (.pack u)) = m.toNat := by
    rw [fractionField, hbits, Nat.pow_eq]
    omega
  refine ⟨?_, hexponent.trans_ne he, ?_⟩
  · have hnot : ¬ (Float.ofModel (.pack u)).toBits.toNat / 2 ^ 63 = 1 := by omega
    simpa [isNegative] using hnot
  · rw [magnitude, hexponent, hfraction]
    rfl

theorem denotes_zero : Denotes (.ofModel (.pack (.zero .positive))) 0 := by
  have hzero := denotes_packComponents (u := .zero .positive) (e := 0) (m := 0#52) rfl (by decide)
  simpa [Magnitude.value] using hzero

/-- What a positive number is packed into: its exponent field is the exponent with a bias, unless
the significand is too short or the exponent too large. -/
theorem pack_finite {m : ℕ} {e : ℤ} (hpos : 0 < m) (hm : m < 2 ^ 53) :
    pack .binary64 (.finite .positive m e hpos) =
      if 2 ^ 11 ≤ (e + 1075).toNat + 1 then packedInfinity .binary64 .positive
      else if 2 ^ 52 ≤ m then
        packComponents .binary64 .positive (.ofNat 11 (e + 1075).toNat) (.ofNat 52 m)
      else packComponents .binary64 .positive 0#11 (.ofNat 52 m) := by
  have hbias : (e + (Format.binary64.exponentBias : ℤ) + (52 : ℕ)).toNat = (e + 1075).toNat := by
    rw [show (Format.binary64.exponentBias : ℤ) = 1023 from rfl]
    omega
  have hnormal : m.log2 + 1 = Format.binary64.mantissaBits ↔ 2 ^ 52 ≤ m := by
    have hlong : m.log2 < 53 := (Nat.log2_lt hpos.ne').2 hm
    rw [← Nat.le_log2 hpos.ne', show Format.binary64.mantissaBits = 53 from rfl]
    omega
  conv_rhs => simp only [← hbias, ← hnormal]
  rfl

/-- **A magnitude in the form of doubles is packed into the double that stands for it.** -/
theorem denotes_pack {v : Magnitude} (h : v.Canonical) (hsmall : v.exponent ≤ 971) :
    Denotes (.ofModel (.pack (v.unpacked .positive))) v.value := by
  rcases Nat.eq_zero_or_pos v.significand with hzero | hpos
  · rw [Magnitude.unpacked_of_eq_zero hzero, Magnitude.value_of_eq_zero hzero]
    exact denotes_zero
  rw [Magnitude.unpacked_of_pos hpos]
  obtain ⟨m, e⟩ := v
  obtain ⟨hlt, hge, hfull⟩ := h
  dsimp only at hpos hlt hge hfull hsmall ⊢
  have hpack := pack_finite (e := e) hpos hlt
  rw [if_neg (by omega)] at hpack
  rcases Nat.lt_or_ge m (2 ^ 52) with hshort | hlong
  · have hleast : e = -1074 := hfull.resolve_left (by omega)
    rw [if_neg (by omega)] at hpack
    have hdenotes := denotes_packComponents hpack (by decide)
    rwa [if_pos (by decide), BitVec.toNat_ofNat, Nat.mod_eq_of_lt hshort, ← hleast] at hdenotes
  · have hfield : (BitVec.ofNat 11 (e + 1075).toNat).toNat = (e + 1075).toNat := by
      rw [BitVec.toNat_ofNat]
      omega
    rw [if_pos hlong] at hpack
    have hdenotes := denotes_packComponents hpack (by omega)
    have hsignificand : 2 ^ 52 + m % 2 ^ 52 = m := by omega
    have hexponent : (((e + 1075).toNat : ℤ) - 1075) = e := by omega
    rwa [if_neg (by omega), hfield, BitVec.toNat_ofNat, hsignificand, hexponent] at hdenotes

/-- A magnitude whose exponent is too large is packed into infinity. -/
theorem pack_unpacked_eq_infinity {v : Magnitude} (h : v.Canonical) (hlarge : 971 < v.exponent) :
    Float.ofModel (.pack (v.unpacked .positive)) = infinity := by
  have hpos : 0 < v.significand := by
    have hfull := h.full
    omega
  have hpack := pack_finite (e := v.exponent) hpos h.lt
  rw [if_pos (by omega)] at hpack
  rw [Magnitude.unpacked_of_pos hpos]
  unfold infinity Float.Model.pack
  congr 3

/-! ## Rounding to a double -/

/-- A magnitude in the form of doubles is in their range if its exponent is. -/
theorem Magnitude.Canonical.value_lt_iff {v : Magnitude} (h : v.Canonical) :
    v.value < 2 ^ 1024 ↔ v.exponent ≤ 971 := by
  have hlt : (v.significand : ℚ) < 2 ^ 53 := by exact_mod_cast h.lt
  constructor
  · intro hvalue
    by_contra hgt
    have hfull : (2 : ℚ) ^ 52 ≤ v.significand := by
      exact_mod_cast h.full.resolve_right (by omega)
    refine absurd hvalue (not_lt.2 ?_)
    have hpow : (2 : ℚ) ^ (972 : ℤ) ≤ 2 ^ v.exponent :=
      zpow_le_zpow_right₀ one_le_two (by omega)
    calc (2 ^ 1024 : ℚ) = (2 : ℚ) ^ 52 * (2 : ℚ) ^ (972 : ℤ) := by rw [zpow_ofNat, ← pow_add]
      _ ≤ v.significand * 2 ^ v.exponent :=
        mul_le_mul hfull hpow (zpow_pos two_pos _).le (Nat.cast_nonneg _)
  · intro hle
    have hpow : (2 : ℚ) ^ v.exponent ≤ 2 ^ (971 : ℤ) := zpow_le_zpow_right₀ one_le_two hle
    calc v.value = v.significand * 2 ^ v.exponent := rfl
      _ < 2 ^ 53 * 2 ^ v.exponent := by gcongr
      _ ≤ 2 ^ 53 * 2 ^ (971 : ℤ) := by gcongr
      _ = 2 ^ 1024 := by rw [zpow_ofNat, ← pow_add]

/-- The double for a number is a nearest one, or infinity if that is out of range. -/
def Rounds (q : ℚ) (x : Float) : Prop :=
  ∃ r, Nearest q r ∧ (r < 2 ^ 1024 → Denotes x r) ∧ (2 ^ 1024 ≤ r → x = infinity)

variable {q : ℚ}

theorem Denotes.nonneg (h : Denotes x q) : 0 ≤ q := by
  rw [← h.value_eq, Magnitude.value]
  positivity

theorem Denotes.lt (h : Denotes x q) : q < 2 ^ 1024 := by
  have hfield : exponentField x < 2 ^ 11 := Nat.mod_lt _ (by norm_num)
  have hne := h.exponentField_ne
  rw [← h.value_eq, (canonical_magnitude x).value_lt_iff, magnitude]
  split <;> simp only <;> omega

theorem Denotes.representable (h : Denotes x q) : Representable q :=
  ⟨(magnitude x).significand, (magnitude x).exponent, (canonical_magnitude x).lt.le,
    (canonical_magnitude x).exponent_ge, h.value_eq.symm⟩

/-- A number that a double stands for is rounded to this double. -/
theorem Denotes.rounds (h : Denotes x q) : Rounds q x :=
  ⟨q, ⟨h.representable, by simp⟩, fun _ => h, fun hle => absurd h.lt (not_lt.2 hle)⟩

/-- A representable number is rounded to the double that stands for it. -/
theorem Rounds.denotes (h : Rounds q x) (hrep : Representable q) (hlt : q < 2 ^ 1024) :
    Denotes x q := by
  obtain ⟨r, hnear, hfinite, -⟩ := h
  rw [hnear.eq_self hrep] at hfinite
  exact hfinite hlt

/-- A whole number up to `2 ^ 53` is the number of a double. -/
theorem Rounds.denotes_natCast {n : ℕ} (h : Rounds n x) (hn : n ≤ 2 ^ 53) :
    Denotes x n := by
  have hle : (n : ℚ) ≤ 2 ^ 53 := by exact_mod_cast hn
  have hlt : (2 : ℚ) ^ 53 < 2 ^ 1024 := pow_lt_pow_right₀ one_lt_two (by omega)
  exact h.denotes (representable_natCast hn) (hle.trans_lt hlt)

/-- **What the core library rounds and packs is a nearest double.** -/
theorem rounds_roundWithAccuracy {q : ℚ} {m : ℕ} {e : ℤ} {acc : Accuracy}
    (h : Spells (.ofMantissaAndAccuracy m acc) q) (hm : 2 ^ 52 ≤ m ∨ e ≤ -1074) :
    Rounds (q * 2 ^ e) (.ofModel (.pack (roundWithAccuracy .binary64 .positive m e acc))) := by
  obtain ⟨v, hcanonical, hnear, heq⟩ := roundWithAccuracy_eq h hm
  rw [heq]
  refine ⟨v.value, hnear, fun hlt => ?_, fun hle => ?_⟩
  · exact denotes_pack hcanonical (hcanonical.value_lt_iff.1 hlt)
  · refine pack_unpacked_eq_infinity hcanonical ?_
    rwa [← not_le, ← hcanonical.value_lt_iff, not_lt]

end Binary64
end IndexPlanner
