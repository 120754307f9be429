import Mathlib.Algebra.Order.Field.Power
import Mathlib.Algebra.Order.Field.Rat
import Mathlib.Algebra.Order.Floor.Semiring
import Mathlib.Data.Rat.Floor
import Mathlib.Tactic.FieldSimp
import Mathlib.Tactic.Linarith
import Mathlib.Tactic.NormNum
import Mathlib.Tactic.Positivity
import Mathlib.Tactic.Ring

/-!
# The nearest double

A double has 53 bits for its significand and cannot be finer than the least double.  If there is
no upper limit to its exponent, it can stand for the numbers that are `Representable`.  An
operation on doubles gives a representable number that is `Nearest` to the exact result.

That is all that is needed to compare the two.  A nearest number never passes a representable
one (`Nearest.le_of_le`, `Nearest.ge_of_ge`), so it is exact where the result is representable,
and it lies between the same whole numbers as the result, up to `2 ^ 53`.  It could lie *on*
one where the result does not.  For a quotient of whole numbers this does not happen: the
quotient is further from the whole number below it than half a step of the doubles there.

* `nearest_mul_zpow`: rounding to whole units gives a nearest number.
* `Nearest.eq_self`: representable results are exact.
* `Nearest.ceil_div`: rounding to a nearest double first does not change how a quotient is
  rounded up.
-/

namespace IndexPlanner
namespace Binary64

/-- A number that is a whole number of steps of a double, of which there are at most `2 ^ 53`. -/
def Representable (y : ℚ) : Prop :=
  ∃ (k : ℕ) (j : ℤ), k ≤ 2 ^ 53 ∧ -1074 ≤ j ∧ y = k * 2 ^ j

/-- No representable number is nearer to `x` than `r`, which is one. -/
structure Nearest (x r : ℚ) : Prop where
  representable : Representable r
  dist_le : ∀ y, Representable y → |x - r| ≤ |x - y|

variable {x y r : ℚ} {n d : ℕ}

theorem representable_natCast (h : n ≤ 2 ^ 53) : Representable n :=
  ⟨n, 0, h, by norm_num, by simp⟩

theorem representable_zpow {j : ℤ} (h : -1074 ≤ j) : Representable (2 ^ j) :=
  ⟨1, j, by norm_num, h, by simp⟩

/-- Rounding up does not pass a representable number. -/
theorem Nearest.le_of_le (h : Nearest x r) (hy : Representable y) (hxy : x ≤ y) : r ≤ y := by
  by_contra hlt
  have hdist := h.dist_le y hy
  rw [abs_of_nonpos (by linarith), abs_of_nonpos (by linarith)] at hdist
  linarith

/-- Rounding down does not pass a representable number. -/
theorem Nearest.ge_of_ge (h : Nearest x r) (hy : Representable y) (hyx : y ≤ x) : y ≤ r := by
  by_contra hlt
  have hdist := h.dist_le y hy
  rw [abs_of_nonneg (by linarith), abs_of_nonneg (by linarith)] at hdist
  linarith

/-- A representable number is its only nearest one. -/
theorem Nearest.eq_self (h : Nearest x r) (hx : Representable x) : r = x :=
  le_antisymm (h.le_of_le hx le_rfl) (h.ge_of_ge hx le_rfl)

/-- No whole number is nearer than one at most a half away. -/
theorem abs_sub_natCast_le {k : ℕ} (h : |x - k| ≤ 1 / 2) (l : ℕ) : |x - k| ≤ |x - l| := by
  obtain ⟨hlower, hupper⟩ := abs_le.1 h
  rcases Nat.lt_trichotomy k l with hlt | rfl | hgt
  · have hnext : (k : ℚ) + 1 ≤ l := by exact_mod_cast hlt
    exact h.trans (le_abs.2 (.inr (by linarith)))
  · exact le_rfl
  · have hnext : (l : ℚ) + 1 ≤ k := by exact_mod_cast hgt
    exact h.trans (le_abs.2 (.inl (by linarith)))

/-- Rounding to a whole number does not pass another one. -/
theorem le_of_abs_sub_natCast_le {k l : ℕ} (h : |x - k| ≤ 1 / 2) (hx : x < l) : k ≤ l := by
  have hlt : (k : ℚ) < l + 1 := by linarith [(abs_le.1 h).1]
  exact Nat.le_of_lt_succ (by exact_mod_cast hlt)

theorem ge_of_abs_sub_natCast_le {k l : ℕ} (h : |x - k| ≤ 1 / 2) (hx : l ≤ x) : l ≤ k := by
  have hlt : (l : ℚ) < k + 1 := by linarith [(abs_le.1 h).2]
  exact Nat.le_of_lt_succ (by exact_mod_cast hlt)

/-- **Rounding to a whole number of units gives a nearest number**, if the unit is as small as
53 bits allow or the least one. -/
theorem nearest_mul_zpow {k : ℕ} {j : ℤ} (h : |x - k| ≤ 1 / 2) (hx : x < 2 ^ 53)
    (hj : -1074 ≤ j) (hfull : 2 ^ 52 ≤ x ∨ j = -1074) : Nearest (x * 2 ^ j) (k * 2 ^ j) := by
  constructor
  · exact ⟨k, j, le_of_abs_sub_natCast_le h (by exact_mod_cast hx), hj, rfl⟩
  · rintro _ ⟨l, i, hl, hi, rfl⟩
    have hunit : (0 : ℚ) < 2 ^ j := zpow_pos two_pos j
    have hsame : (l : ℚ) * 2 ^ i = l * 2 ^ (i - j) * 2 ^ j := by
      rw [mul_assoc, ← zpow_add₀ two_ne_zero, sub_add_cancel]
    rw [hsame, ← sub_mul, ← sub_mul, abs_mul, abs_mul]
    refine mul_le_mul_of_nonneg_right ?_ (abs_nonneg _)
    rcases le_or_gt j i with hle | hgt
    · -- the other number is a whole number of units
      have hwhole : (l : ℚ) * 2 ^ (i - j) = (l * 2 ^ (i - j).toNat : ℕ) := by
        push_cast
        rw [← zpow_natCast, Int.toNat_of_nonneg (sub_nonneg.2 hle)]
      rw [hwhole]
      exact abs_sub_natCast_le h _
    · -- the other number is below `2 ^ 52` units, and `x` is not
      have hx52 : (2 : ℚ) ^ 52 ≤ x := hfull.resolve_right (by omega)
      have hbelow : (l : ℚ) * 2 ^ (i - j) ≤ 2 ^ 52 := by
        have hl' : (l : ℚ) ≤ 2 ^ 53 := by exact_mod_cast hl
        calc (l : ℚ) * 2 ^ (i - j) ≤ 2 ^ 53 * 2 ^ (-1 : ℤ) := by
              gcongr
              · norm_num
              · omega
          _ = 2 ^ 52 := by norm_num
      calc |x - k| ≤ |x - (2 ^ 52 : ℕ)| := abs_sub_natCast_le h _
        _ = x - 2 ^ 52 := by
          push_cast
          exact abs_of_nonneg (sub_nonneg.2 hx52)
        _ ≤ x - l * 2 ^ (i - j) := by linarith
        _ ≤ |x - l * 2 ^ (i - j)| := le_abs_self _

/-- The step of the doubles behind a positive whole number is at most a `2 ^ 52`th of it. -/
theorem exists_representable_add (hpos : 0 < n) (hn : n < 2 ^ 53) :
    ∃ u : ℚ, 0 < u ∧ u * 2 ^ 52 ≤ n ∧ Representable (n + u) := by
  have hlog : n.log2 ≤ 52 := Nat.le_of_lt_succ ((Nat.log2_lt hpos.ne').2 hn)
  have hle : 2 ^ n.log2 ≤ n := Nat.log2_self_le hpos.ne'
  have hlt : n < 2 ^ (n.log2 + 1) := Nat.lt_log2_self
  refine ⟨2 ^ ((n.log2 : ℤ) - 52), zpow_pos two_pos _, ?_, n * 2 ^ (52 - n.log2) + 1,
    (n.log2 : ℤ) - 52, ?_, by omega, ?_⟩
  · rw [zpow_sub₀ two_ne_zero, zpow_natCast]
    norm_num
    exact_mod_cast hle
  · have hfull : 2 ^ (n.log2 + 1) * 2 ^ (52 - n.log2) = 2 ^ 53 := by
      rw [← pow_add]
      congr 1
      omega
    have := Nat.mul_lt_mul_of_pos_right hlt (Nat.two_pow_pos (52 - n.log2))
    omega
  · have hone : (2 : ℚ) ^ (52 - n.log2) * 2 ^ ((n.log2 : ℤ) - 52) = 1 := by
      rw [← zpow_natCast, ← zpow_add₀ two_ne_zero, Nat.cast_sub hlog]
      simp
    push_cast
    rw [add_mul, one_mul, mul_assoc, hone, mul_one]

/-- A quotient is further from a whole number below it than half a step of the doubles there. -/
theorem lt_two_mul_div_sub {m : ℕ} {u : ℚ} (hn : n ≤ 2 ^ 53) (hpos : 0 < d) (hm : m * d < n)
    (hu : u * 2 ^ 52 ≤ m) : u < 2 * ((n : ℚ) / d - m) := by
  by_contra hle
  rw [not_lt] at hle
  have hdpos : (0 : ℚ) < d := by exact_mod_cast hpos
  have hgap : (m : ℚ) * d + 1 ≤ n := by exact_mod_cast hm
  have hn' : (n : ℚ) ≤ 2 ^ 53 := by exact_mod_cast hn
  have hfar : 1 ≤ ((n : ℚ) / d - m) * d := by
    rw [sub_mul, div_mul_cancel₀ _ hdpos.ne']
    linarith
  -- otherwise `m * d` would be as large as `n` may be
  have hfull : (2 : ℚ) ^ 53 ≤ m * d := by
    calc (2 : ℚ) ^ 53 = 2 ^ 52 * (2 * 1) := by norm_num
      _ ≤ 2 ^ 52 * (2 * (((n : ℚ) / d - m) * d)) := by gcongr
      _ = 2 * ((n : ℚ) / d - m) * 2 ^ 52 * d := by ring
      _ ≤ u * 2 ^ 52 * d := by gcongr
      _ ≤ m * d := by gcongr
  linarith

/-- The nearest number to a quotient that lies above a whole number does not lie on it. -/
theorem Nearest.natCast_lt {m : ℕ} (h : Nearest (n / d) r) (hn : n ≤ 2 ^ 53) (hpos : 0 < d)
    (hd : d ≤ 2 ^ 53) (hm : m * d < n) : (m : ℚ) < r := by
  have hdpos : (0 : ℚ) < d := by exact_mod_cast hpos
  have hgap : (m : ℚ) * d + 1 ≤ n := by exact_mod_cast hm
  rcases Nat.eq_zero_or_pos m with rfl | hmpos
  · -- the quotient is at least the inverse of the greatest divisor, which is representable
    have hn1 : (1 : ℚ) ≤ n := by simpa using hgap
    have hd' : (d : ℚ) ≤ 2 ^ 53 := by exact_mod_cast hd
    have hinverse : (2 : ℚ) ^ (-53 : ℤ) ≤ n / d := by
      rw [le_div_iff₀ hdpos]
      calc (2 : ℚ) ^ (-53 : ℤ) * d ≤ 2 ^ (-53 : ℤ) * 2 ^ 53 := by gcongr
        _ = 1 := by norm_num
        _ ≤ n := hn1
    have hle := h.ge_of_ge (representable_zpow (by norm_num)) hinverse
    rw [Nat.cast_zero]
    exact lt_of_lt_of_le (zpow_pos two_pos _) hle
  · have hmn : m < n := lt_of_le_of_lt (Nat.le_mul_of_pos_right m hpos) hm
    have habove : (m : ℚ) < n / d := by
      rw [lt_div_iff₀ hdpos]
      linarith
    obtain ⟨u, hu, hule, hnext⟩ := exists_representable_add hmpos (hmn.trans_le hn)
    have hfar := lt_two_mul_div_sub hn hpos hm hule
    refine lt_of_le_of_ne (h.ge_of_ge (representable_natCast (hmn.le.trans hn)) habove.le) ?_
    -- if the nearest number were `m`, the quotient would be no nearer to the next one
    rintro rfl
    have hdist := h.dist_le _ hnext
    rw [abs_of_pos (sub_pos.2 habove)] at hdist
    rcases le_abs.1 hdist with hle | hle
    · linarith
    · linarith

/-- A quotient is rounded up to the same whole number after it was rounded to a nearest
double. -/
theorem Nearest.ceil_div (h : Nearest (n / d) r) (hn : n ≤ 2 ^ 53) (hpos : 0 < d)
    (hd : d ≤ 2 ^ 53) : ⌈r⌉₊ = ⌈(n / d : ℚ)⌉₊ := by
  have hdpos : (0 : ℚ) < d := by exact_mod_cast hpos
  refine eq_of_forall_ge_iff fun c => ?_
  rw [Nat.ceil_le, Nat.ceil_le, div_le_iff₀ hdpos]
  constructor
  · intro hle
    by_contra hlt
    have hc : c * d < n := by exact_mod_cast not_le.1 hlt
    exact absurd hle (not_le.2 (h.natCast_lt hn hpos hd hc))
  · intro hle
    rcases Nat.le_total c (2 ^ 53) with hc | hc
    · exact h.le_of_le (representable_natCast hc) ((div_le_iff₀ hdpos).2 hle)
    · -- whole numbers above `2 ^ 53` need not be representable, but the quotient is below `n`
      have hdn : (n : ℚ) / d ≤ n := div_le_self (Nat.cast_nonneg n) (by exact_mod_cast hpos)
      have hnc : (n : ℚ) ≤ c := by exact_mod_cast hn.trans hc
      exact (h.le_of_le (representable_natCast hn) hdn).trans hnc

end Binary64
end IndexPlanner
