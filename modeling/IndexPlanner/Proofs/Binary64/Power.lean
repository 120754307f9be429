import IndexPlanner.Proofs.Binary64.Arithmetic

/-!
# Powers of doubles

A power is computed by repeated squaring, and every product on the way is rounded.  To follow
this it is enough to know of each double that it has some exponent, and that exponents add up
when doubles are multiplied (`powerFrom_of_mul`).  Since the last square is taken only if it is
needed, no exponent on the way is greater than the one at the end.

If the base is a whole number, having the exponent `e` means to be exactly its `e`-th power, and
up to `2 ^ 53` nothing is rounded.  For other bases it means to be on one side of `2 ^ e`: powers
of two are representable, so a product is rounded to the side of them on which it is.  These
bounds tell whether a power stays in the range of doubles.

* `denotes_power`: powers of whole numbers;
* `AtLeast.power`, `AtMost.power`: bounds on other powers, from below and from above.
-/

namespace IndexPlanner
namespace Binary64

variable {a x y : Float} {b c k : ℕ}

/-- **Repeated squaring adds up exponents**, whatever it means to have one, as long as they are
not greater than the one at the end. -/
theorem powerFrom_of_mul {B : ℕ → Float → Prop} {total : ℕ}
    (mul : ∀ {b d : ℕ} {x y : Float}, b + d ≤ total → B b x → B d y → B (b + d) (x * y))
    {r : Float} {d n : ℕ} (hr : B b r) (ha : B d a) (h : b + d * n = total) :
    B total (powerFrom r a n) := by
  induction n using Nat.strong_induction_on generalizing a b r d with
  | h n ih =>
    have hbit : B (b + d * (n % 2)) (if n % 2 = 1 then r * a else r) := by
      split
      case isTrue hodd =>
        have hle : d ≤ d * n := Nat.le_mul_of_pos_right _ (by omega)
        rw [hodd, Nat.mul_one]
        exact mul (by omega) hr ha
      case isFalse heven =>
        rwa [Nat.mod_two_ne_one.1 heven, Nat.mul_zero, Nat.add_zero]
    have hrest : b + d * (n % 2) + (d + d) * (n / 2) = total := by
      calc b + d * (n % 2) + (d + d) * (n / 2) = b + d * (n % 2 + 2 * (n / 2)) := by ring
        _ = total := by rw [Nat.mod_add_div, h]
    rw [powerFrom]
    split
    case isTrue hzero =>
      rw [hzero, Nat.mul_zero, Nat.add_zero] at hrest
      rwa [hrest] at hbit
    case isFalse hmore =>
      have hle : d + d ≤ (d + d) * (n / 2) := Nat.le_mul_of_pos_right _ (Nat.pos_of_ne_zero hmore)
      exact ih (n / 2) (by omega) hbit (mul (by omega) ha ha) hrest

/-- The exponent of a power is that of its base, times the one that it is raised to. -/
theorem power_of_mul {B : ℕ → Float → Prop} (one : B 0 1) (base : B c a)
    (mul : ∀ {b d : ℕ} {x y : Float}, b + d ≤ c * k → B b x → B d y → B (b + d) (x * y)) :
    B (c * k) (power a k) :=
  powerFrom_of_mul mul one base (Nat.zero_add _)

/-- **A power of a whole number is exact up to `2 ^ 53`.** -/
theorem denotes_power {f : ℕ} (ha : Denotes a f) (hf : 0 < f) (hk : f ^ k ≤ 2 ^ 53) :
    Denotes (power a k) (f ^ k : ℕ) := by
  have hpower := power_of_mul (B := fun e x => Denotes x (f ^ e : ℕ)) (c := 1) (a := a) (k := k)
    (by simpa using denotes_one) (by simpa using ha) ?_
  · rwa [one_mul] at hpower
  · intro b d x y hle hx hy
    have hbound : f ^ (b + d) ≤ 2 ^ 53 :=
      (Nat.pow_le_pow_right hf (by omega)).trans hk
    have hmul := hx.mul hy
    rw [← Nat.cast_mul, ← pow_add] at hmul
    exact hmul.denotes_natCast hbound

/-! ## Powers that may be out of range -/

/-- A double that is infinite or stands for a number from `2 ^ b` upwards. -/
def AtLeast (b : ℕ) (x : Float) : Prop :=
  x = infinity ∨ ∃ q, 2 ^ b ≤ q ∧ Denotes x q

theorem Rounds.atLeast {q : ℚ} (h : Rounds q x) (hq : 2 ^ b ≤ q) : AtLeast b x := by
  obtain ⟨r, hnear, hfinite, hinfinite⟩ := h
  have hrep : Representable (2 ^ b) := by
    exact_mod_cast representable_zpow (j := b) (by omega)
  rcases lt_or_ge r (2 ^ 1024) with hlt | hge
  · exact .inr ⟨r, hnear.ge_of_ge hrep hq, hfinite hlt⟩
  · exact .inl (hinfinite hge)

theorem AtLeast.mul (hx : AtLeast b x) (hy : AtLeast c y) : AtLeast (b + c) (x * y) := by
  have hpos (d : ℕ) (q : ℚ) (hq : 2 ^ d ≤ q) : 0 < q := lt_of_lt_of_le (by positivity) hq
  rcases hx with rfl | ⟨p, hp, hx⟩ <;> rcases hy with rfl | ⟨q, hq, hy⟩
  · exact .inl infinity_mul_infinity
  · exact .inl (hy.infinity_mul (hpos c q hq))
  · exact .inl (hx.mul_infinity (hpos b p hp))
  · have hle : 2 ^ (b + c) ≤ p * q := by
      rw [pow_add]
      exact mul_le_mul hp hq (by positivity) (hpos b p hp).le
    exact (hx.mul hy).atLeast hle

/-- **The power of a double from `2 ^ c` upwards.** -/
theorem AtLeast.power (ha : AtLeast c a) (k : ℕ) : AtLeast (c * k) (power a k) :=
  power_of_mul (.inr ⟨1, by simp, denotes_one⟩) ha fun _ => AtLeast.mul

/-- A double that stands for a number from one to `2 ^ b`. -/
def AtMost (b : ℕ) (x : Float) : Prop :=
  ∃ q, 1 ≤ q ∧ q ≤ 2 ^ b ∧ Denotes x q

theorem AtMost.mul (hx : AtMost b x) (hy : AtMost c y) (h : b + c ≤ 1023) :
    AtMost (b + c) (x * y) := by
  obtain ⟨p, hp1, hp, hx⟩ := hx
  obtain ⟨q, hq1, hq, hy⟩ := hy
  obtain ⟨r, hnear, hfinite, -⟩ := hx.mul hy
  have hle : r ≤ 2 ^ (b + c) := by
    refine hnear.le_of_le (by exact_mod_cast representable_zpow (j := (b + c : ℕ)) (by omega)) ?_
    rw [pow_add]
    gcongr
  have hge : 1 ≤ r := by
    refine hnear.ge_of_ge (by exact_mod_cast representable_natCast (n := 1) (by norm_num)) ?_
    exact one_le_mul_of_one_le_of_one_le hp1 hq1
  have hlt : (2 : ℚ) ^ (b + c) < 2 ^ 1024 := pow_lt_pow_right₀ one_lt_two (by omega)
  exact ⟨r, hge, hle, hfinite (hle.trans_lt hlt)⟩

/-- **The power of a double from one to `2 ^ c`**, if that is in range. -/
theorem AtMost.power (ha : AtMost c a) (hk : c * k ≤ 1023) : AtMost (c * k) (power a k) :=
  power_of_mul ⟨1, le_rfl, by simp, denotes_one⟩ ha fun hle hx hy => hx.mul hy (hle.trans hk)

end Binary64
end IndexPlanner
