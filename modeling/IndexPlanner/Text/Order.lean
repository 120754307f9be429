/-!
# The order of texts

Names are listed, ranked and written in the order of their texts, and that order is one for
the whole project: at the first place where two texts differ the lesser code point comes
first, and a text comes before all longer ones that begin with it.  It is also the order of
the bytes of the texts in UTF-8.

* `Text.Before` is the order, and `Text.not_before_self`, `Text.before_trans` and
  `Text.before_trichotomy` say that it is a strict and total one;
* `Text.compare` tells which of the three cases holds, and three lemmas say so;
* `Text.compare_eq_swap` and `Text.isLE_compare_iff` make it a comparison to sort by.
-/

namespace IndexPlanner
namespace Text

/-- Whether one list of characters comes before another one. -/
def charsBefore : List Char → List Char → Bool
  | _, [] => false
  | [], _ :: _ => true
  | a :: as, b :: bs => a.toNat < b.toNat || (a.toNat = b.toNat && charsBefore as bs)

/-- One text comes before another one. -/
def Before (s t : String) : Prop := charsBefore s.toList t.toList = true

instance (s t : String) : Decidable (Before s t) :=
  inferInstanceAs (Decidable (charsBefore s.toList t.toList = true))

theorem charsBefore_cons {a b : Char} {as bs : List Char} :
    charsBefore (a :: as) (b :: bs) = true ↔
      a.toNat < b.toNat ∨ a = b ∧ charsBefore as bs = true := by
  simp only [charsBefore, Bool.or_eq_true, decide_eq_true_eq, Bool.and_eq_true,
    Char.toNat_inj]

theorem charsBefore_self (cs : List Char) : charsBefore cs cs = false := by
  induction cs with
  | nil => rfl
  | cons c cs ih => simp [charsBefore, ih]

theorem charsBefore_trans {as bs cs : List Char} (hab : charsBefore as bs = true)
    (hbc : charsBefore bs cs = true) : charsBefore as cs = true := by
  induction bs generalizing as cs with
  | nil => cases as <;> simp [charsBefore] at hab
  | cons b bs ih =>
    cases cs with
    | nil => simp [charsBefore] at hbc
    | cons c cs =>
      cases as with
      | nil => rfl
      | cons a as =>
        rw [charsBefore_cons] at hab hbc ⊢
        rcases hab with hab | ⟨rfl, hab⟩
        · rcases hbc with hbc | ⟨rfl, -⟩
          · exact .inl (Nat.lt_trans hab hbc)
          · exact .inl hab
        · rcases hbc with hbc | ⟨rfl, hbc⟩
          · exact .inl hbc
          · exact .inr ⟨rfl, ih hab hbc⟩

theorem charsBefore_trichotomy (as bs : List Char) :
    charsBefore as bs = true ∨ as = bs ∨ charsBefore bs as = true := by
  induction as generalizing bs with
  | nil =>
    cases bs with
    | nil => exact .inr (.inl rfl)
    | cons b bs => exact .inl rfl
  | cons a as ih =>
    cases bs with
    | nil => exact .inr (.inr rfl)
    | cons b bs =>
      rw [charsBefore_cons, charsBefore_cons]
      rcases Nat.lt_trichotomy a.toNat b.toNat with hlt | heq | hgt
      · exact .inl (.inl hlt)
      · obtain rfl := Char.toNat_inj.1 heq
        rcases ih bs with h | rfl | h
        · exact .inl (.inr ⟨rfl, h⟩)
        · exact .inr (.inl rfl)
        · exact .inr (.inr (.inr ⟨rfl, h⟩))
      · exact .inr (.inr (.inl hgt))

/-- No text comes before itself. -/
theorem not_before_self (s : String) : ¬ Before s s := by
  simp [Before, charsBefore_self]

theorem before_trans {s t u : String} (hst : Before s t) (htu : Before t u) : Before s u :=
  charsBefore_trans hst htu

/-- Of two different texts one comes before the other. -/
theorem before_trichotomy (s t : String) : Before s t ∨ s = t ∨ Before t s := by
  rcases charsBefore_trichotomy s.toList t.toList with h | h | h
  · exact .inl h
  · exact .inr (.inl (String.toList_inj.1 h))
  · exact .inr (.inr h)

theorem ne_of_before {s t : String} (h : Before s t) : s ≠ t := by
  rintro rfl
  exact not_before_self s h

theorem not_before_of_before {s t : String} (h : Before s t) : ¬ Before t s :=
  fun h' => not_before_self s (before_trans h h')

/-- How two texts stand to each other. -/
def compare (s t : String) : Ordering :=
  if Before s t then .lt else if s = t then .eq else .gt

theorem compare_eq_lt_iff {s t : String} : compare s t = .lt ↔ Before s t := by
  unfold compare
  split
  · next h => simp [h]
  · next h =>
    simp only [h, iff_false]
    split <;> simp

theorem compare_eq_eq_iff {s t : String} : compare s t = .eq ↔ s = t := by
  unfold compare
  split
  · next h => simp [ne_of_before h]
  · split
    · next h => simp [h]
    · next h => simp [h]

theorem compare_eq_gt_iff {s t : String} : compare s t = .gt ↔ Before t s := by
  rcases before_trichotomy s t with h | rfl | h
  · simp [compare_eq_lt_iff.2 h, not_before_of_before h]
  · simp [compare_eq_eq_iff.2 rfl, not_before_self]
  · have hne : s ≠ t := (ne_of_before h).symm
    simp [compare, not_before_of_before h, hne, h]

theorem compare_eq_swap (s t : String) : compare s t = (compare t s).swap := by
  cases h : compare t s with
  | lt => exact compare_eq_gt_iff.2 (compare_eq_lt_iff.1 h)
  | eq => exact compare_eq_eq_iff.2 (compare_eq_eq_iff.1 h).symm
  | gt => exact compare_eq_lt_iff.2 (compare_eq_gt_iff.1 h)

/-- One text may stand before another one if it comes before it or is the same. -/
theorem isLE_compare_iff {s t : String} :
    (compare s t).isLE = true ↔ Before s t ∨ s = t := by
  rw [← compare_eq_lt_iff, ← compare_eq_eq_iff]
  cases compare s t <;> simp

instance : Std.TransCmp compare where
  eq_swap := compare_eq_swap _ _
  isLE_trans {s t u} hst htu := by
    rw [isLE_compare_iff] at hst htu ⊢
    rcases hst with hst | rfl
    · rcases htu with htu | rfl
      · exact .inl (before_trans hst htu)
      · exact .inl hst
    · exact htu

end Text
end IndexPlanner
