import IndexPlanner.Timestamp

/-!
# Reading a time that was written

Every point in time is read back from its text, to the nanosecond: years before and beyond
the four digits, fractions of any length and leap seconds are no exceptions.

* `takeNumber?_padded` cuts off a run of digits; `takeYear?_yearText`, `takePair?_padded` and
  `takeFraction?_fractionText` cut off the parts of a text.
* `parse?_text`: what is written is read back.
-/

namespace IndexPlanner
namespace Timestamp

variable {cs ds rest : List Char} {c : Char}

/-! ## Parts of a text -/

/-- Digits are no blanks: all blanks are before them or behind them. -/
theorem isBlank_of_isDigit (h : Decimal.isDigit c = true) : Text.isBlank c = false := by
  have hdigit : 0x30 ≤ c.toNat ∧ c.toNat ≤ 0x39 := by
    simpa [Decimal.isDigit, Char.le_def, UInt32.le_iff_toNat_le] using h
  have hblanks : ∀ r ∈ Text.blanks, r.2 < 0x30 ∨ 0x39 < r.1 := by decide
  rw [Text.isBlank, List.any_eq_false]
  intro r hr
  have hr := hblanks r hr
  simp only [Bool.and_eq_true, decide_eq_true_eq]
  omega

theorem dropBlanks_cons (h : Text.isBlank c = false) : Text.dropBlanks (c :: cs) = c :: cs := by
  rw [Text.dropBlanks, List.dropWhile_cons_of_neg (by rw [h]; exact Bool.false_ne_true)]

/-- Of a run of digits that is not too long nothing is left out. -/
theorem takeWhile_take_append {n : Nat} (hds : ∀ c ∈ ds, Decimal.isDigit c = true)
    (hlength : ds.length ≤ n)
    (hrest : ds.length = n ∨ ∀ c ∈ rest.head?, Decimal.isDigit c = false) :
    ((ds ++ rest).take n).takeWhile Decimal.isDigit = ds := by
  rw [List.take_append, List.take_of_length_le hlength]
  refine Decimal.takeWhile_isDigit_append hds fun c hc => ?_
  rw [List.head?_take] at hc
  split at hc
  · simp at hc
  · next hmore =>
    rcases hrest with hn | hrest
    · omega
    · exact hrest c hc

/-- A number with leading zeros is cut off whole. -/
theorem takeNumber?_padded {n width k : Nat} (hlength : (Decimal.padded width k).length ≤ n)
    (hrest : (Decimal.padded width k).length = n ∨
      ∀ c ∈ rest.head?, Decimal.isDigit c = false) :
    takeNumber? n ((Decimal.padded width k).toList ++ rest) = some (k, rest) := by
  rw [← String.length_toList] at hlength hrest
  have htake := takeWhile_take_append (fun _ => Decimal.isDigit_of_mem_padded) hlength hrest
  obtain ⟨d, ds, hds, -⟩ := Decimal.exists_padded_eq_cons width k
  have hvalue : Decimal.value (d :: ds) = k := by
    rw [← hds]
    exact Decimal.value_padded
  rw [hds] at htake ⊢
  rw [takeNumber?, htake]
  exact congrArg some (Prod.ext hvalue List.drop_left)

theorem dropBlanks_padded {width k : Nat} :
    Text.dropBlanks ((Decimal.padded width k).toList ++ rest) =
      (Decimal.padded width k).toList ++ rest := by
  obtain ⟨d, ds, hds, hd⟩ := Decimal.exists_padded_eq_cons width k
  rw [hds]
  exact dropBlanks_cons (isBlank_of_isDigit hd)

theorem takePair?_padded {k : Nat} (hk : k < 100) :
    takePair? ((Decimal.padded 2 k).toList ++ rest) = some (k, rest) := by
  have hlength : (Decimal.padded 2 k).length = 2 := Decimal.length_padded (by decide) hk
  rw [takePair?, dropBlanks_padded, takeNumber?_padded (Nat.le_of_eq hlength) (.inl hlength)]

theorem takeMark?_cons (h : Text.isBlank c = false) : takeMark? c (c :: rest) = some rest := by
  rw [takeMark?, dropBlanks_cons h]
  exact if_pos rfl

/-- A year without a sign has just four digits. -/
theorem takeYear?_padded {n : Nat} (hn : n < 10000) :
    takeYear? ((Decimal.padded 4 n).toList ++ rest) = some ((n : Int), rest) := by
  have hlength : (Decimal.padded 4 n).length = 4 := Decimal.length_padded (by decide) hn
  have hnumber : takeNumber? 4 ((Decimal.padded 4 n).toList ++ rest) = some (n, rest) :=
    takeNumber?_padded (Nat.le_of_eq hlength) (.inl hlength)
  obtain ⟨d, ds, hds, hd⟩ := Decimal.exists_padded_eq_cons 4 n
  have hsign (c : Char) (hc : Decimal.isDigit c = false) (cs : List Char) :
      (Decimal.padded 4 n).toList ++ rest ≠ c :: cs := by
    intro heq
    rw [hds, List.cons_append] at heq
    obtain ⟨rfl, -⟩ := List.cons.inj heq
    rw [hd] at hc
    simp at hc
  rw [takeYear?, dropBlanks_padded]
  split
  · next cs heq => exact absurd heq (hsign '-' (by decide) cs)
  · next cs heq => exact absurd heq (hsign '+' (by decide) cs)
  · rw [hnumber, Option.map_some]

/-- A year is cut off up to the first character that is no digit. -/
theorem takeYear?_yearText {year : Int} (hrest : ∀ c ∈ rest.head?, Decimal.isDigit c = false) :
    takeYear? ((Date.yearText year).toList ++ rest) = some (year, rest) := by
  have hsigned (n : Nat) : takeNumber? ((Decimal.padded 4 n).toList ++ rest).length
      ((Decimal.padded 4 n).toList ++ rest) = some (n, rest) := by
    refine takeNumber?_padded ?_ (.inr hrest)
    rw [List.length_append, String.length_toList]
    exact Nat.le_add_right _ _
  unfold Date.yearText
  split
  · next hyear =>
    have hvalue : (year.toNat : Int) = year := Int.toNat_of_nonneg hyear.1
    rw [takeYear?_padded (by omega), hvalue]
  · split
    · next hneg =>
      have hvalue : -(year.natAbs : Int) = year := by omega
      have htext : "-".toList = ['-'] := rfl
      rw [String.toList_append, htext, List.append_assoc, List.singleton_append, takeYear?,
        dropBlanks_cons (by decide)]
      simp only [hsigned, Option.map_some, hvalue]
    · next hpos =>
      have hvalue : (year.natAbs : Int) = year := by omega
      have htext : "+".toList = ['+'] := rfl
      rw [String.toList_append, htext, List.append_assoc, List.singleton_append, takeYear?,
        dropBlanks_cons (by decide)]
      simp only [hsigned, Option.map_some, hvalue]

theorem takeFraction?_padded {width k : Nat} (hwidth : 0 < width ∧ width ≤ 9)
    (hk : k < Nat.pow 10 width) :
    takeFraction? (("." ++ Decimal.padded width k).toList ++ 'Z' :: rest) =
      some (k * Nat.pow 10 (9 - width), 'Z' :: rest) := by
  have hlength : (Decimal.padded width k).toList.length = width := by
    rw [String.length_toList, Decimal.length_padded hwidth.1 hk]
  have hdigits : ∀ c ∈ (Decimal.padded width k).toList, Decimal.isDigit c = true :=
    fun _ => Decimal.isDigit_of_mem_padded
  have hends : ∀ c ∈ ('Z' :: rest).head?, Decimal.isDigit c = false := by
    rintro c ⟨⟩
    decide
  have htake := takeWhile_take_append hdigits (Nat.le_trans (Nat.le_of_eq hlength) hwidth.2)
    (.inr hends)
  have hdrop := Decimal.dropWhile_isDigit_append hdigits hends
  have hvalue : Decimal.value (Decimal.padded width k).toList = k := Decimal.value_padded
  obtain ⟨d, ds, hds, -⟩ := Decimal.exists_padded_eq_cons width k
  rw [hds] at htake hdrop hvalue hlength
  rw [String.toList_append, List.append_assoc, hds]
  show takeFraction? ('.' :: (d :: ds ++ 'Z' :: rest)) = _
  rw [takeFraction?, htake]
  simp only [hvalue, hlength, hdrop]

/-- A fraction is cut off up to the letter behind it. -/
theorem takeFraction?_fractionText {nano : Nat} (h : nano < 1000000000) :
    takeFraction? ((fractionText nano).toList ++ 'Z' :: rest) = some (nano, 'Z' :: rest) := by
  unfold fractionText
  split
  · next hzero =>
    rw [hzero]
    rfl
  · split
    · have hvalue : nano / 1000000 * Nat.pow 10 (9 - 3) = nano :=
        Nat.div_mul_cancel (Nat.dvd_of_mod_eq_zero ‹_›)
      have hshort : nano / 1000000 < 1000 := by omega
      rw [takeFraction?_padded (by decide) hshort, hvalue]
    · split
      · have hvalue : nano / 1000 * Nat.pow 10 (9 - 6) = nano :=
          Nat.div_mul_cancel (Nat.dvd_of_mod_eq_zero ‹_›)
        have hshort : nano / 1000 < 1000000 := by omega
        rw [takeFraction?_padded (by decide) hshort, hvalue]
      · rw [takeFraction?_padded (by decide) h]
        exact congrArg some (Prod.ext (Nat.mul_one nano) rfl)

/-! ## Whole texts -/

/-- The second that the text of a time shows, which is 60 in a leap second. -/
def shownSecond (t : Timestamp) : Nat := if 1000000000 ≤ t.nano then t.second + 1 else t.second

/-- The nanoseconds that the text of a time shows. -/
def shownNano (t : Timestamp) : Nat := if 1000000000 ≤ t.nano then t.nano - 1000000000 else t.nano

theorem shownSecond_le (t : Timestamp) : t.shownSecond ≤ 60 := by
  have hsecond := t.second_lt
  unfold shownSecond
  split <;> omega

theorem shownNano_lt (t : Timestamp) : t.shownNano < 1000000000 := by
  have hnano := t.nano_lt
  unfold shownNano
  split <;> omega

/-- A second is shown as 60 just in leap seconds. -/
theorem ofShown (t : Timestamp) : min t.shownSecond 59 = t.second ∧
    (if t.shownSecond = 60 then t.shownNano + 1000000000 else t.shownNano) = t.nano := by
  have hsecond := t.second_lt
  have hnano := t.nano_lt
  unfold shownSecond shownNano
  constructor
  · split <;> omega
  · split <;> split <;> omega

/-- A time is the one that its text shows. -/
theorem ofLocal?_shown (t : Timestamp) :
    ofLocal? t.date (t.minute / 60) (t.minute % 60) t.shownSecond t.shownNano 0 = some t := by
  obtain ⟨hsecond, hnano⟩ := t.ofShown
  have hminute := t.minute_lt
  have hrange : t.minute / 60 < 24 ∧ t.minute % 60 < 60 ∧ t.shownSecond ≤ 60 ∧
      t.shownNano < 1000000000 ∧ (-1440 : Int) < 0 ∧ (0 : Int) < 1440 :=
    ⟨by omega, by omega, t.shownSecond_le, t.shownNano_lt, by decide, by decide⟩
  have htotal : ((t.minute / 60 : Nat) : Int) * 60 + ((t.minute % 60 : Nat) : Int) - 0 =
      t.minute := by
    omega
  have hbefore : ¬ (t.minute : Int) < 0 := by omega
  have hafter : ¬ 1440 ≤ (t.minute : Int) := by omega
  have hday : ((t.minute : Int) % 1440).toNat = t.minute := by omega
  unfold ofLocal?
  rw [dif_pos hrange]
  simp only [htotal, if_neg hbefore, if_neg hafter, Option.map_some, hday, hsecond, hnano]

theorem daysIn_le (year : Int) (month : Nat) : daysIn year month ≤ 31 := by
  unfold daysIn
  split
  · split <;> omega
  · split <;> omega

/-- The parts of the text of a time. -/
theorem toList_text (t : Timestamp) : t.text.toList =
    (Date.yearText t.date.year).toList ++ '-' ::
      ((Decimal.padded 2 t.date.month).toList ++ '-' ::
      ((Decimal.padded 2 t.date.day).toList ++ 'T' ::
      ((Decimal.padded 2 (t.minute / 60)).toList ++ ':' ::
      ((Decimal.padded 2 (t.minute % 60)).toList ++ ':' ::
      ((Decimal.padded 2 t.shownSecond).toList ++
      ((fractionText t.shownNano).toList ++ ['Z'])))))) := by
  simp [text, Date.text, shownSecond, shownNano]

/-- A time is read back from its text. -/
theorem parse?_text (t : Timestamp) : parse? t.text = some t := by
  have hdate : Date.ofParts? t.date.year t.date.month t.date.day = some t.date :=
    dif_pos ⟨t.date.year_mem, t.date.month_mem, t.date.day_mem⟩
  have hmonth : t.date.month < 100 := Nat.lt_of_le_of_lt t.date.month_mem.2 (by decide)
  have hday : t.date.day < 100 :=
    Nat.lt_of_le_of_lt (Nat.le_trans t.date.day_mem.2 (daysIn_le _ _)) (by decide)
  have hhour : t.minute / 60 < 100 := by
    have hminute := t.minute_lt
    omega
  have hminute : t.minute % 60 < 100 := by omega
  have hsecond : t.shownSecond < 100 := Nat.lt_of_le_of_lt t.shownSecond_le (by decide)
  have hoffset : takeOffset? (Text.dropBlanks ['Z']) = some (0, []) := by
    rw [dropBlanks_cons (by decide)]
    rfl
  rw [parse?, toList_text]
  -- one part of the text after the other is cut off
  refine Option.bind_eq_some_iff.2 ⟨_, takeYear?_yearText (by rintro c ⟨⟩; decide), ?_⟩
  refine Option.bind_eq_some_iff.2 ⟨_, takeMark?_cons (by decide), ?_⟩
  refine Option.bind_eq_some_iff.2 ⟨_, takePair?_padded hmonth, ?_⟩
  refine Option.bind_eq_some_iff.2 ⟨_, takeMark?_cons (by decide), ?_⟩
  refine Option.bind_eq_some_iff.2 ⟨_, takePair?_padded hday, ?_⟩
  dsimp only
  rw [if_pos (.inl rfl)]
  refine Option.bind_eq_some_iff.2 ⟨_, rfl, ?_⟩
  refine Option.bind_eq_some_iff.2 ⟨_, takePair?_padded hhour, ?_⟩
  refine Option.bind_eq_some_iff.2 ⟨_, takeMark?_cons (by decide), ?_⟩
  refine Option.bind_eq_some_iff.2 ⟨_, takePair?_padded hminute, ?_⟩
  refine Option.bind_eq_some_iff.2 ⟨_, takeMark?_cons (by decide), ?_⟩
  refine Option.bind_eq_some_iff.2 ⟨_, takePair?_padded hsecond, ?_⟩
  refine Option.bind_eq_some_iff.2 ⟨_, takeFraction?_fractionText t.shownNano_lt, ?_⟩
  refine Option.bind_eq_some_iff.2 ⟨_, hoffset, ?_⟩
  refine Option.bind_eq_some_iff.2 ⟨_, hdate, ?_⟩
  exact t.ofLocal?_shown

end Timestamp
end IndexPlanner
