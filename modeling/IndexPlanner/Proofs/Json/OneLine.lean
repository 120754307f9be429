import IndexPlanner.Proofs.Json.Tokens

/-!
# Values on one line

The text of a value without blanks has no end of a line in it, whatever its strings hold, because
control characters below the space are escaped wherever they stand.  So such a text can be a line,
as in a log, or a part of one, as in the display of an index.

* `Unbroken` says of a text that it has no such characters, and `Unbroken.append_iff` that this
  can be looked at part by part.
* `unbroken_quote`, `unbroken_compact`: strings and values are written without them.
-/

namespace IndexPlanner
namespace Json

/-- No character of a text is a control character below the space. -/
def Unbroken (s : String) : Prop := ∀ c ∈ s.toList, 0x20 ≤ c.toNat

instance (s : String) : Decidable (Unbroken s) :=
  List.decidableBAll (fun c : Char => 0x20 ≤ c.toNat) s.toList

namespace Unbroken

variable {s t : String}

theorem append_iff : Unbroken (s ++ t) ↔ Unbroken s ∧ Unbroken t := by
  rw [Unbroken, String.toList_append]
  exact List.forall_mem_append

/-- Such a text has no end of a line in it. -/
theorem newline_notMem (h : Unbroken s) : '\n' ∉ s.toList :=
  fun hmem => absurd (h '\n' hmem) (by decide)

end Unbroken

/-! ## Strings and numbers -/

theorem le_toNat_hexDigit (n : Nat) : 0x20 ≤ (hexDigit n).toNat := by
  have all : ∀ d < 16, 0x20 ≤ (Nat.digitChar d).toNat := by decide
  exact all (n % 16) (Nat.mod_lt n (by decide))

/-- A character is written without control characters, also if it is one. -/
theorem le_toNat_of_mem_escape {c x : Char} (h : x ∈ escape c) : 0x20 ≤ x.toNat := by
  have hpair {d : Char} (hd : 0x20 ≤ d.toNat) (hx : x ∈ ['\\', d]) : 0x20 ≤ x.toNat := by
    rw [List.mem_cons, List.mem_singleton] at hx
    rcases hx with rfl | rfl
    · decide
    · exact hd
  unfold escape at h
  -- the seven characters with an escape of their own
  iterate 7
    split at h
    · exact hpair (by decide) h
  split at h
  · simp only [List.mem_cons, List.not_mem_nil, or_false] at h
    rcases h with rfl | rfl | rfl | rfl | rfl | rfl
    · decide
    · decide
    · decide
    · decide
    · exact le_toNat_hexDigit _
    · exact le_toNat_hexDigit _
  · next hcontrol =>
    obtain rfl := List.mem_singleton.1 h
    exact Nat.le_of_not_lt hcontrol

theorem unbroken_quote (s : String) : Unbroken (quote s) := by
  intro x hx
  rw [quote, String.toList_ofList, quoteChars, List.cons_append, List.mem_cons, List.mem_append,
    List.mem_flatMap, List.mem_singleton] at hx
  rcases hx with rfl | ⟨c, -, hx⟩ | rfl
  · decide
  · exact le_toNat_of_mem_escape hx
  · decide

theorem unbroken_boolText (b : Bool) : Unbroken (boolText b) := by
  cases b <;> decide

theorem le_toNat_of_isDigit {c : Char} (h : Decimal.isDigit c = true) : 0x20 ≤ c.toNat := by
  rw [Decimal.isDigit, Bool.and_eq_true, decide_eq_true_eq] at h
  exact Nat.le_trans (by decide) (UInt32.le_iff_toNat_le.1 h.1)

theorem unbroken_text (n : Nat) : Unbroken (Decimal.text n) := by
  intro c hc
  rw [Decimal.toList_text] at hc
  exact le_toNat_of_isDigit (Decimal.isDigit_of_mem_digits hc)

theorem unbroken_intText (n : Int) : Unbroken (Decimal.intText n) := by
  unfold Decimal.intText
  split
  · exact Unbroken.append_iff.2 ⟨by decide, unbroken_text _⟩
  · exact unbroken_text _

/-! ## Values -/

section Values

variable {depth : Nat}

theorem unbroken_gap : Unbroken (Layout.compact.gap depth) := by
  show Unbroken ""
  decide

theorem unbroken_colon : Unbroken Layout.compact.colon := by
  decide

mutual

/-- A value without blanks is written without control characters. -/
theorem unbroken_textAt : ∀ {depth : Nat} {v : Json}, v.Exact → Unbroken (textAt .compact depth v)
  | _, .null, _ => by
    rw [textAt]
    decide
  | _, .bool b, _ => by
    rw [textAt]
    exact unbroken_boolText b
  | _, .number n, h => by
    cases h with
    | integer hn =>
      rw [textAt]
      exact unbroken_intText _
  | _, .string s, _ => by
    rw [textAt]
    exact unbroken_quote s
  | _, .array [], _ => by
    rw [textAt]
    decide
  | _, .array (v :: vs), h => by
    obtain ⟨hv, hvs⟩ := List.forall_mem_cons.1 h.forall_mem_items
    rw [textAt]
    simp only [Unbroken.append_iff]
    exact ⟨⟨⟨by decide, unbroken_gap⟩, unbroken_textAt hv⟩, unbroken_itemsAt hvs⟩
  | _, .object [], _ => by
    rw [textAt]
    decide
  | _, .object ((name, v) :: ms), h => by
    obtain ⟨hv, hms⟩ := List.forall_mem_cons.1 h.forall_mem_members
    rw [textAt]
    simp only [Unbroken.append_iff]
    exact ⟨⟨⟨⟨⟨by decide, unbroken_gap⟩, unbroken_quote name⟩, unbroken_colon⟩,
      unbroken_textAt hv⟩, unbroken_membersAt hms⟩

theorem unbroken_itemsAt : ∀ {depth : Nat} {vs : List Json}, (∀ v ∈ vs, v.Exact) →
    Unbroken (itemsAt .compact depth vs)
  | _, [], _ => by
    rw [itemsAt]
    exact Unbroken.append_iff.2 ⟨unbroken_gap, by decide⟩
  | _, v :: vs, h => by
    obtain ⟨hv, hvs⟩ := List.forall_mem_cons.1 h
    rw [itemsAt]
    simp only [Unbroken.append_iff]
    exact ⟨⟨⟨by decide, unbroken_gap⟩, unbroken_textAt hv⟩, unbroken_itemsAt hvs⟩

theorem unbroken_membersAt : ∀ {depth : Nat} {ms : List (String × Json)},
    (∀ m ∈ ms, m.2.Exact) → Unbroken (membersAt .compact depth ms)
  | _, [], _ => by
    rw [membersAt]
    exact Unbroken.append_iff.2 ⟨unbroken_gap, by decide⟩
  | _, (name, v) :: ms, h => by
    obtain ⟨hv, hms⟩ := List.forall_mem_cons.1 h
    rw [membersAt]
    simp only [Unbroken.append_iff]
    exact ⟨⟨⟨⟨⟨by decide, unbroken_gap⟩, unbroken_quote name⟩, unbroken_colon⟩,
      unbroken_textAt hv⟩, unbroken_membersAt hms⟩

end

theorem unbroken_compact {v : Json} (h : v.Exact) : Unbroken v.compact := unbroken_textAt h

end Values

end Json
end IndexPlanner
