/-!
# Decimal digits of natural numbers

Every number that the planner writes or reads passes through here.  `Decimal.text`
writes a natural number without leading zeros, `Decimal.value` reads digits back, and
`Decimal.value_text` says that nothing is lost on the way.

* `Decimal.padded` writes at least a given number of digits;
* `Decimal.hex` writes eight hexadecimal digits of a 32-bit word.
-/

namespace IndexPlanner
namespace Decimal

/-- A character that stands for a decimal digit; only the ten of ASCII do. -/
def isDigit (c : Char) : Bool := '0' ≤ c && c ≤ '9'

/-- The number that a digit stands for. -/
def digitValue (c : Char) : Nat := c.toNat - '0'.toNat

/-- The number that a run of digits stands for, continuing the number `n` read so far. -/
def valueFrom (n : Nat) : List Char → Nat
  | [] => n
  | c :: cs => valueFrom (n * 10 + digitValue c) cs

/-- The number that a run of digits stands for. -/
def value (cs : List Char) : Nat := valueFrom 0 cs

/-- The digits of a natural number, the most significant first and without leading
zeros. -/
def digits (n : Nat) : List Char := Nat.toDigits 10 n

/-- The text of a natural number. -/
def text (n : Nat) : String := String.ofList (digits n)

/-- The text of an integer: a minus sign if it is negative, and its digits. -/
def intText (n : Int) : String :=
  if n < 0 then "-" ++ text n.natAbs else text n.natAbs

/-- The text of a natural number, filled up with leading zeros to at least `width`
digits. -/
def padded (width n : Nat) : String :=
  String.ofList (List.replicate (width - (digits n).length) '0' ++ digits n)

/-- Eight hexadecimal digits of a 32-bit word, in lower case. -/
def hex (w : UInt32) : String :=
  let ds := Nat.toDigits 16 w.toNat
  String.ofList (List.replicate (8 - ds.length) '0' ++ ds)

theorem valueFrom_append (n : Nat) (cs ds : List Char) :
    valueFrom n (cs ++ ds) = valueFrom (valueFrom n cs) ds := by
  induction cs generalizing n with
  | nil => rfl
  | cons c cs ih => exact ih _

theorem valueFrom_singleton (n : Nat) (c : Char) :
    valueFrom n [c] = n * 10 + digitValue c := rfl

/-- Reading more digits never makes a number smaller. -/
theorem le_valueFrom (n : Nat) (cs : List Char) : n ≤ valueFrom n cs := by
  induction cs generalizing n with
  | nil => exact Nat.le_refl n
  | cons c cs ih =>
    have hstep : n ≤ n * 10 + digitValue c :=
      Nat.le_add_right_of_le (Nat.le_mul_of_pos_right n (by decide))
    exact Nat.le_trans hstep (ih _)

theorem digitValue_digitChar {d : Nat} (h : d < 10) : digitValue (Nat.digitChar d) = d := by
  have all : ∀ e < 10, digitValue (Nat.digitChar e) = e := by decide
  exact all d h

theorem isDigit_digitChar {d : Nat} (h : d < 10) : isDigit (Nat.digitChar d) = true := by
  have all : ∀ e < 10, isDigit (Nat.digitChar e) = true := by decide
  exact all d h

theorem digits_of_lt {n : Nat} (h : n < 10) : digits n = [Nat.digitChar n] :=
  Nat.toDigits_of_lt_base h

theorem digits_of_le {n : Nat} (h : 10 ≤ n) :
    digits n = digits (n / 10) ++ [Nat.digitChar (n % 10)] := by
  rw [digits, Nat.toDigits_of_base_le (by decide) h, digits]

/-- Reading the digits of a number gives the number. -/
@[simp] theorem value_digits (n : Nat) : value (digits n) = n := by
  induction n using Nat.strongRecOn with
  | ind n ih =>
    rcases Nat.lt_or_ge n 10 with h | h
    · simp only [digits_of_lt h, value, valueFrom_singleton, digitValue_digitChar h,
        Nat.zero_mul, Nat.zero_add]
    · have hr := ih (n / 10) (Nat.div_lt_self (by omega) (by decide))
      simp only [value] at hr ⊢
      simp only [digits_of_le h, valueFrom_append, hr, valueFrom_singleton,
        digitValue_digitChar (Nat.mod_lt n (by decide : 0 < 10))]
      omega

/-- The digits of a number are digits. -/
theorem isDigit_of_mem_digits {n : Nat} {c : Char} (h : c ∈ digits n) : isDigit c = true := by
  induction n using Nat.strongRecOn with
  | ind n ih =>
    rcases Nat.lt_or_ge n 10 with hn | hn
    · rw [digits_of_lt hn, List.mem_singleton] at h
      exact h ▸ isDigit_digitChar hn
    · rw [digits_of_le hn, List.mem_append, List.mem_singleton] at h
      rcases h with h | h
      · exact ih (n / 10) (Nat.div_lt_self (by omega) (by decide)) h
      · exact h ▸ isDigit_digitChar (Nat.mod_lt n (by decide))

theorem digits_ne_nil (n : Nat) : digits n ≠ [] := Nat.toDigits_ne_nil

/-- A number is written with a digit first. -/
theorem exists_digits_eq_cons (n : Nat) : ∃ d ds, digits n = d :: ds ∧ isDigit d = true := by
  obtain ⟨d, ds, h⟩ := List.exists_cons_of_ne_nil (digits_ne_nil n)
  have hd : d ∈ digits n := by
    rw [h]
    exact List.mem_cons_self
  exact ⟨d, ds, h, isDigit_of_mem_digits hd⟩

/-- Only zero is written with a leading zero. -/
theorem head?_digits_ne {n : Nat} (h : n ≠ 0) : (digits n).head? ≠ some '0' := by
  induction n using Nat.strongRecOn with
  | ind n ih =>
    rcases Nat.lt_or_ge n 10 with hn | hn
    · have all : ∀ e < 10, Nat.digitChar e = '0' → e = 0 := by decide
      rw [digits_of_lt hn, List.head?_cons]
      exact fun heq => h (all n hn (Option.some.inj heq))
    · rw [digits_of_le hn, List.head?_append, Option.or_of_isSome]
      · exact ih (n / 10) (Nat.div_lt_self (by omega) (by decide)) (by omega)
      · exact List.isSome_head?.2 (digits_ne_nil (n / 10))

@[simp] theorem toList_text (n : Nat) : (text n).toList = digits n := by simp [text]

theorem value_text (n : Nat) : value (text n).toList = n := by simp

/-! ## Runs of digits in a text -/

section Runs

variable {ds rest : List Char} (hds : ∀ c ∈ ds, isDigit c = true)
include hds

/-- A run of digits ends where something else follows. -/
theorem takeWhile_isDigit_append (hrest : ∀ c ∈ rest.head?, isDigit c = false) :
    (ds ++ rest).takeWhile isDigit = ds := by
  rw [List.takeWhile_append_of_pos hds]
  cases rest with
  | nil => exact List.append_nil ds
  | cons c cs => simp [hrest c rfl]

theorem dropWhile_isDigit_append (hrest : ∀ c ∈ rest.head?, isDigit c = false) :
    (ds ++ rest).dropWhile isDigit = rest := by
  rw [List.dropWhile_append_of_pos hds]
  cases rest with
  | nil => rfl
  | cons c cs => simp [hrest c rfl]

end Runs

/-! ## Leading zeros -/

variable {width n : Nat}

/-- Leading zeros do not change a number. -/
theorem value_padded : value (padded width n).toList = n := by
  have hzeros (k : Nat) : valueFrom 0 (List.replicate k '0') = 0 := by
    induction k with
    | zero => rfl
    | succ k ih => exact ih
  rw [padded, String.toList_ofList, value, valueFrom_append, hzeros]
  exact value_digits n

theorem isDigit_of_mem_padded {c : Char} (h : c ∈ (padded width n).toList) :
    isDigit c = true := by
  rw [padded, String.toList_ofList] at h
  rcases List.mem_append.1 h with h | h
  · rw [List.eq_of_mem_replicate h]
    decide
  · exact isDigit_of_mem_digits h

theorem exists_padded_eq_cons (width n : Nat) :
    ∃ d ds, (padded width n).toList = d :: ds ∧ isDigit d = true := by
  have hne : (padded width n).toList ≠ [] := by
    rw [padded, String.toList_ofList]
    exact List.append_ne_nil_of_right_ne_nil _ (digits_ne_nil n)
  obtain ⟨d, ds, h⟩ := List.exists_cons_of_ne_nil hne
  have hd : d ∈ (padded width n).toList := by
    rw [h]
    exact List.mem_cons_self
  exact ⟨d, ds, h, isDigit_of_mem_padded hd⟩

/-- A number that has no more digits than are asked for is filled up to just as many. -/
theorem length_padded (hwidth : 0 < width) (h : n < Nat.pow 10 width) :
    (padded width n).length = width := by
  have hlength : (digits n).length ≤ width :=
    (Nat.length_toDigits_le_iff (by decide) hwidth).2 h
  rw [padded, String.length_ofList, List.length_append, List.length_replicate]
  omega

end Decimal
end IndexPlanner
