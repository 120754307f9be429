import IndexPlanner.Json.Printer
import IndexPlanner.Json.Token

/-!
# The tokens of written texts

What is written of a value falls into the tokens that one expects.

* `unquote_escape`: a string is read back, whatever its characters.
* `Numeral.number?_digits`, `takeNumber?_intText`: an integer within 64 bits is read back.
* `tokenList` has the tokens of a value, and `tokens_textAt` says that the text of the value has
  these tokens and no others, whatever its layout and how deep in brackets it is.
-/

namespace IndexPlanner
namespace Json

/-! ## Strings -/

/-- Two hexadecimal digits are enough for the control characters. -/
theorem codeUnit?_hexDigit {n : Nat} (h : n < 0x20) :
    codeUnit? '0' '0' (hexDigit (n / 16)) (hexDigit n) = some n := by
  have all : ∀ n < 0x20, codeUnit? '0' '0' (hexDigit (n / 16)) (hexDigit n) = some n := by decide
  exact all n h

variable {acc cs rest : List Char} {c : Char}

/-- A character is read as it is written. -/
theorem unquoteFrom_escape :
    unquoteFrom { chars := some acc } (escape c ++ rest) =
      unquoteFrom { chars := some (c :: acc) } rest := by
  unfold escape
  -- the seven characters with an escape of their own
  iterate 7
    split
    · next h =>
      subst h
      rfl
  split
  · next hcontrol =>
    have hunit : Unquoting.pushUnit { chars := some acc } c.toNat =
        { chars := some (Char.ofNat c.toNat :: acc) } := by
      rw [Unquoting.pushUnit, if_neg (by omega), if_neg (by omega)]
      rfl
    show unquoteFrom { chars := some acc }
      ('\\' :: 'u' :: '0' :: '0' :: hexDigit (c.toNat / 16) :: hexDigit c.toNat :: rest) = _
    rw [unquoteFrom, codeUnit?_hexDigit hcontrol]
    show unquoteFrom (Unquoting.pushUnit { chars := some acc } c.toNat) rest = _
    rw [hunit, Char.ofNat_toNat]
  · next hquote hbackslash _ _ _ _ _ hcontrol =>
    show unquoteFrom { chars := some acc } (c :: rest) = _
    rw [unquoteFrom, if_neg hcontrol]
    · rfl
    · exact hquote
    · exact fun _ _ _ _ _ heq _ => hbackslash heq
    · exact fun _ _ heq _ => hbackslash heq

/-- A string is read as it is written. -/
theorem unquoteFrom_flatMap_escape :
    unquoteFrom { chars := some acc } (cs.flatMap escape ++ '"' :: rest) =
      some (some (String.ofList (acc.reverse ++ cs)), rest) := by
  induction cs generalizing acc with
  | nil => simp [unquoteFrom, Unquoting.finish]
  | cons c cs ih =>
    rw [List.flatMap_cons, List.append_assoc, unquoteFrom_escape, ih, List.reverse_cons,
      List.append_assoc]
    rfl

theorem unquote_escape (s : String) :
    unquote (s.toList.flatMap escape ++ '"' :: rest) = some (some s, rest) := by
  rw [unquote, unquoteFrom_flatMap_escape, List.reverse_nil, List.nil_append, String.ofList_toList]

/-! ## Numbers -/

/-- A text that does not go on with more of a number. -/
def EndsNumber (cs : List Char) : Prop :=
  ∀ c ∈ cs.head?, Decimal.isDigit c = false ∧ c ≠ '.' ∧ c ≠ 'e' ∧ c ≠ 'E'

namespace Token

theorem takeWhole?_digits {n : Nat} (hrest : EndsNumber rest) :
    takeWhole? (Decimal.digits n ++ rest) = some (Decimal.digits n, rest) := by
  have hdigits : ∀ c ∈ Decimal.digits n, Decimal.isDigit c = true :=
    fun _ => Decimal.isDigit_of_mem_digits
  have hends : ∀ c ∈ rest.head?, Decimal.isDigit c = false := fun c hc => (hrest c hc).1
  rw [takeWhole?, takeDigits, Decimal.takeWhile_isDigit_append hdigits hends,
    Decimal.dropWhile_isDigit_append hdigits hends]
  split
  · next h => exact absurd (Prod.mk.inj h).1 (Decimal.digits_ne_nil n)
  · next c ds rest' h =>
    -- a leading zero is the only digit
    obtain ⟨hdigits, -⟩ := Prod.mk.inj h
    by_cases hn : n = 0
    · have hzero : Decimal.digits 0 = ['0'] := by decide
      rw [hn, hzero] at hdigits
      simp at hdigits
    · exact absurd (by rw [hdigits]; rfl) (Decimal.head?_digits_ne hn)
  · next h =>
    obtain ⟨rfl, rfl⟩ := Prod.mk.inj h
    rfl

theorem takeFraction?_of_endsNumber (hrest : EndsNumber rest) :
    takeFraction? rest = some (none, rest) := by
  unfold takeFraction?
  split
  · next cs => exact absurd rfl (hrest '.' rfl).2.1
  · rfl

theorem takePower?_of_endsNumber (hrest : EndsNumber rest) :
    takePower? rest = some (none, rest) := by
  unfold takePower?
  split
  · rfl
  · next c cs =>
    obtain ⟨-, -, he, hE⟩ := hrest c rfl
    rw [if_neg (not_or.2 ⟨he, hE⟩)]

theorem takeMinus_digits {n : Nat} :
    takeMinus (Decimal.digits n ++ rest) = (false, Decimal.digits n ++ rest) := by
  obtain ⟨d, ds, hds, hd⟩ := Decimal.exists_digits_eq_cons n
  rw [hds, List.cons_append]
  unfold takeMinus
  split
  · next h =>
    obtain ⟨rfl, -⟩ := List.cons.inj h
    exact absurd hd (by decide)
  · rfl

/-- The text of an integer is cut off whole. -/
theorem takeNumber?_intText {n : Int} (hrest : EndsNumber rest) :
    takeNumber? ((Decimal.intText n).toList ++ rest) =
      some (⟨n < 0, Decimal.digits n.natAbs, none, none⟩, rest) := by
  have hminus : takeMinus ((Decimal.intText n).toList ++ rest) =
      (decide (n < 0), Decimal.digits n.natAbs ++ rest) := by
    unfold Decimal.intText
    split
    · next hneg =>
      rw [String.toList_append, Decimal.toList_text, decide_eq_true hneg]
      rfl
    · next hneg =>
      rw [Decimal.toList_text, decide_eq_false hneg]
      exact takeMinus_digits
  rw [takeNumber?, hminus]
  simp only [takeWhole?_digits hrest, takeFraction?_of_endsNumber hrest,
    takePower?_of_endsNumber hrest]

/-- The integers of 64 bits: from `-2 ^ 63` on the signed ones, below `2 ^ 64` the unsigned
ones. -/
def IsWord (n : Int) : Prop := -9223372036854775808 ≤ n ∧ n < 18446744073709551616

instance (n : Int) : Decidable (IsWord n) :=
  inferInstanceAs (Decidable (-9223372036854775808 ≤ n ∧ n < 18446744073709551616))

theorem isWord_ofNat {n : Nat} (h : n < UInt64.size) : IsWord n := by
  rw [UInt64.size] at h
  constructor <;> omega

/-- An integer of 64 bits is read exactly. -/
theorem Numeral.number?_digits {n : Int} (h : IsWord n) :
    Numeral.number? ⟨n < 0, Decimal.digits n.natAbs, none, none⟩ = some (.integer n) := by
  obtain ⟨hlow, hhigh⟩ := h
  have hvalue : Decimal.valueFrom 0 (Decimal.digits n.natAbs) = n.natAbs :=
    Decimal.value_digits n.natAbs
  have hwhole : Decimal.Significand.ofWhole (Decimal.digits n.natAbs) = ⟨n.natAbs, 0⟩ := by
    rw [Decimal.Significand.ofWhole, Decimal.Significand.ofWholeFrom_of_lt, hvalue]
    rw [hvalue, UInt64.size]
    omega
  simp only [number?, hwhole, if_true]
  by_cases hneg : n < 0
  · have hrange : 0 < n.natAbs ∧ n.natAbs ≤ Nat.pow 2 63 := by
      have hpow : Nat.pow 2 63 = 9223372036854775808 := rfl
      omega
    have hvalue : -(n.natAbs : Int) = n := by omega
    rw [decide_eq_true hneg, Bool.not_true, if_neg Bool.false_ne_true, if_pos hrange, hvalue]
  · have hvalue : (n.natAbs : Int) = n := by omega
    rw [decide_eq_false hneg, Bool.not_false, if_pos rfl, hvalue]

end Token

/-! ## Single tokens -/

theorem tokens_of_isBlank (h : isBlank c = true) : tokens (c :: rest) = tokens rest := by
  rw [tokens, if_pos h]

theorem tokens_of_next? {t : Token} (hblank : isBlank c = false)
    (h : Token.next? (c :: cs) = some (t, rest)) : tokens (c :: cs) = t :: tokens rest := by
  rw [tokens, hblank, if_neg Bool.false_ne_true]
  split
  · next hnone =>
    rw [h] at hnone
    simp at hnone
  · next t' rest' hsome =>
    rw [h] at hsome
    obtain ⟨rfl, rfl⟩ := Prod.mk.inj (Option.some.inj hsome)
    rfl

theorem isBlank_of_mark? {t : Token} (h : Token.mark? c = some t) : isBlank c = false := by
  rw [Bool.eq_false_iff]
  intro hblank
  simp only [isBlank, Bool.or_eq_true, decide_eq_true_eq] at hblank
  rcases hblank with ((rfl | rfl) | rfl) | rfl <;> exact Option.some_ne_none t h.symm

/-- A bracket, a comma or a colon is a token of its own. -/
theorem tokens_of_mark? {t : Token} (text : String) (htext : text.toList = [c])
    (h : Token.mark? c = some t) : tokens (text.toList ++ rest) = t :: tokens rest := by
  rw [htext, List.singleton_append]
  refine tokens_of_next? (isBlank_of_mark? h) ?_
  rw [Token.next?, h]

/-- A blank behind a colon is no token. -/
theorem tokens_colon {l : Layout} : tokens (l.colon.toList ++ rest) = .colon :: tokens rest := by
  cases l with
  | compact => exact tokens_of_mark? ":" rfl rfl
  | indented =>
    have hcolon : tokens (":".toList ++ ' ' :: rest) = .colon :: tokens (' ' :: rest) :=
      tokens_of_mark? ":" rfl rfl
    rw [tokens_of_isBlank (by decide)] at hcolon
    exact hcolon

theorem tokens_boolText {b : Bool} :
    tokens ((boolText b).toList ++ rest) = .bool b :: tokens rest := by
  cases b with
  | true =>
    show tokens ('t' :: 'r' :: 'u' :: 'e' :: rest) = _
    exact tokens_of_next? (by decide) rfl
  | false =>
    show tokens ('f' :: 'a' :: 'l' :: 's' :: 'e' :: rest) = _
    exact tokens_of_next? (by decide) rfl

theorem tokens_null : tokens ("null".toList ++ rest) = .null :: tokens rest := by
  show tokens ('n' :: 'u' :: 'l' :: 'l' :: rest) = _
  exact tokens_of_next? (by decide) rfl

/-- A string is one token. -/
theorem tokens_quote (s : String) :
    tokens ((quote s).toList ++ rest) = .string (some s) :: tokens rest := by
  have htext : (quote s).toList ++ rest = '"' :: (s.toList.flatMap escape ++ '"' :: rest) := by
    simp [quote, quoteChars]
  have hmark : Token.mark? '"' = none := by decide
  have hnext : Token.next? ('"' :: (s.toList.flatMap escape ++ '"' :: rest)) =
      some (.string (some s), rest) := by
    simp only [Token.next?, hmark, unquote_escape, if_true]
  rw [htext, tokens_of_next? (by decide) hnext]

theorem exists_intText_eq_cons (n : Int) :
    ∃ c cs, (Decimal.intText n).toList = c :: cs ∧ (c = '-' ∨ Decimal.isDigit c = true) := by
  unfold Decimal.intText
  split
  · exact ⟨'-', _, by rw [String.toList_append]; rfl, .inl rfl⟩
  · obtain ⟨d, ds, hds, hd⟩ := Decimal.exists_digits_eq_cons n.natAbs
    exact ⟨d, ds, by rw [Decimal.toList_text, hds], .inr hd⟩

/-- What begins a number begins nothing else. -/
theorem begins_number (hc : c = '-' ∨ Decimal.isDigit c = true) :
    isBlank c = false ∧ Token.mark? c = none ∧ c ≠ '"' := by
  have hne (d : Char) (hd : ¬ (d = '-' ∨ Decimal.isDigit d = true)) : c ≠ d := by
    rintro rfl
    exact hd hc
  refine ⟨?_, ?_, hne '"' (by decide)⟩
  · simp [isBlank, hne ' ' (by decide), hne '\n' (by decide), hne '\t' (by decide),
      hne '\r' (by decide)]
  · simp [Token.mark?, hne '[' (by decide), hne ']' (by decide), hne '\x7b' (by decide),
      hne '\x7d' (by decide), hne ',' (by decide), hne ':' (by decide)]

/-- An integer of 64 bits is one token. -/
theorem tokens_intText {n : Int} (h : Token.IsWord n) (hrest : EndsNumber rest) :
    tokens ((Decimal.intText n).toList ++ rest) = .number (some (.integer n)) :: tokens rest := by
  obtain ⟨c, cs, htext, hc⟩ := exists_intText_eq_cons n
  obtain ⟨hblank, hmark, hquote⟩ := begins_number hc
  have hnumber := Token.takeNumber?_intText (n := n) hrest
  rw [htext, List.cons_append] at hnumber ⊢
  refine tokens_of_next? hblank ?_
  simp only [Token.next?, hmark, if_neg hquote, if_pos hc, hnumber,
    Token.Numeral.number?_digits h]

/-- The blanks of a new line are no tokens. -/
theorem tokens_newline {depth : Nat} :
    tokens ((newline depth).toList ++ rest) = tokens rest := by
  have hblanks (n : Nat) : tokens (List.replicate n ' ' ++ rest) = tokens rest := by
    induction n with
    | zero => rfl
    | succ n ih => rw [List.replicate_succ, List.cons_append, tokens_of_isBlank (by decide), ih]
  rw [newline, String.toList_ofList, List.cons_append, tokens_of_isBlank (by decide), hblanks]

/-- What sets items apart is no token. -/
theorem tokens_gap {l : Layout} {depth : Nat} :
    tokens ((l.gap depth).toList ++ rest) = tokens rest := by
  cases l with
  | compact => rfl
  | indented => exact tokens_newline

/-! ## Values -/

mutual

/-- The tokens of a value. -/
def tokenList : Json → List Token
  | null => [.null]
  | bool b => [.bool b]
  | number n => [.number (some n)]
  | string s => [.string (some s)]
  | array [] => [.openBracket, .closeBracket]
  | array (v :: vs) => .openBracket :: (tokenList v ++ itemTokens vs)
  | object [] => [.openBrace, .closeBrace]
  | object ((name, v) :: ms) =>
    .openBrace :: .string (some name) :: .colon :: (tokenList v ++ memberTokens ms)

/-- The tokens of the items that follow the first one, with the closing bracket. -/
def itemTokens : List Json → List Token
  | [] => [.closeBracket]
  | v :: vs => .comma :: (tokenList v ++ itemTokens vs)

/-- The tokens of the members that follow the first one, with the closing brace. -/
def memberTokens : List (String × Json) → List Token
  | [] => [.closeBrace]
  | (name, v) :: ms =>
    .comma :: .string (some name) :: .colon :: (tokenList v ++ memberTokens ms)

end

/-- All numbers in the value are integers of 64 bits. -/
inductive Exact : Json → Prop where
  | null : Exact null
  | bool (b : Bool) : Exact (bool b)
  | integer {n : Int} (hn : Token.IsWord n) : Exact (number (.integer n))
  | string (s : String) : Exact (string s)
  | array {items : List Json} (hitems : ∀ v ∈ items, Exact v) : Exact (array items)
  | object {ms : List (String × Json)} (hvalues : ∀ m ∈ ms, Exact m.2) : Exact (object ms)

theorem Exact.forall_mem_items {items : List Json} (h : (Json.array items).Exact) :
    ∀ v ∈ items, v.Exact := by
  cases h with
  | array hitems => exact hitems

theorem Exact.forall_mem_members {ms : List (String × Json)} (h : (Json.object ms).Exact) :
    ∀ m ∈ ms, m.2.Exact := by
  cases h with
  | object hvalues => exact hvalues

theorem exact_ofNat {n : Nat} (h : n < UInt64.size) : (Json.ofNat n).Exact :=
  .integer (Token.isWord_ofNat h)

/-- What sets items apart ends a number if what follows does. -/
theorem endsNumber_gap {l : Layout} {depth : Nat} {text : String}
    (h : EndsNumber (text.toList ++ rest)) :
    EndsNumber ((l.gap depth ++ text).toList ++ rest) := by
  rw [String.toList_append, List.append_assoc]
  cases l with
  | compact => exact h
  | indented =>
    rw [Layout.gap, newline, String.toList_ofList]
    rintro c ⟨⟩
    decide

/-- A comma ends a number. -/
theorem endsNumber_comma {text : String} : EndsNumber (("," ++ text).toList ++ rest) := by
  rw [String.toList_append]
  rintro c ⟨⟩
  decide

theorem endsNumber_itemsAt {l : Layout} {depth : Nat} {vs : List Json} :
    EndsNumber ((itemsAt l depth vs).toList ++ rest) := by
  cases vs with
  | nil =>
    rw [itemsAt]
    refine endsNumber_gap ?_
    rintro c ⟨⟩
    decide
  | cons v vs =>
    rw [itemsAt, String.append_assoc, String.append_assoc]
    exact endsNumber_comma

theorem endsNumber_membersAt {l : Layout} {depth : Nat} {ms : List (String × Json)} :
    EndsNumber ((membersAt l depth ms).toList ++ rest) := by
  cases ms with
  | nil =>
    rw [membersAt]
    refine endsNumber_gap ?_
    rintro c ⟨⟩
    decide
  | cons m ms =>
    obtain ⟨name, v⟩ := m
    rw [membersAt, String.append_assoc, String.append_assoc, String.append_assoc,
      String.append_assoc]
    exact endsNumber_comma

section Values

variable {l : Layout}

-- By induction on the value, at every depth and before any rest: items are written one bracket
-- deeper, and a number is read whole only if what comes after it ends it.
mutual

/-- **The text of a value has the tokens of the value.** -/
theorem tokens_textAt : ∀ {depth : Nat} {v : Json} {rest : List Char}, v.Exact →
    EndsNumber rest → tokens ((textAt l depth v).toList ++ rest) = v.tokenList ++ tokens rest
  | _, .null, _, _, _ => by
    rw [textAt, tokens_null]
    rfl
  | _, .bool b, _, _, _ => by
    rw [textAt, tokens_boolText]
    rfl
  | _, .number n, _, h, hrest => by
    cases h with
    | integer hn =>
      rw [textAt, JsonNumber.text, tokens_intText hn hrest]
      rfl
  | _, .string s, _, _, _ => by
    rw [textAt, tokens_quote]
    rfl
  | _, .array [], rest, _, _ => by
    rw [textAt]
    show tokens ("[".toList ++ ("]".toList ++ rest)) = _
    rw [tokens_of_mark? "[" rfl rfl, tokens_of_mark? "]" rfl rfl]
    rfl
  | depth, .array (v :: vs), rest, h, _ => by
    obtain ⟨hv, hvs⟩ := List.forall_mem_cons.1 h.forall_mem_items
    simp only [textAt, tokenList, String.toList_append, List.append_assoc, List.cons_append]
    rw [tokens_of_mark? "[" rfl rfl, tokens_gap,
      tokens_textAt hv endsNumber_itemsAt, tokens_itemsAt hvs]
  | _, .object [], rest, _, _ => by
    rw [textAt]
    show tokens ("\x7b".toList ++ ("\x7d".toList ++ rest)) = _
    rw [tokens_of_mark? "\x7b" rfl rfl, tokens_of_mark? "\x7d" rfl rfl]
    rfl
  | depth, .object ((name, v) :: ms), rest, h, _ => by
    obtain ⟨hv, hms⟩ := List.forall_mem_cons.1 h.forall_mem_members
    simp only [textAt, tokenList, String.toList_append, List.append_assoc, List.cons_append]
    rw [tokens_of_mark? "\x7b" rfl rfl, tokens_gap, tokens_quote, tokens_colon,
      tokens_textAt hv endsNumber_membersAt, tokens_membersAt hms]

theorem tokens_itemsAt : ∀ {depth : Nat} {vs : List Json} {rest : List Char},
    (∀ v ∈ vs, v.Exact) →
    tokens ((itemsAt l depth vs).toList ++ rest) = itemTokens vs ++ tokens rest
  | depth, [], rest, _ => by
    simp only [itemsAt, String.toList_append, List.append_assoc]
    rw [tokens_gap, tokens_of_mark? "]" rfl rfl]
    rfl
  | depth, v :: vs, rest, h => by
    obtain ⟨hv, hvs⟩ := List.forall_mem_cons.1 h
    simp only [itemsAt, itemTokens, String.toList_append, List.append_assoc, List.cons_append]
    rw [tokens_of_mark? "," rfl rfl, tokens_gap,
      tokens_textAt hv endsNumber_itemsAt, tokens_itemsAt hvs]

theorem tokens_membersAt : ∀ {depth : Nat} {ms : List (String × Json)} {rest : List Char},
    (∀ m ∈ ms, m.2.Exact) →
    tokens ((membersAt l depth ms).toList ++ rest) = memberTokens ms ++ tokens rest
  | depth, [], rest, _ => by
    simp only [membersAt, String.toList_append, List.append_assoc]
    rw [tokens_gap, tokens_of_mark? "\x7d" rfl rfl]
    rfl
  | depth, (name, v) :: ms, rest, h => by
    obtain ⟨hv, hms⟩ := List.forall_mem_cons.1 h
    simp only [membersAt, memberTokens, String.toList_append, List.append_assoc,
      List.cons_append]
    rw [tokens_of_mark? "," rfl rfl, tokens_gap, tokens_quote, tokens_colon,
      tokens_textAt hv endsNumber_membersAt, tokens_membersAt hms]

end

/-- The text of a document has the tokens of the document. -/
theorem tokens_document {v : Json} (h : v.Exact) :
    tokens (textAt l 0 v).toList = v.tokenList := by
  have htokens : tokens ((textAt l 0 v).toList ++ []) = v.tokenList ++ tokens [] :=
    tokens_textAt h (by simp [EndsNumber])
  rwa [tokens, List.append_nil, List.append_nil] at htokens

end Values

end Json
end IndexPlanner
