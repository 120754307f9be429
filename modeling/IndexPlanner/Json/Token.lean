import IndexPlanner.Decimal.Reading
import IndexPlanner.Json.Value
import IndexPlanner.Json.Text

/-!
# Tokens of JSON texts

A text is first cut into tokens.  Blanks separate tokens and are dropped.  Where no token
can be cut, the last token is `malformed`: whether that matters depends on who reads the
tokens, because a reader that finds another fault further ahead in the text reports that
one.

For the same reason a token remembers a string whose content does not exist and a number
that is beyond the doubles: as a part of the text that is passed over they are in order.

* `Token.number?` cuts off a number;
* `tokens` cuts a whole text.
-/

namespace IndexPlanner
namespace Json

/-- A piece of a JSON text. -/
inductive Token where
  | openBracket
  | closeBracket
  | openBrace
  | closeBrace
  | comma
  | colon
  | null
  | bool (b : Bool)
  | number (n : Option JsonNumber)
  | string (s : Option String)
  | malformed
  deriving Inhabited

/-- The four characters that may stand between tokens. -/
def isBlank (c : Char) : Bool := c = ' ' || c = '\n' || c = '\t' || c = '\r'

namespace Token

/-- The token that a single character stands for. -/
def mark? (c : Char) : Option Token :=
  if c = '[' then some openBracket
  else if c = ']' then some closeBracket
  else if c = '\x7b' then some openBrace
  else if c = '\x7d' then some closeBrace
  else if c = ',' then some comma
  else if c = ':' then some colon
  else none

/-- The parts of a number in a JSON text. -/
structure Numeral where
  negative : Bool
  whole : List Char
  /-- The digits after the point, if there is a point. -/
  fraction : Option (List Char)
  /-- The power of ten, if one is given. -/
  power : Option Int

/-- The number that a numeral stands for, unless it is beyond the doubles.  A numeral
without point and power is an integer if it is within 64 bits; minus zero is a double,
because integers have no sign of their own. -/
def Numeral.number? (p : Numeral) : Option JsonNumber :=
  let s := Decimal.Significand.ofWhole p.whole
  match p.fraction, p.power with
  | none, none =>
    if s.exponent = 0 then
      if !p.negative then some (.integer s.value)
      else if 0 < s.value ∧ s.value ≤ Nat.pow 2 63 then some (.integer (-(s.value : Int)))
      else some (.real (-(s.value.toUInt64.toFloat)))
    else finish s
  | _, _ =>
    let s := s.absorb (p.fraction.getD [])
    finish { s with exponent := s.exponent + p.power.getD 0 }
where
  /-- The double that the significand stands for, with the sign of the numeral. -/
  finish (s : Decimal.Significand) : Option JsonNumber :=
    s.toFloat?.map fun x => .real (if p.negative then -x else x)

/-- Cuts off the longest run of digits. -/
def takeDigits (cs : List Char) : List Char × List Char :=
  (cs.takeWhile Decimal.isDigit, cs.dropWhile Decimal.isDigit)

/-- Cuts off the digits before the point: a lone zero, or digits that do not begin with
one. -/
def takeWhole? (cs : List Char) : Option (List Char × List Char) :=
  match takeDigits cs with
  | ([], _) => none
  | ('0' :: _ :: _, _) => none
  | (ds, rest) => some (ds, rest)

/-- Cuts off a point and the digits after it, of which there is at least one. -/
def takeFraction? (cs : List Char) : Option (Option (List Char) × List Char) :=
  match cs with
  | '.' :: rest =>
    match takeDigits rest with
    | ([], _) => none
    | (ds, rest) => some (some ds, rest)
  | cs => some (none, cs)

/-- Cuts off a minus sign, if there is one. -/
def takeMinus (cs : List Char) : Bool × List Char :=
  match cs with
  | '-' :: rest => (true, rest)
  | cs => (false, cs)

/-- Cuts off the sign of a power of ten, if there is one. -/
def takeSign (cs : List Char) : Bool × List Char :=
  match cs with
  | '+' :: rest => (false, rest)
  | cs => takeMinus cs

/-- Cuts off the mark of a power of ten and its digits, of which there is at least one. -/
def takePower? (cs : List Char) : Option (Option Int × List Char) :=
  match cs with
  | [] => some (none, [])
  | c :: rest =>
    if c = 'e' ∨ c = 'E' then
      match takeDigits (takeSign rest).2 with
      | ([], _) => none
      | (ds, rest') =>
        let n : Int := Decimal.value ds
        some (some (if (takeSign rest).1 then -n else n), rest')
    else some (none, c :: rest)

/-- Cuts off a number, and gives what follows it. -/
def takeNumber? (cs : List Char) : Option (Numeral × List Char) :=
  match takeWhole? (takeMinus cs).2 with
  | none => none
  | some (whole, cs₁) =>
    match takeFraction? cs₁ with
    | none => none
    | some (fraction, cs₂) =>
      match takePower? cs₂ with
      | none => none
      | some (power, cs₃) => some (⟨(takeMinus cs).1, whole, fraction, power⟩, cs₃)

theorem length_takeDigits (cs : List Char) : (takeDigits cs).2.length ≤ cs.length :=
  (List.dropWhile_sublist _).length_le

theorem length_lt_of_takeDigits {cs ds rest : List Char} {d : Char}
    (h : takeDigits cs = (d :: ds, rest)) : rest.length < cs.length := by
  simp only [takeDigits, Prod.mk.injEq] at h
  have hlen := congrArg List.length (List.takeWhile_append_dropWhile
    (p := Decimal.isDigit) (l := cs))
  rw [h.1, h.2] at hlen
  simp only [List.length_append, List.length_cons] at hlen
  omega

theorem length_lt_of_takeWhole? {cs ds rest : List Char}
    (h : takeWhole? cs = some (ds, rest)) : rest.length < cs.length := by
  unfold takeWhole? at h
  split at h
  · simp at h
  · simp at h
  · next ds' _ hne _ hd =>
    cases ds' with
    | nil => exact absurd rfl hne
    | cons d ds' =>
      simp only [Option.some.injEq, Prod.mk.injEq] at h
      exact h.2 ▸ length_lt_of_takeDigits hd

theorem length_takeFraction? {cs rest : List Char} {ds : Option (List Char)}
    (h : takeFraction? cs = some (ds, rest)) : rest.length ≤ cs.length := by
  unfold takeFraction? at h
  split at h
  · next rest' =>
    split at h
    · simp at h
    · next hd =>
      simp only [Option.some.injEq, Prod.mk.injEq] at h
      have := length_takeDigits rest'
      rw [hd] at this
      simp_all only [List.length_cons]
      omega
  · simp only [Option.some.injEq, Prod.mk.injEq] at h
    exact Nat.le_of_eq (congrArg List.length h.2.symm)

theorem length_takeMinus (cs : List Char) : (takeMinus cs).2.length ≤ cs.length := by
  unfold takeMinus
  split <;> simp

theorem length_takeSign (cs : List Char) : (takeSign cs).2.length ≤ cs.length := by
  unfold takeSign
  split
  · simp
  · exact length_takeMinus _

theorem length_takePower? {cs rest : List Char} {e : Option Int}
    (h : takePower? cs = some (e, rest)) : rest.length ≤ cs.length := by
  unfold takePower? at h
  split at h
  · simp_all
  · next c cs' =>
    split at h
    · have hs := length_takeSign cs'
      have hd := length_takeDigits (takeSign cs').2
      split at h
      · simp at h
      · next heq =>
        simp only [Option.some.injEq, Prod.mk.injEq] at h
        rw [heq] at hd
        simp only [← h.2, List.length_cons] at *
        omega
    · simp only [Option.some.injEq, Prod.mk.injEq] at h
      exact Nat.le_of_eq (congrArg List.length h.2.symm)

theorem length_lt_of_takeNumber? {cs rest : List Char} {p : Numeral}
    (h : takeNumber? cs = some (p, rest)) : rest.length < cs.length := by
  have h1 := length_takeMinus cs
  unfold takeNumber? at h
  split at h
  · simp at h
  · next hw =>
    have h2 := length_lt_of_takeWhole? hw
    split at h
    · simp at h
    · next hf =>
      have h3 := length_takeFraction? hf
      split at h
      · simp at h
      · next hp =>
        have h4 := length_takePower? hp
        simp only [Option.some.injEq, Prod.mk.injEq] at h
        rw [← h.2]
        omega

/-- Cuts off one of the three words. -/
def takeWord? (cs : List Char) : Option (Token × List Char) :=
  match cs with
  | 'n' :: 'u' :: 'l' :: 'l' :: rest => some (null, rest)
  | 't' :: 'r' :: 'u' :: 'e' :: rest => some (bool true, rest)
  | 'f' :: 'a' :: 'l' :: 's' :: 'e' :: rest => some (bool false, rest)
  | _ => none

theorem length_lt_of_takeWord? {cs rest : List Char} {t : Token}
    (h : takeWord? cs = some (t, rest)) : rest.length < cs.length := by
  unfold takeWord? at h
  split at h <;> simp_all <;> omega

/-- Cuts off a token that does not begin with a blank, and gives what follows it. -/
def next? (cs : List Char) : Option (Token × List Char) :=
  match cs with
  | [] => none
  | c :: rest =>
    match mark? c with
    | some t => some (t, rest)
    | none =>
      if c = '"' then
        match unquote rest with
        | some (s, rest) => some (string s, rest)
        | none => none
      else if c = '-' ∨ Decimal.isDigit c then
        match takeNumber? (c :: rest) with
        | some (p, rest) => some (number p.number?, rest)
        | none => none
      else takeWord? (c :: rest)

theorem length_lt_of_next? {cs rest : List Char} {t : Token}
    (h : next? cs = some (t, rest)) : rest.length < cs.length := by
  unfold next? at h
  split at h
  · simp at h
  · split at h
    · simp_all
    · split at h
      · split at h
        · next hu =>
          have := length_lt_of_unquoteFrom hu
          simp_all only [Option.some.injEq, Prod.mk.injEq, List.length_cons]
          omega
        · simp at h
      · split at h
        · split at h
          · next hn =>
            have := length_lt_of_takeNumber? hn
            simp_all
          · simp at h
        · exact length_lt_of_takeWord? h

end Token

/-- Cuts a text into tokens.  If that does not succeed to its end, the last token is
`malformed`. -/
def tokens (cs : List Char) : List Token :=
  match cs with
  | [] => []
  | c :: rest =>
    if isBlank c then tokens rest
    else
      match _h : Token.next? (c :: rest) with
      | none => [.malformed]
      | some (t, rest') => t :: tokens rest'
termination_by cs.length
decreasing_by
  · simp
  · exact Token.length_lt_of_next? _h

end Json
end IndexPlanner
