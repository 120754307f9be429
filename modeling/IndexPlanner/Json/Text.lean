/-!
# Strings in JSON texts

A string is written between quotes.  Quotes, backslashes and the control characters
below the space are escaped, everything else stands for itself, whatever its script.

Reading is more liberal: any character may be escaped by its code in UTF-16, so a
character beyond the first 65536 is two escapes in a row.  A code that is only half of
such a pair names no character.  A string with one is still a string as far as the shape
of the text goes, and it is refused only where its content is asked for; reading such a
string gives `some none`.

* `quote` writes a string;
* `unquote` reads up to the closing quote.
-/

namespace IndexPlanner
namespace Json

/-- A hexadecimal digit in lower case. -/
def hexDigit (n : Nat) : Char := Nat.digitChar (n % 16)

/-- How a character is written inside a string. -/
def escape (c : Char) : List Char :=
  if c = '"' then ['\\', '"']
  else if c = '\\' then ['\\', '\\']
  else if c = '\n' then ['\\', 'n']
  else if c = '\r' then ['\\', 'r']
  else if c = '\t' then ['\\', 't']
  else if c = '\x08' then ['\\', 'b']
  else if c = '\x0c' then ['\\', 'f']
  else if c.toNat < 0x20 then
    ['\\', 'u', '0', '0', hexDigit (c.toNat / 16), hexDigit c.toNat]
  else [c]

/-- The characters of a string in a JSON text. -/
def quoteChars (cs : List Char) : List Char := '"' :: cs.flatMap escape ++ ['"']

/-- A string in a JSON text. -/
def quote (s : String) : String := String.ofList (quoteChars s.toList)

/-- The number that a hexadecimal digit stands for. -/
def hexValue? (c : Char) : Option Nat :=
  if '0' ≤ c ∧ c ≤ '9' then some (c.toNat - '0'.toNat)
  else if 'a' ≤ c ∧ c ≤ 'f' then some (c.toNat - 'a'.toNat + 10)
  else if 'A' ≤ c ∧ c ≤ 'F' then some (c.toNat - 'A'.toNat + 10)
  else none

/-- The code that four hexadecimal digits stand for. -/
def codeUnit? (a b c d : Char) : Option Nat := do
  let a ← hexValue? a
  let b ← hexValue? b
  let c ← hexValue? c
  let d ← hexValue? d
  return ((a * 16 + b) * 16 + c) * 16 + d

/-- The character that a backslash and one more character stand for. -/
def escaped? (c : Char) : Option Char :=
  if c = '"' then some '"'
  else if c = '\\' then some '\\'
  else if c = '/' then some '/'
  else if c = 'b' then some '\x08'
  else if c = 'f' then some '\x0c'
  else if c = 'n' then some '\n'
  else if c = 'r' then some '\r'
  else if c = 't' then some '\t'
  else none

/-- What has been read of a string: its characters, latest first, unless one of them does
not exist, and the first half of a pair of codes that waits for the second. -/
structure Unquoting where
  chars : Option (List Char) := some []
  half : Option Nat := none

namespace Unquoting

/-- One more character.  It cannot complete a pair. -/
def push (st : Unquoting) (c : Char) : Unquoting :=
  match st.half with
  | none => { chars := st.chars.map (c :: ·) }
  | some _ => { chars := none }

/-- One more code of UTF-16. -/
def pushUnit (st : Unquoting) (n : Nat) : Unquoting :=
  if 0xD800 ≤ n ∧ n ≤ 0xDBFF then
    match st.half with
    | none => { st with half := some n }
    | some _ => { chars := none }
  else if 0xDC00 ≤ n ∧ n ≤ 0xDFFF then
    match st.half with
    | none => { chars := none }
    | some h =>
      let c := Char.ofNat (0x10000 + (h - 0xD800) * 0x400 + (n - 0xDC00))
      { chars := st.chars.map (c :: ·) }
  else st.push (Char.ofNat n)

/-- The string, if all its characters exist. -/
def finish (st : Unquoting) : Option String :=
  match st.half with
  | none => st.chars.map fun cs => String.ofList cs.reverse
  | some _ => none

end Unquoting

/-- Reads a string up to its closing quote, and gives what follows it.  The outer option
is the shape of the text, the inner one the content of the string. -/
def unquoteFrom (st : Unquoting) : List Char → Option (Option String × List Char)
  | [] => none
  | '"' :: rest => some (st.finish, rest)
  | '\\' :: 'u' :: a :: b :: c :: d :: rest =>
    match codeUnit? a b c d with
    | none => none
    | some n => unquoteFrom (st.pushUnit n) rest
  | '\\' :: c :: rest =>
    match escaped? c with
    | none => none
    | some e => unquoteFrom (st.push e) rest
  | c :: rest => if c.toNat < 0x20 then none else unquoteFrom (st.push c) rest

/-- Reads a string whose opening quote has been read. -/
def unquote (cs : List Char) : Option (Option String × List Char) := unquoteFrom {} cs

theorem length_lt_of_unquoteFrom {st : Unquoting} {cs : List Char} {s : Option String}
    {rest : List Char} (h : unquoteFrom st cs = some (s, rest)) :
    rest.length < cs.length := by
  fun_induction unquoteFrom st cs <;> simp_all <;> omega

end Json
end IndexPlanner
