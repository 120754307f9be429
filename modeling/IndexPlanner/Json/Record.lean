import IndexPlanner.Json.Parser
import IndexPlanner.Json.Printer
import IndexPlanner.Text.Characters

/-!
# Reading records from JSON texts

Statistics, configurations, definitions and catalog files are *records*: objects whose
members have fixed names and types.  They are read straight from the tokens of a text, so
that of several faults the one that comes first in the text is reported, be it a value of
the wrong type, a member that is missing at the end of its object, or a text that is no
JSON from some point on.

A record may also be written as an array of its values in the order in which its members
are declared.

* `Taking α` reads a value of type `α` off the front of the tokens;
* `Record` describes a record, and `Record.take` reads one;
* `readText` reads a text that is one value and nothing else.
-/

namespace IndexPlanner
namespace Json

/-- What stands where something else was expected. -/
inductive Found where
  | null
  | bool (b : Bool)
  | number (n : JsonNumber)
  | string (s : String)
  | array
  | object

/-- How a message names what it found. -/
def Found.text : Found → String
  | null => "null"
  | bool b => "boolean `" ++ boolText b ++ "`"
  | number (.integer n) => "integer `" ++ Decimal.intText n ++ "`"
  | number (.real x) => "floating point `" ++ Decimal.Layout.json.text x ++ "`"
  | string s => "string " ++ Text.quoted s
  | array => "sequence"
  | object => "map"

/-- Why a text is not what its reader asks for. -/
inductive ReadError where
  /-- The text is not JSON. -/
  | malformed
  | wrongType (found : Found) (expected : String)
  | outOfRange (n : Int) (expected : String)
  | missingMember (name : String)
  | repeatedMember (name : String)
  | unknownMember (name : String) (declared : List String)
  | unknownWord (word : String) (words : List String)
  /-- An array has fewer items than the record has members. -/
  | tooShort (length : Nat) (record : String) (size : Nat)
  /-- The value has the right type, but the planner has no use for it. -/
  | refused (reason : String)

/-- Names as alternatives in a message. -/
def alternatives : List String → String
  | [] => ""
  | [a] => "`" ++ a ++ "`"
  | [a, b] => "`" ++ a ++ "` or `" ++ b ++ "`"
  | names => "one of " ++ ", ".intercalate (names.map fun a => "`" ++ a ++ "`")

/-- The wording of an error. -/
def ReadError.message : ReadError → String
  | malformed => "<malformed JSON>"
  | wrongType found expected => "invalid type: " ++ found.text ++ ", expected " ++ expected
  | outOfRange n expected =>
    "invalid value: integer `" ++ Decimal.intText n ++ "`, expected " ++ expected
  | missingMember name => "missing field `" ++ name ++ "`"
  | repeatedMember name => "duplicate field `" ++ name ++ "`"
  | unknownMember name declared =>
    "unknown field `" ++ name ++ "`, expected " ++ alternatives declared
  | unknownWord word words =>
    "unknown variant `" ++ word ++ "`, expected " ++ alternatives words
  | tooShort length record size =>
    "invalid length " ++ Decimal.text length ++ ", expected struct " ++ record ++ " with " ++
      Decimal.text size ++ (if size = 1 then " element" else " elements")
  | refused reason => reason

/-- Reads a value off the front of the tokens, and gives what follows it.  The number
says how many more brackets may be opened. -/
abbrev Taking (α : Type) := Nat → List Token → Except ReadError (α × List Token)

/-- The fault of tokens that do not begin with what is expected. -/
def mismatch (expected : String) : List Token → ReadError
  | .null :: _ => .wrongType .null expected
  | .bool b :: _ => .wrongType (.bool b) expected
  | .number (some n) :: _ => .wrongType (.number n) expected
  | .string (some s) :: _ => .wrongType (.string s) expected
  | .openBracket :: _ => .wrongType .array expected
  | .openBrace :: _ => .wrongType .object expected
  | _ => .malformed

/-! ## Simple values -/

/-- Reads a string, which messages call `expected`. -/
def takeString (expected : String) : Taking String := fun _ ts =>
  match ts with
  | .string (some s) :: rest => .ok (s, rest)
  | ts => .error (mismatch expected ts)

/-- Reads a natural number below a bound, written as an integer. -/
def takeNatural (bound : Nat) (expected : String) : Taking Nat := fun _ ts =>
  match ts with
  | .number (some (.integer n)) :: rest =>
    if 0 ≤ n ∧ n < bound then .ok (n.toNat, rest) else .error (.outOfRange n expected)
  | ts => .error (mismatch expected ts)

/-- Reads a natural number of 64 bits. -/
def takeUInt64 : Taking UInt64 := fun depth ts =>
  match takeNatural UInt64.size "u64" depth ts with
  | .error e => .error e
  | .ok (n, rest) => .ok (n.toUInt64, rest)

/-- The double nearest to an integer of at most 64 bits. -/
def doubleOfInt (n : Int) : Float :=
  if n < 0 then -(n.natAbs.toUInt64.toFloat) else n.toNat.toUInt64.toFloat

/-- Reads a double, which may be written as an integer. -/
def takeDouble : Taking Float := fun _ ts =>
  match ts with
  | .number (some (.integer n)) :: rest => .ok (doubleOfInt n, rest)
  | .number (some (.real x)) :: rest => .ok (x, rest)
  | ts => .error (mismatch "f64" ts)

/-- The meaning of a word, which must be one of a list. -/
def meaning {α : Type} (words : List (String × α)) (word : String) : Except ReadError α :=
  match member? words word with
  | some a => .ok a
  | none => .error (.unknownWord word (words.map (·.1)))

/-- Reads one of a list of words.  A word may also be the name of the only member of an
object, whose value is then `null`. -/
def takeWord {α : Type} (words : List (String × α)) : Taking α := fun depth ts =>
  match ts with
  | .string (some word) :: rest => (meaning words word).map (·, rest)
  | .openBrace :: rest =>
    if depth = 0 then .error .malformed
    else
      match rest with
      | .string (some word) :: rest =>
        match meaning words word with
        | .error e => .error e
        | .ok a =>
          match rest with
          | .colon :: .null :: .closeBrace :: rest => .ok (a, rest)
          | .colon :: .null :: _ => .error .malformed
          | .colon :: ts => .error (mismatch "unit" ts)
          | _ => .error .malformed
      | _ => .error .malformed
  | _ => .error .malformed

/-- Reads the members of an object. -/
def takeMembers : Taking (List (String × Json)) := fun depth ts =>
  match ts with
  | .openBrace :: _ =>
    match Reader.read (.strict depth) ts with
    | some (.object members, rest) => .ok (members, rest)
    | _ => .error .malformed
  | ts => .error (mismatch "a map" ts)

/-- Passes over a value. -/
def passOver (ts : List Token) : Except ReadError (List Token) :=
  match Reader.read .lenient ts with
  | some (_, rest) => .ok rest
  | none => .error .malformed

/-! ## Lists -/

/-- What comes between the items of an array. -/
inductive Separation where
  /-- The array ends here. -/
  | ends
  /-- One more item follows. -/
  | item (rest : List Token)
  | malformed

/-- Looks for the next item of an array. -/
def nextItem (first : Bool) : List Token → Separation
  | .closeBracket :: _ => .ends
  | .comma :: .closeBracket :: _ => .malformed
  | .comma :: rest => if first then .malformed else .item rest
  | ts => if first then .item ts else .malformed

/-- Reads items up to the end of the array, of which there are at most `n`. -/
def takeItems {α : Type} (item : Taking α) (depth : Nat) :
    (n : Nat) → (first : Bool) → List Token → Except ReadError (List α × List Token)
  | 0, _, _ => .error .malformed
  | n + 1, first, ts =>
    match nextItem first ts with
    | .ends => .ok ([], ts.tail)
    | .malformed => .error .malformed
    | .item rest =>
      match item depth rest with
      | .error e => .error e
      | .ok (a, rest) =>
        match takeItems item depth n false rest with
        | .error e => .error e
        | .ok (as, rest) => .ok (a :: as, rest)

/-- Reads an array. -/
def takeList {α : Type} (item : Taking α) : Taking (List α) := fun depth ts =>
  match ts with
  | .openBracket :: rest =>
    match depth with
    | 0 => .error .malformed
    | depth + 1 => takeItems item depth (rest.length + 1) true rest
  | ts => .error (mismatch "a sequence" ts)

/-! ## Records -/

/-- A declared member of a record.  `σ` holds what has been read of the record. -/
structure Member (σ : Type) where
  name : String
  /-- Whether the member has been read. -/
  isRead : σ → Bool
  /-- Reads the value of the member. -/
  take : σ → Taking σ

/-- The member that is kept in one place of `σ`. -/
def Member.of {σ α : Type} (name : String) (get : σ → Option α) (set : σ → α → σ)
    (value : Taking α) : Member σ where
  name
  isRead s := (get s).isSome
  take s depth ts :=
    match value depth ts with
    | .error e => .error e
    | .ok (a, rest) => .ok (set s a, rest)

/-- A record of type `α`, read with the intermediate states `σ`. -/
structure Record (σ α : Type) where
  /-- The name of the record in messages. -/
  name : String
  /-- The declared members, in the order of their values in an array. -/
  members : List (Member σ)
  /-- Nothing has been read yet. -/
  start : σ
  /-- The record, unless a member is missing that has no default. -/
  finish : σ → Except ReadError α
  /-- Whether members that are not declared are refused. -/
  closed : Bool := false
  /-- Whether an array may end early. -/
  defaults : Bool := false

/-- What comes between the members of an object. -/
inductive Naming where
  /-- The object ends here. -/
  | ends
  /-- A member with this name follows. -/
  | member (name : String) (rest : List Token)
  | malformed

/-- Looks for the name of the next member of an object. -/
def nextName (first : Bool) : List Token → Naming
  | .closeBrace :: _ => .ends
  | .comma :: .string (some name) :: rest =>
    if first then .malformed else .member name rest
  | .string (some name) :: rest => if first then .member name rest else .malformed
  | _ => .malformed

namespace Record

variable {σ α : Type}

/-- The member that a name declares. -/
def member? (r : Record σ α) (name : String) : Option (Member σ) :=
  r.members.find? (·.name = name)

/-- Reads the colon after a name and the value after it.  A name that is declared and has
been read before, or one that is not declared in a closed record, is refused before the
text goes on. -/
def takeMember (r : Record σ α) (depth : Nat) (s : σ) (name : String) (ts : List Token) :
    Except ReadError (σ × List Token) :=
  match r.member? name with
  | some m =>
    if m.isRead s then .error (.repeatedMember name)
    else
      match ts with
      | .colon :: rest => m.take s depth rest
      | _ => .error .malformed
  | none =>
    if r.closed then .error (.unknownMember name (r.members.map (·.name)))
    else
      match ts with
      | .colon :: rest => (passOver rest).map (s, ·)
      | _ => .error .malformed

/-- Reads members up to the end of the object, of which there are at most `n`.  The
closing brace stays. -/
def takeObject (r : Record σ α) (depth : Nat) :
    (n : Nat) → (first : Bool) → σ → List Token → Except ReadError (σ × List Token)
  | 0, _, _, _ => .error .malformed
  | n + 1, first, s, ts =>
    match nextName first ts with
    | .ends => .ok (s, ts)
    | .malformed => .error .malformed
    | .member name rest =>
      match r.takeMember depth s name rest with
      | .error e => .error e
      | .ok (s, rest) => takeObject r depth n false s rest

/-- Reads the values of members from the items of an array.  The closing bracket
stays. -/
def takeArray (r : Record σ α) (depth : Nat) (first : Bool) (s : σ) (ts : List Token) :
    List (Member σ) → Except ReadError (σ × List Token)
  | [] => .ok (s, ts)
  | m :: ms =>
    match nextItem first ts with
    | .ends =>
      if r.defaults then .ok (s, ts)
      else .error (.tooShort (r.members.length - (ms.length + 1)) r.name r.members.length)
    | .malformed => .error .malformed
    | .item rest =>
      match m.take s depth rest with
      | .error e => .error e
      | .ok (s, rest) => takeArray r depth false s rest ms

/-- Reads a record. -/
def take (r : Record σ α) : Taking α := fun depth ts =>
  match depth, ts with
  | 0, .openBrace :: _ => .error .malformed
  | 0, .openBracket :: _ => .error .malformed
  | depth + 1, .openBrace :: rest =>
    match r.takeObject depth (rest.length + 1) true r.start rest with
    | .error e => .error e
    | .ok (s, rest) =>
      match r.finish s with
      | .error e => .error e
      | .ok a => .ok (a, rest.tail)
  | depth + 1, .openBracket :: rest =>
    match r.takeArray depth true r.start rest r.members with
    | .error e => .error e
    | .ok (s, rest) =>
      match r.finish s with
      | .error e => .error e
      | .ok a =>
        match rest with
        | .closeBracket :: rest => .ok (a, rest)
        | _ => .error .malformed
  | _, ts => .error (mismatch ("struct " ++ r.name) ts)

end Record

/-- The value of a member that must not be missing. -/
def required {α : Type} (name : String) : Option α → Except ReadError α
  | some a => .ok a
  | none => .error (.missingMember name)

/-- Reads a text that is one value and nothing else. -/
def readText {α : Type} (value : Taking α) (text : String) : Except ReadError α :=
  match value nestingLimit (tokens text.toList) with
  | .error e => .error e
  | .ok (a, []) => .ok a
  | .ok _ => .error .malformed

end Json
end IndexPlanner
