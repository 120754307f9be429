import IndexPlanner.Decimal.Shortest
import IndexPlanner.Json.Value
import IndexPlanner.Json.Text

/-!
# JSON texts

A value has two texts.  The *compact* one has no blanks at all and is used where a value
is part of a line: in the display of an index, on the wire, in the log.  The *indented*
one puts every item and every member on a line of its own, two blanks deeper than the
brackets around it, and is the text of catalog files.  Empty arrays and objects are
written without a blank in both.

The two are written by the same printer.  A layout says what it puts between the parts of
a value, which are the same in both.

* `Json.textAt` is the text of a value in a layout, inside of some brackets;
* `Json.compact` and `Json.indented` are the two texts.
-/

namespace IndexPlanner

/-- The text of a number in JSON texts. -/
def JsonNumber.text : JsonNumber → String
  | integer n => Decimal.intText n
  | real x => Decimal.Layout.json.text x

namespace Json

/-- The text of a truth value. -/
def boolText (b : Bool) : String := if b then "true" else "false"

/-- The end of a line and the blanks before the next item at a depth. -/
def newline (depth : Nat) : String :=
  String.ofList ('\n' :: List.replicate (2 * depth) ' ')

/-- The two ways to set the parts of a value apart. -/
inductive Layout where
  | compact
  | indented

namespace Layout

/-- What is written before an item, and before a closing bracket, at a depth. -/
def gap : Layout → Nat → String
  | compact, _ => ""
  | indented, depth => newline depth

/-- The colon behind a name. -/
def colon : Layout → String
  | compact => ":"
  | indented => ": "

end Layout

mutual

/-- The text of a value inside of `depth` brackets. -/
def textAt (l : Layout) (depth : Nat) : Json → String
  | null => "null"
  | bool b => boolText b
  | number n => n.text
  | string s => quote s
  | array [] => "[]"
  | array (v :: vs) =>
    "[" ++ l.gap (depth + 1) ++ textAt l (depth + 1) v ++ itemsAt l depth vs
  | object [] => "\x7b\x7d"
  | object ((name, v) :: ms) =>
    "\x7b" ++ l.gap (depth + 1) ++ quote name ++ l.colon ++ textAt l (depth + 1) v ++
      membersAt l depth ms

/-- The items that follow the first one, with the closing bracket. -/
def itemsAt (l : Layout) (depth : Nat) : List Json → String
  | [] => l.gap depth ++ "]"
  | v :: vs => "," ++ l.gap (depth + 1) ++ textAt l (depth + 1) v ++ itemsAt l depth vs

/-- The members that follow the first one, with the closing brace. -/
def membersAt (l : Layout) (depth : Nat) : List (String × Json) → String
  | [] => l.gap depth ++ "\x7d"
  | (name, v) :: ms =>
    "," ++ l.gap (depth + 1) ++ quote name ++ l.colon ++ textAt l (depth + 1) v ++
      membersAt l depth ms

end

/-- The text of a value without blanks. -/
def compact (v : Json) : String := textAt .compact 0 v

/-- The text of a value over several lines. -/
def indented (v : Json) : String := textAt .indented 0 v

end Json
end IndexPlanner
