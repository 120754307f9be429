import IndexPlanner.Json.Token

/-!
# Reading JSON values

The tokens of a text are read one by one by a machine whose state is what may come next
and the stack of brackets that are still open.  Each token either completes the value,
moves the machine on, or is refused; the recursion is on the tokens and nothing else.

The machine reads in one of two moods.  A *strict* reader asks for the content of every
string and number and lets brackets nest to a given depth.  A *lenient* reader only
passes over a value that nobody asked for: it wants brackets, commas and colons in their
places and nothing more.

* `Reader.step` is one move of the machine, `Reader.run` reads up to the end of a value;
* `Json.parse?` reads a whole text.
-/

namespace IndexPlanner
namespace Json

/-- How many brackets may be open at once. -/
def nestingLimit : Nat := 127

namespace Reader

/-- An open bracket with what has been read inside of it. -/
inductive Frame where
  /-- An array with its items, latest first. -/
  | array (items : List Json)
  /-- An object with its members and the name of the member that is being read. -/
  | object (members : List (String × Json)) (name : String)
  deriving Inhabited

/-- What may come next. -/
inductive Mode where
  /-- A value. -/
  | value
  /-- The first item of an array, or its end. -/
  | firstItem
  /-- The first name in an object, or its end. -/
  | firstName
  /-- A name in an object. -/
  | name
  /-- The colon after a name. -/
  | colon
  /-- A comma or the end of what is open. -/
  | more
  deriving DecidableEq, Inhabited

/-- The state of the machine. -/
structure State where
  mode : Mode
  /-- The open brackets, the innermost first. -/
  stack : List Frame

/-- What a token does. -/
inductive Move where
  | go (st : State)
  | done (v : Json)
  | refuse

/-- How much a reader asks for. -/
inductive Mood where
  /-- Contents must exist, and no more than `depth` brackets may be open. -/
  | strict (depth : Nat)
  | lenient

/-- Whether one more bracket may be opened. -/
def Mood.opens (mood : Mood) (stack : List Frame) : Bool :=
  match mood with
  | strict depth => stack.length < depth
  | lenient => true

/-- What takes the place of a content that does not exist, if anything may. -/
def Mood.content {α : Type} (mood : Mood) (content : Option α) (substitute : α) : Option α :=
  match mood with
  | strict _ => content
  | lenient => some (content.getD substitute)

/-- Hands a value to the innermost open bracket. -/
def deliver (v : Json) : List Frame → Move
  | [] => .done v
  | .array items :: stack => .go ⟨.more, .array (v :: items) :: stack⟩
  | .object members name :: stack =>
    .go ⟨.more, .object (putMember members name v) name :: stack⟩

/-- The move of a token that should be a value. -/
def stepValue (mood : Mood) (stack : List Frame) : Token → Move
  | .null => deliver .null stack
  | .bool b => deliver (.bool b) stack
  | .number n =>
    match mood.content n (.integer 0) with
    | some n => deliver (.number n) stack
    | none => .refuse
  | .string s =>
    match mood.content s "" with
    | some s => deliver (.string s) stack
    | none => .refuse
  | .openBracket =>
    if mood.opens stack then .go ⟨.firstItem, .array [] :: stack⟩ else .refuse
  | .openBrace =>
    if mood.opens stack then .go ⟨.firstName, .object [] "" :: stack⟩ else .refuse
  | _ => .refuse

/-- The move of a token that should be the name of a member. -/
def stepName (mood : Mood) (stack : List Frame) : Token → Move
  | .string s =>
    match mood.content s "", stack with
    | some s, .object members _ :: stack => .go ⟨.colon, .object members s :: stack⟩
    | _, _ => .refuse
  | _ => .refuse

/-- The move of a token that should close the innermost bracket. -/
def stepClose (stack : List Frame) (t : Token) : Move :=
  match t, stack with
  | .closeBracket, .array items :: stack => deliver (.array items.reverse) stack
  | .closeBrace, .object members _ :: stack => deliver (.object members) stack
  | _, _ => .refuse

/-- The move of a token. -/
def step (mood : Mood) (st : State) (t : Token) : Move :=
  match st.mode with
  | .value => stepValue mood st.stack t
  | .firstItem =>
    match t with
    | .closeBracket => stepClose st.stack t
    | _ => stepValue mood st.stack t
  | .firstName =>
    match t with
    | .closeBrace => stepClose st.stack t
    | _ => stepName mood st.stack t
  | .name => stepName mood st.stack t
  | .colon =>
    match t with
    | .colon => .go ⟨.value, st.stack⟩
    | _ => .refuse
  | .more =>
    match t, st.stack with
    | .comma, .array _ :: _ => .go ⟨.value, st.stack⟩
    | .comma, .object _ _ :: _ => .go ⟨.name, st.stack⟩
    | _, _ => stepClose st.stack t

/-- Reads up to the end of a value, and gives what follows it. -/
def run (mood : Mood) (st : State) : List Token → Option (Json × List Token)
  | [] => none
  | t :: ts =>
    match step mood st t with
    | .go st => run mood st ts
    | .done v => some (v, ts)
    | .refuse => none

/-- Reads one value. -/
def read (mood : Mood) (ts : List Token) : Option (Json × List Token) :=
  run mood ⟨.value, []⟩ ts

end Reader

/-- Reads a text that is one value and nothing else. -/
def parse? (text : String) : Option Json :=
  match Reader.read (.strict nestingLimit) (tokens text.toList) with
  | some (v, []) => some v
  | _ => none

end Json
end IndexPlanner
