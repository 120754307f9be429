/-!
# Keys: a field name with a direction

Both an index and a sort are lists of *keys*.  A key names a field by its dot path
and says in which direction the field is ordered.  Key patterns write the two
directions as the numbers `1` and `-1`, and no other number is a direction.

* `Direction.ofKeyValue?` reads such a number, and `Direction.ofKeyValue?_eq_some_iff`
  says that it reads exactly what `Direction.keyValue` writes;
* `Key.text` is the short form `name:1` of one key;
* `Key.reversed` turns a key round, and doing so twice changes nothing.
-/

namespace IndexPlanner

/-- The order in which the values of a field follow one another. -/
inductive Direction where
  | asc
  | desc
  deriving DecidableEq, Repr, Inhabited

namespace Direction

/-- The word for a direction in documents. -/
def name : Direction → String
  | asc => "asc"
  | desc => "desc"

/-- The number for a direction in key patterns. -/
def keyValue : Direction → Int
  | asc => 1
  | desc => -1

/-- The text of the number for a direction. -/
def keyText : Direction → String
  | asc => "1"
  | desc => "-1"

/-- The direction that a key pattern's number stands for, if it stands for one. -/
def ofKeyValue? (n : Int) : Option Direction :=
  if n = 1 then some asc else if n = -1 then some desc else none

/-- The direction that a document's word stands for, if it stands for one. -/
def ofName? (word : String) : Option Direction :=
  if word = "asc" then some asc else if word = "desc" then some desc else none

/-- The opposite direction. -/
def reversed : Direction → Direction
  | asc => desc
  | desc => asc

theorem ofKeyValue?_eq_some_iff {n : Int} {d : Direction} :
    ofKeyValue? n = some d ↔ n = d.keyValue := by
  unfold ofKeyValue?
  cases d <;> split <;> simp_all [keyValue]

@[simp] theorem ofKeyValue?_keyValue (d : Direction) : ofKeyValue? d.keyValue = some d :=
  ofKeyValue?_eq_some_iff.2 rfl

@[simp] theorem reversed_reversed (d : Direction) : d.reversed.reversed = d := by
  cases d <;> rfl

theorem reversed_ne (d : Direction) : d.reversed ≠ d := by
  cases d <;> simp [reversed]

end Direction

/-- A field, named by its dot path, with the direction in which it is ordered. -/
structure Key where
  field : String
  direction : Direction
  deriving DecidableEq, Repr, Inhabited

namespace Key

/-- An ascending key. -/
def asc (field : String) : Key := ⟨field, .asc⟩

/-- The short form of a key: its field, a colon and the number for its direction. -/
def text (k : Key) : String := k.field ++ ":" ++ k.direction.keyText

/-- The same field in the opposite direction. -/
def reversed (k : Key) : Key := ⟨k.field, k.direction.reversed⟩

@[simp] theorem field_asc (f : String) : (asc f).field = f := rfl

@[simp] theorem field_reversed (k : Key) : k.reversed.field = k.field := rfl

@[simp] theorem reversed_reversed (k : Key) : k.reversed.reversed = k := by
  cases k; simp [reversed]

end Key

end IndexPlanner
