/-!
# JSON values

Query documents, key patterns, catalog files and log lines are JSON.  The order of the
members of an object matters here, because it is the order of the keys of an index or of
a sort, so an object is a list of members and not a map.

* `putMember` gives a name a value: a name that is there keeps its place and takes the
  new value, a new name goes to the end.  This is how texts with repeated names are read
  and how log lines are put together.
-/

namespace IndexPlanner

/-- A JSON number.  Numbers written as integers within 64 bits stay exact, all others are
doubles; only the former can be directions or counts. -/
inductive JsonNumber where
  | integer (n : Int)
  | real (x : Float)
  deriving Inhabited

/-- A JSON value, with the members of an object in document order. -/
inductive Json where
  | null
  | bool (b : Bool)
  | number (n : JsonNumber)
  | string (s : String)
  | array (items : List Json)
  | object (members : List (String × Json))
  deriving Inhabited

/-- Gives the name `name` the value `v` in a list of members. -/
def putMember {α : Type} (members : List (String × α)) (name : String) (v : α) :
    List (String × α) :=
  match members with
  | [] => [(name, v)]
  | (n, w) :: rest =>
    if n = name then (n, v) :: rest else (n, w) :: putMember rest name v

/-- The value of the first member with a name. -/
def member? {α : Type} (members : List (String × α)) (name : String) : Option α :=
  (members.find? (·.1 = name)).map (·.2)

theorem putMember_of_notMem {α : Type} {members : List (String × α)} {name : String}
    (v : α) (h : name ∉ members.map (·.1)) :
    putMember members name v = members ++ [(name, v)] := by
  induction members with
  | nil => rfl
  | cons m ms ih =>
    obtain ⟨n, w⟩ := m
    simp only [List.map_cons, List.mem_cons, not_or] at h
    rw [putMember, if_neg (Ne.symm h.1), ih h.2, List.cons_append]

namespace Json

/-- The integer of a value that is a number written as an integer. -/
def integer? : Json → Option Int
  | number (.integer n) => some n
  | _ => none

/-- The member of an object with a name. -/
def get? : Json → String → Option Json
  | object members, name => member? members name
  | _, _ => none

/-- An integer as a JSON value. -/
def ofInt (n : Int) : Json := number (.integer n)

/-- A natural number as a JSON value. -/
def ofNat (n : Nat) : Json := ofInt n

theorem integer?_eq_some_iff {v : Json} {n : Int} : v.integer? = some n ↔ v = ofInt n := by
  unfold integer?
  split
  · simp [ofInt]
  · next hne => simpa [ofInt] using hne n

/-- The name of the type of a value, as messages about documents give it. -/
def typeName : Json → String
  | null => "null"
  | bool _ => "boolean"
  | number _ => "number"
  | string _ => "string"
  | array _ => "array"
  | object _ => "object"

end Json

end IndexPlanner
