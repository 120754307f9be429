import IndexPlanner.Checksum
import IndexPlanner.Key.Record

/-!
# Definitions of compound indexes

An index has a name and an ordered list of keys, on distinct fields that all have a name.
A definition has this in its type, with the checksum of its keys beside it, so a
definition once made need not be checked again.  A list without keys is a definition too;
it is the catalog that has no use for it.

* `IndexDefinition.define` makes a definition or says what is wrong, and
  `IndexDefinition.define_eq_ok_iff` says exactly when it does;
* `IndexDefinition.sameKey` compares the keys of two definitions, and
  `IndexDefinition.sameKey_iff` says that the checksums only make it faster;
* `IndexDefinition.ofKeyPattern` reads the keys from a document, and
  `IndexDefinition.keyPattern` writes them as one;
* `IndexDefinition.toJson` writes a definition as a record of its name and its key pattern.
  `IndexDefinition.take` reads one off the front of a text's tokens and
  `IndexDefinition.parse` reads a whole text; what is read is checked like any other
  definition, as soon as its record is complete.
-/

namespace IndexPlanner

/-- Why there is no such definition. -/
inductive DefinitionError where
  | emptyName
  | emptyFieldName (index : String)
  | duplicateField (index field : String)
  | patternNotObject
  /-- The value beside a field in a key pattern is not a direction. -/
  | invalidDirection (field : String)
  deriving DecidableEq, Repr

namespace DefinitionError

/-- The code of an error, which stays the same when its wording changes. -/
def code : DefinitionError → String
  | emptyName => "ESR_EMPTY_INDEX_NAME"
  | emptyFieldName _ => "ESR_EMPTY_FIELD_NAME"
  | duplicateField .. => "ESR_DUPLICATE_INDEX_FIELD"
  | patternNotObject => "ESR_INVALID_KEY_PATTERN"
  | invalidDirection _ => "ESR_INVALID_KEY_PATTERN"

/-- The wording of an error. -/
def message : DefinitionError → String
  | emptyName => "index name must not be empty"
  | emptyFieldName index => "index '" ++ index ++ "' has an empty field name"
  | duplicateField index field =>
    "index '" ++ index ++ "' lists field '" ++ field ++ "' more than once"
  | patternNotObject => "invalid key pattern: key pattern must be an object"
  | invalidDirection field =>
    "invalid key pattern: direction for '" ++ field ++ "' must be 1 or -1"

end DefinitionError

/-- An index: its name and its keys, with the checksum of the keys. -/
structure IndexDefinition where
  name : String
  keys : List Key
  named : name ≠ ""
  nodup : (keys.map (·.field)).Nodup
  fieldsNamed : ∀ k ∈ keys, k.field ≠ ""
  checksum : Checksum := Checksum.ofKeys keys
  checksum_eq : checksum = Checksum.ofKeys keys := by rfl
  deriving DecidableEq

namespace IndexDefinition

/-- The first fault in a list of keys: a field without name, or one that is in the list
before. -/
def firstFault? (index : String) (before : List Key) : List Key → Option DefinitionError
  | [] => none
  | k :: ks =>
    if k.field = "" then some (.emptyFieldName index)
    else if k.field ∈ before.map (·.field) then some (.duplicateField index k.field)
    else firstFault? index (before ++ [k]) ks

theorem firstFault?_eq_none_iff {index : String} {before ks : List Key} :
    firstFault? index before ks = none ↔
      (∀ k ∈ ks, k.field ≠ "" ∧ k.field ∉ before.map (·.field)) ∧
        (ks.map (·.field)).Nodup := by
  induction ks generalizing before with
  | nil => simp [firstFault?]
  | cons k ks ih =>
    rw [firstFault?]
    split
    · next h => simp [h]
    · next hname =>
      split
      · next h =>
        simp only [reduceCtorEq, false_iff, not_and]
        exact fun hall => absurd h (hall k List.mem_cons_self).2
      · next hnew =>
        rw [ih]
        simp only [List.map_append, List.map_cons, List.map_nil, List.mem_append,
          List.mem_cons, List.not_mem_nil, or_false, not_or, List.nodup_cons,
          forall_eq_or_imp]
        constructor
        · rintro ⟨hall, hnodup⟩
          refine ⟨⟨⟨hname, hnew⟩, fun k' hk' => ⟨(hall k' hk').1, (hall k' hk').2.1⟩⟩,
            fun hmem => ?_, hnodup⟩
          obtain ⟨k', hk', heq⟩ := List.mem_map.1 hmem
          exact (hall k' hk').2.2 heq
        · rintro ⟨⟨-, hall⟩, hk, hnodup⟩
          refine ⟨fun k' hk' => ⟨(hall k' hk').1, (hall k' hk').2, fun heq => hk ?_⟩, hnodup⟩
          exact List.mem_map.2 ⟨k', hk', heq⟩

/-- Makes a definition.  Of several faults the first is reported: the name of the index
first, then the keys in order. -/
def define (name : String) (keys : List Key) : Except DefinitionError IndexDefinition :=
  if hname : name = "" then .error .emptyName
  else
    match h : firstFault? name [] keys with
    | some e => .error e
    | none => .ok
        { name
          keys
          named := hname
          nodup := (firstFault?_eq_none_iff.1 h).2
          fieldsNamed := fun k hk => ((firstFault?_eq_none_iff.1 h).1 k hk).1 }

/-- The name that says which keys an index has: fields and directions, joined by low
lines. -/
def generatedName (keys : List Key) : String :=
  "_".intercalate (keys.map fun k => k.field ++ "_" ++ k.direction.keyText)

/-- Makes a definition that is named after its keys. -/
def defineGenerated (keys : List Key) : Except DefinitionError IndexDefinition :=
  define (generatedName keys) keys

/-- Makes a definition from the members of a key pattern.  A value that is not a direction
is reported before all other faults. -/
def ofMembers (name : String) (members : List (String × Json)) :
    Except DefinitionError IndexDefinition :=
  match Key.ofMembers members with
  | .error field => .error (.invalidDirection field)
  | .ok keys => define name keys

/-- Makes a definition from a key pattern. -/
def ofKeyPattern (name : String) : Json → Except DefinitionError IndexDefinition
  | .object members => ofMembers name members
  | _ => .error .patternNotObject

/-- Whether an index has no keys. -/
def isEmpty (d : IndexDefinition) : Bool := d.keys.isEmpty

/-- Whether two indexes have the same keys in the same order, whatever their names. -/
def sameKey (d e : IndexDefinition) : Bool :=
  d.checksum = e.checksum && d.keys = e.keys

/-- The keys of an index as a document. -/
def keyPattern (d : IndexDefinition) : Json := Key.pattern d.keys

/-- An index in one line: its name and its key pattern. -/
def text (d : IndexDefinition) : String := d.name ++ " " ++ d.keyPattern.compact

/-- An index as a document with its name and its key pattern. -/
def toJson (d : IndexDefinition) : Json :=
  .object [("name", .string d.name), ("key", d.keyPattern)]

theorem sameKey_iff {d e : IndexDefinition} : d.sameKey e = true ↔ d.keys = e.keys := by
  simp only [sameKey, Bool.and_eq_true, decide_eq_true_eq, and_iff_right_iff_imp]
  intro h
  rw [d.checksum_eq, e.checksum_eq, h]

/-- Name and keys determine a definition. -/
theorem eq_iff {d e : IndexDefinition} : d = e ↔ d.name = e.name ∧ d.keys = e.keys := by
  constructor
  · rintro rfl; exact ⟨rfl, rfl⟩
  · rintro ⟨hname, hkeys⟩
    cases d with
    | mk _ _ _ _ _ _ hd =>
      cases e with
      | mk _ _ _ _ _ _ he =>
        simp only at hname hkeys
        subst hname hkeys
        subst hd he
        rfl

/-- A definition is made iff its index and all its fields have names and no field is named
twice. -/
theorem define_eq_ok_iff {name : String} {keys : List Key} {d : IndexDefinition} :
    define name keys = .ok d ↔ d.name = name ∧ d.keys = keys := by
  constructor
  · intro h
    unfold define at h
    split at h
    · simp at h
    · split at h
      · simp at h
      · simp only [Except.ok.injEq] at h
        subst h
        exact ⟨rfl, rfl⟩
  · rintro ⟨rfl, rfl⟩
    have hfault : firstFault? d.name [] d.keys = none :=
      firstFault?_eq_none_iff.2 ⟨fun k hk => ⟨d.fieldsNamed k hk, by simp⟩, d.nodup⟩
    unfold define
    rw [dif_neg d.named]
    split
    · next h => rw [hfault] at h; simp at h
    · exact congrArg Except.ok (eq_iff.2 ⟨rfl, rfl⟩)

/-! ## Reading a definition -/

/-- A definition of which some members have been read. -/
structure Partial where
  name : Option String := none
  key : Option (List (String × Json)) := none

/-- How the record of a definition is read. -/
def record : Json.Record Partial (String × List (String × Json)) where
  name := "DefinitionRepr"
  members := [
    .of "name" (·.name) (fun s n => { s with name := some n })
      (Json.takeString "a string"),
    .of "key" (·.key) (fun s ms => { s with key := some ms }) Json.takeMembers]
  start := {}
  finish s :=
    match Json.required "name" s.name with
    | .error e => .error e
    | .ok name =>
      match Json.required "key" s.key with
      | .error e => .error e
      | .ok key => .ok (name, key)

/-- Reads a definition. -/
def take : Json.Taking IndexDefinition := fun depth ts =>
  match record.take depth ts with
  | .error e => .error e
  | .ok ((name, members), rest) =>
    match ofMembers name members with
    | .error e => .error (.refused e.message)
    | .ok d => .ok (d, rest)

/-- Reads the text of a definition. -/
def parse (text : String) : Except Json.ReadError IndexDefinition :=
  Json.readText take text

end IndexDefinition

end IndexPlanner
