import IndexPlanner.Proofs.IndexDefinition.Defining

/-!
# Key patterns encode definitions

The keys of an index are written as a document, and definitions are read from documents, or from
texts in which such a document stands beside a name.  This file shows that the ways back and
forth are inverse to each other.

## Documents

* `ofKeyPattern_eq_ok_iff_keyPattern_eq`: a document makes the definition of which it is the key
  pattern, and no other one.  So nothing is lost on either way, and the order of the members is
  the order of the keys.
* `exists_ofKeyPattern_eq_ok_iff`: the documents that make definitions, in terms of their
  members.
* `ofKeyPattern_eq_error_iff`: what is wrong with all others.  `PatternFault` has one
  constructor for each error, and its hypotheses say in which order faults are looked for.  A
  field that is listed twice is not among them, because the names of members are distinct.

## Texts

* `take_recordOf_object` and `exists_take_recordOf_eq_error`: the reader of records takes a name
  and a document for what they make, and refuses documents that are no objects.
* `parse_eq_ok_iff_ofKeyPattern_eq_ok`: so both readers accept the same.
* `readsAs_take` and `parse_textAt_toJson`: what is written of a definition is read back, in
  either layout.
-/

namespace IndexPlanner
namespace IndexDefinition

open Json

variable {name : String} {keys : List Key} {v : Json} {d : IndexDefinition}
  {e : DefinitionError} {depth : Nat} {rest : List Token}

/-! ## Which documents make definitions -/

/-- A document makes the definition of which it is the key pattern. -/
theorem ofKeyPattern_eq_ok_iff_keyPattern_eq :
    ofKeyPattern name v = .ok d ↔ d.name = name ∧ d.keyPattern = v := by
  rw [ofKeyPattern_eq_ok_iff]
  constructor
  · rintro ⟨keys, rfl, hd⟩
    obtain ⟨hname, hkeys⟩ := define_eq_ok_iff.1 hd
    exact ⟨hname, by rw [keyPattern, hkeys]⟩
  · rintro ⟨hname, rfl⟩
    exact ⟨d.keys, rfl, define_eq_ok_iff.2 ⟨hname, rfl⟩⟩

/-- The pattern of keys makes what is defined by the keys. -/
theorem ofKeyPattern_pattern : ofKeyPattern name (Key.pattern keys) = define name keys := by
  rw [Key.pattern, ofKeyPattern, ofMembers, Key.ofMembers_map_toMember]

/-- The members of a key pattern are the keys in their order. -/
theorem names_pattern : (Key.pattern keys).names = keys.map (·.field) := by
  rw [Key.pattern, names, members_object, List.map_map]
  rfl

theorem values_pattern : (Key.pattern keys).members.map (·.2) =
    keys.map fun k => .ofInt k.direction.keyValue := by
  rw [Key.pattern, members_object, List.map_map]
  rfl

theorem nodup_fields (hdistinct : (Key.pattern keys).NamesDistinct) :
    (keys.map (·.field)).Nodup :=
  names_pattern ▸ hdistinct.nodup_names

/-- The documents that make definitions. -/
theorem exists_ofKeyPattern_eq_ok_iff (hdistinct : v.NamesDistinct) :
    (∃ d, ofKeyPattern name v = .ok d) ↔ name ≠ "" ∧ ∃ ms, v = .object ms ∧
      ∀ m ∈ ms, m.1 ≠ "" ∧ (m.2 = .ofInt 1 ∨ m.2 = .ofInt (-1)) := by
  constructor
  · rintro ⟨d, hpattern⟩
    obtain ⟨keys, rfl, hd⟩ := ofKeyPattern_eq_ok_iff.1 hpattern
    obtain ⟨hname, hkeys, -⟩ := of_define_eq_ok hd
    refine ⟨hname, keys.map Key.toMember, rfl, fun m hm => ?_⟩
    obtain ⟨k, hk, rfl⟩ := List.mem_map.1 hm
    exact ⟨hkeys.named k hk, Key.exists_toMember_iff.1 ⟨k, rfl⟩⟩
  · rintro ⟨hname, ms, rfl, hms⟩
    obtain ⟨keys, rfl⟩ := Key.exists_map_toMember_iff.2 fun m hm => (hms m hm).2
    have hsound : SoundKeys keys :=
      ⟨fun k hk => (hms k.toMember (List.mem_map_of_mem hk)).1, nodup_fields hdistinct⟩
    obtain ⟨d, hd⟩ := exists_define_eq_ok_iff.2 ⟨hname, hsound⟩
    exact ⟨d, ofKeyPattern_eq_ok_iff.2 ⟨keys, rfl, hd⟩⟩

/-- If no field is listed twice, a definition fails for its name or for a field without one. -/
theorem define_eq_error_iff_of_distinct (hdistinct : (keys.map (·.field)).Nodup) :
    define name keys = .error e ↔ name = "" ∧ e = .emptyName ∨
      name ≠ "" ∧ (∃ k ∈ keys, k.field = "") ∧ e = .emptyFieldName name := by
  have hforward : ∀ {e}, define name keys = .error e → name = "" ∧ e = .emptyName ∨
      name ≠ "" ∧ (∃ k ∈ keys, k.field = "") ∧ e = .emptyFieldName name := by
    intro e h
    rcases define_eq_error_iff.1 h with hname | ⟨hname, rfl, -, hfield | ⟨-, hrepeated⟩⟩
    · exact .inl ⟨hname, rfl⟩
    · next k => exact .inr ⟨hname, ⟨k, by simp, hfield⟩, rfl⟩
    · next before rest k =>
      rw [List.map_append, List.map_cons, List.nodup_append] at hdistinct
      exact absurd rfl (hdistinct.2.2 k.field hrepeated k.field List.mem_cons_self)
  refine ⟨hforward, ?_⟩
  rintro (⟨hname, rfl⟩ | ⟨hname, ⟨k, hk, hfield⟩, rfl⟩)
  · exact define_eq_error_iff.2 (.name hname)
  · cases hd : define name keys with
    | ok d => exact absurd hfield ((of_define_eq_ok hd).2.1.named k hk)
    | error e =>
      rcases hforward hd with ⟨hempty, -⟩ | ⟨-, -, rfl⟩
      · exact absurd hempty hname
      · rfl

/-- What is wrong with a name and a document. -/
inductive PatternFault (name : String) (v : Json) : DefinitionError → Prop where
  | notObject (hv : ∀ ms, v ≠ .object ms) : PatternFault name v .patternNotObject
  /-- The first value that is no direction. -/
  | direction {before rest : List (String × Json)} {m : String × Json}
      (hv : v = .object (before ++ m :: rest))
      (hbefore : ∀ b ∈ before, b.2 = .ofInt 1 ∨ b.2 = .ofInt (-1))
      (hm : ¬ (m.2 = .ofInt 1 ∨ m.2 = .ofInt (-1))) : PatternFault name v (.invalidDirection m.1)
  /-- All values are directions, but the index has no name. -/
  | name {ms : List (String × Json)} (hv : v = .object ms)
      (hms : ∀ m ∈ ms, m.2 = .ofInt 1 ∨ m.2 = .ofInt (-1)) (hname : name = "") :
      PatternFault name v .emptyName
  /-- All values are directions and the index has a name, but a field has none. -/
  | field {ms : List (String × Json)} (hv : v = .object ms)
      (hms : ∀ m ∈ ms, m.2 = .ofInt 1 ∨ m.2 = .ofInt (-1)) (hname : name ≠ "")
      (hfield : ∃ m ∈ ms, m.1 = "") : PatternFault name v (.emptyFieldName name)

theorem exists_field_iff :
    (∃ k ∈ keys, k.field = "") ↔ ∃ m ∈ keys.map Key.toMember, m.1 = "" := by
  constructor
  · rintro ⟨k, hk, hfield⟩
    exact ⟨k.toMember, List.mem_map_of_mem hk, hfield⟩
  · rintro ⟨m, hm, hname⟩
    obtain ⟨k, hk, rfl⟩ := List.mem_map.1 hm
    exact ⟨k, hk, hname⟩

/-- A document is refused for its fault. -/
theorem ofKeyPattern_eq_error_iff (hdistinct : v.NamesDistinct) :
    ofKeyPattern name v = .error e ↔ PatternFault name v e := by
  constructor
  · intro h
    cases v with
    | object ms =>
      rw [ofKeyPattern, ofMembers] at h
      cases hms : Key.ofMembers ms with
      | error f =>
        rw [hms] at h
        obtain rfl := Except.error.inj h
        obtain ⟨before, m, rest, rfl, hbefore, hm, rfl⟩ := Key.ofMembers_eq_error_iff.1 hms
        exact .direction rfl hbefore hm
      | ok keys =>
        rw [hms] at h
        obtain rfl := Key.ofMembers_eq_ok_iff.1 hms
        have hdirections := Key.exists_map_toMember_iff.1 ⟨keys, rfl⟩
        rcases (define_eq_error_iff_of_distinct (nodup_fields hdistinct)).1 h with
          ⟨hname, rfl⟩ | ⟨hname, hfield, rfl⟩
        · exact .name rfl hdirections hname
        · exact .field rfl hdirections hname (exists_field_iff.1 hfield)
    | _ =>
      obtain rfl := Except.error.inj h
      refine .notObject fun ms hv => ?_
      cases hv
  · intro h
    cases h with
    | notObject hv =>
      cases v with
      | object ms => exact absurd rfl (hv ms)
      | _ => rfl
    | direction hv hbefore hm =>
      subst hv
      rw [ofKeyPattern, ofMembers, Key.ofMembers_eq_error_iff.2 ⟨_, _, _, rfl, hbefore, hm, rfl⟩]
    | name hv hms hname =>
      obtain ⟨keys, rfl⟩ := Key.exists_map_toMember_iff.2 hms
      subst hv
      exact ofKeyPattern_pattern.trans (define_eq_error_iff.2 (.name hname))
    | field hv hms hname hfield =>
      obtain ⟨keys, rfl⟩ := Key.exists_map_toMember_iff.2 hms
      subst hv
      rw [← Key.pattern, ofKeyPattern_pattern,
        define_eq_error_iff_of_distinct (nodup_fields hdistinct)]
      exact .inr ⟨hname, exists_field_iff.2 hfield, rfl⟩

/-! ## Reading records -/

/-- A name and a document as the record of a definition. -/
def recordOf (name : String) (v : Json) : Json := .object [("name", .string name), ("key", v)]

/-- The record of a name and the members of an object is read as what these make. -/
theorem take_recordOf_object {ms : List (String × Json)} (hdistinct : (object ms).NamesDistinct)
    (hnested : (object ms).NestedWithin (depth + 1)) :
    take (depth + 2) ((recordOf name (.object ms)).tokenList ++ rest) =
      ((ofMembers name ms).mapError fun e => ReadError.refused e.message).map (·, rest) := by
  have habsorbs : record.Absorbs (depth + 1) record.start
      [("name", .string name), ("key", .object ms)] ⟨some name, some ms⟩ := by
    refine .cons _ rfl rfl (Member.readsAs_of readsAs_takeString) ?_
    refine .cons _ rfl rfl (Member.readsAs_of ?_) (.nil _)
    exact readsAs_takeMembers hdistinct hnested
  have hrecord := Record.readsAs_take habsorbs rfl rest
  rw [take, recordOf, hrecord]
  cases hms : ofMembers name ms <;> simp only [hms] <;> rfl

/-- A record with anything else as its key is refused. -/
theorem exists_take_recordOf_eq_error (hv : ∀ ms, v ≠ .object ms) :
    ∃ e, take (depth + 2) ((recordOf name v).tokenList ++ rest) = .error e := by
  have hkey : ∃ e, takeMembers (depth + 1) (v.tokenList ++ .closeBrace :: rest) = .error e := by
    cases v with
    | object ms => exact absurd rfl (hv ms)
    | array items => cases items <;> exact ⟨_, rfl⟩
    | _ => exact ⟨_, rfl⟩
  obtain ⟨e, he⟩ := hkey
  refine ⟨e, ?_⟩
  simp [take, recordOf, tokenList, memberTokens, Record.take, Record.takeObject, nextName,
    Record.takeMember, Record.member?, record, Member.of, takeString, he]

/-- The reader of a text and that of a document accept the same. -/
theorem parse_eq_ok_iff_ofKeyPattern_eq_ok {text : String} (hdistinct : v.NamesDistinct)
    (hnested : v.NestedWithin (nestingLimit - 1))
    (htext : tokens text.toList = (recordOf name v).tokenList) :
    parse text = .ok d ↔ ofKeyPattern name v = .ok d := by
  have hread : parse text = .ok d ↔
      take (125 + 2) ((recordOf name v).tokenList ++ []) = .ok (d, []) := by
    rw [List.append_nil, ← htext]
    constructor
    · exact take_of_readText_eq_ok
    · intro h
      rw [parse, readText]
      simp only [nestingLimit, h]
  rw [hread]
  by_cases hv : ∃ ms, v = .object ms
  · obtain ⟨ms, rfl⟩ := hv
    rw [take_recordOf_object hdistinct hnested, ofKeyPattern]
    cases ofMembers name ms with
    | error e =>
      show Except.error _ = Except.ok (d, []) ↔ Except.error _ = Except.ok d
      simp
    | ok d' =>
      show Except.ok (d', []) = Except.ok (d, []) ↔ Except.ok d' = Except.ok d
      simp
  · have hrefused : ∃ e, take (125 + 2) ((recordOf name v).tokenList ++ []) = .error e :=
      exists_take_recordOf_eq_error fun ms hms => hv ⟨ms, hms⟩
    obtain ⟨e, he⟩ := hrefused
    rw [he]
    simp only [reduceCtorEq, false_iff]
    intro hd
    obtain ⟨keys, rfl, -⟩ := ofKeyPattern_eq_ok_iff.1 hd
    exact hv ⟨_, rfl⟩

/-! ## Writing and reading -/

theorem exact_keyPattern (d : IndexDefinition) : d.keyPattern.Exact := by
  have hvalue (d : Direction) : Token.IsWord d.keyValue := by
    cases d <;> decide
  refine .object fun m hm => ?_
  obtain ⟨k, -, rfl⟩ := List.mem_map.1 hm
  exact .integer (hvalue k.direction)

/-- No field of an index is named twice, so all its keys are read. -/
theorem namesDistinct_keyPattern (d : IndexDefinition) : d.keyPattern.NamesDistinct := by
  refine namesDistinct_object_iff.2 ⟨?_, fun m hm => ?_⟩
  · rw [List.map_map]
    exact d.nodup
  · obtain ⟨k, -, rfl⟩ := List.mem_map.1 hm
    exact .number _

theorem nestedWithin_keyPattern (d : IndexDefinition) : d.keyPattern.NestedWithin (depth + 1) := by
  refine .object fun m hm => ?_
  obtain ⟨k, -, rfl⟩ := List.mem_map.1 hm
  exact .number _ _

theorem exact_toJson (d : IndexDefinition) : d.toJson.Exact := by
  refine .object ?_
  rw [List.forall_mem_cons, List.forall_mem_singleton]
  exact ⟨.string d.name, d.exact_keyPattern⟩

/-- A definition is read back from its record. -/
theorem readsAs_take (d : IndexDefinition) : ReadsAs take (depth + 2) d.toJson d := by
  intro rest
  have hmembers : ofMembers d.name (d.keys.map Key.toMember) = .ok d :=
    ofMembers_eq_ok_iff.2 ⟨d.keys, rfl, define_eq_ok_iff.2 ⟨rfl, rfl⟩⟩
  show take (depth + 2)
    ((recordOf d.name (.object (d.keys.map Key.toMember))).tokenList ++ rest) = _
  rw [take_recordOf_object d.namesDistinct_keyPattern d.nestedWithin_keyPattern, hmembers]
  rfl

/-- A definition is read back from its text, on one line or over several ones. -/
theorem parse_textAt_toJson (l : Layout) (d : IndexDefinition) :
    parse (textAt l 0 d.toJson) = .ok d :=
  readText_of_readsAs d.readsAs_take (tokens_document d.exact_toJson)

/-- **Key patterns encode definitions.**  A name and a document, in which no name comes twice,
make a definition iff the name is not empty and the document is an object of members with names
and with the numbers for directions as values.  The definition has the members as its keys, in
their order, and the document is its key pattern.  Every other document is refused: for the
first value that is no direction, else for the name, else for a member without a name, and never
because a field is listed twice.  A text that has the document beside the name is read as the
same definition.  The other way round, a definition is made again of its name and its key
pattern, and it is read back, checksum and all, from its texts. -/
theorem keyPatterns_encode_definitions {v : Json} (hdistinct : v.NamesDistinct) (name : String) :
    ((∃ d, ofKeyPattern name v = .ok d) ↔ name ≠ "" ∧ ∃ ms, v = .object ms ∧
      ∀ m ∈ ms, m.1 ≠ "" ∧ (m.2 = .ofInt 1 ∨ m.2 = .ofInt (-1))) ∧
    (∀ d, ofKeyPattern name v = .ok d ↔ d.name = name ∧ d.keyPattern = v) ∧
    (∀ d, ofKeyPattern name v = .ok d → d.keys.map (·.field) = v.names ∧
      (d.keys.map fun k => Json.ofInt k.direction.keyValue) = v.members.map (·.2)) ∧
    (∀ e, ofKeyPattern name v = .error e ↔ PatternFault name v e) ∧
    (∀ index field, ofKeyPattern name v ≠ .error (.duplicateField index field)) ∧
    (v.NestedWithin (nestingLimit - 1) →
      ∀ text, tokens text.toList = (recordOf name v).tokenList →
        ∀ d, parse text = .ok d ↔ ofKeyPattern name v = .ok d) ∧
    ∀ d : IndexDefinition, ofKeyPattern d.name d.keyPattern = .ok d ∧
      parse d.toJson.compact = .ok d ∧ parse d.toJson.indented = .ok d := by
  refine ⟨exists_ofKeyPattern_eq_ok_iff hdistinct, fun d => ofKeyPattern_eq_ok_iff_keyPattern_eq,
    fun d hd => ?_, fun e => ofKeyPattern_eq_error_iff hdistinct, fun index field h => ?_,
    fun hnested text htext d => parse_eq_ok_iff_ofKeyPattern_eq_ok hdistinct hnested htext,
    fun d => ⟨ofKeyPattern_eq_ok_iff_keyPattern_eq.2 ⟨rfl, rfl⟩, d.parse_textAt_toJson .compact,
      d.parse_textAt_toJson .indented⟩⟩
  · obtain ⟨-, rfl⟩ := ofKeyPattern_eq_ok_iff_keyPattern_eq.1 hd
    exact ⟨names_pattern.symm, values_pattern.symm⟩
  · nomatch (ofKeyPattern_eq_error_iff hdistinct).1 h

/-- A key pattern on fields that look like an operator, a mark and an escape. -/
def trickyPattern : Json :=
  .object [("$x", .ofInt 1), (",", .ofInt (-1)), ("\\u0041\n", .ofInt 1)]

theorem keyPatterns_encode_definitions_trickyPattern :
    trickyPattern.NamesDistinct ∧ trickyPattern.NestedWithin (nestingLimit - 1) ∧
      ∃ d, ofKeyPattern "$x_1" trickyPattern = .ok d ∧ d.keyPattern = trickyPattern ∧
        d.keys.map (·.field) = ["$x", ",", "\\u0041\n"] ∧
        parse (recordOf "$x_1" trickyPattern).compact = .ok d := by
  have hdistinct : trickyPattern.NamesDistinct :=
    .object (by decide) (by simp [ofInt])
  have hnested : trickyPattern.NestedWithin (nestingLimit - 1) :=
    .object (by simp [ofInt, NestedWithin.number])
  have hexact : (recordOf "$x_1" trickyPattern).Exact := by
    refine .object ?_
    rw [List.forall_mem_cons, List.forall_mem_singleton]
    refine ⟨.string _, .object ?_⟩
    rw [List.forall_mem_cons, List.forall_mem_cons, List.forall_mem_singleton]
    exact ⟨.integer (by decide), .integer (by decide), .integer (by decide)⟩
  obtain ⟨hexists, hinverse, hkeys, -, -, hparse, -⟩ :=
    keyPatterns_encode_definitions hdistinct "$x_1"
  obtain ⟨d, hd⟩ := hexists.2 ⟨by decide, _, rfl, by simp⟩
  exact ⟨hdistinct, hnested, d, hd, ((hinverse d).1 hd).2, (hkeys d hd).1,
    (hparse hnested _ (tokens_document hexact) d).2 hd⟩

/-- A value that is no direction is found before an empty name. -/
example : ofKeyPattern "" (.object [("", .ofInt 2)]) = .error (.invalidDirection "") := rfl

end IndexDefinition
end IndexPlanner
