import IndexPlanner.Catalog.File
import IndexPlanner.Proofs.Json.Records
import IndexPlanner.Recommendation

/-!
# How definitions come about

A definition is made of a name and keys, of keys alone, of a key pattern, of a text, of the text
of a catalog file, or as a recommendation.  All six ways end in the same check, which looks at
the name first and then at the keys in their order, and whose first complaint is the error.  So
whatever way a definition came about, its name and its fields have been looked at, and the
checksum beside its keys is theirs.

## The check

* `SoundKeys` says of keys that their fields have names and that no field is named twice;
* `exists_define_eq_ok_iff` says what the check lets pass, and `FirstFault` what it complains
  about, with `define_eq_error_iff`.  Both come from `firstFault?_append`: the keys that have
  passed are forgotten but for their names.

## The ways to a definition

`Obtained` lists them.  The reader of a file is a reader of records in records.  That all it
gives has passed the check is a fact about each item of its list, which
`CatalogFile.keeps_checked` carries through the members of the file.  `Obtained.checked` is what
all ways have in common.

## Comparing keys

Checksums do not tell keys apart: `ofKeys_colon_comma` has two lists of keys, for any two
fields, with the same checksum, because a colon or a comma in the name of a field is not told
from one between two keys.  They are compared first and the keys themselves after that, so
`sameKey_iff` does not depend on it.
-/

namespace IndexPlanner

/-! ## Checksums -/

/-- A field whose name looks like an ascending key, a comma and the name of another field has
the checksum of these two keys. -/
theorem Checksum.ofKeys_colon_comma (f g : String) (d : Direction) :
    Checksum.ofKeys [⟨f ++ ":1," ++ g, d⟩] = Checksum.ofKeys [Key.asc f, ⟨g, d⟩] := by
  have htext : (⟨f ++ ":1," ++ g, d⟩ : Key).text =
      (Key.asc f).text ++ "," ++ (⟨g, d⟩ : Key).text := by
    show f ++ ":1," ++ g ++ ":" ++ d.keyText = f ++ ":" ++ "1" ++ "," ++ (g ++ ":" ++ d.keyText)
    simp [String.ext_iff]
  rw [ofKeys, ofKeys, feedKeys_eq_feed, feedKeys_eq_feed, List.map_cons, List.map_cons,
    List.map_cons, List.map_nil, String.intercalate_cons_cons, String.intercalate_singleton,
    String.intercalate_singleton, htext]

namespace IndexDefinition

variable {name index : String} {before keys ks : List Key} {k : Key} {d : IndexDefinition}
  {e : DefinitionError}

/-! ## The check -/

/-- All fields have names, and no field is named twice. -/
structure SoundKeys (keys : List Key) : Prop where
  named : ∀ k ∈ keys, k.field ≠ ""
  distinct : (keys.map (·.field)).Nodup

/-- What comes after sound keys is looked at with these in mind. -/
theorem firstFault?_append :
    firstFault? index before (keys ++ ks) =
      (firstFault? index before keys).or (firstFault? index (before ++ keys) ks) := by
  induction keys generalizing before with
  | nil => simp [firstFault?]
  | cons k keys ih =>
    rw [List.cons_append, firstFault?, firstFault?]
    split
    · rfl
    · split
      · rfl
      · rw [ih, List.append_assoc, List.singleton_append]

theorem firstFault?_nil_eq_none_iff : firstFault? index [] keys = none ↔ SoundKeys keys := by
  rw [firstFault?_eq_none_iff]
  constructor
  · rintro ⟨hkeys, hdistinct⟩
    exact ⟨fun k hk => (hkeys k hk).1, hdistinct⟩
  · intro h
    exact ⟨fun k hk => ⟨h.named k hk, List.not_mem_nil⟩, h.distinct⟩

/-- The complaint about one key, after keys that have passed. -/
inductive KeyFault (index : String) (before : List Key) (k : Key) : DefinitionError → Prop where
  | unnamed (hfield : k.field = "") : KeyFault index before k (.emptyFieldName index)
  | repeated (hfield : k.field ≠ "") (hbefore : k.field ∈ before.map (·.field)) :
      KeyFault index before k (.duplicateField index k.field)

/-- The first complaint is about a key after keys that have passed. -/
theorem exists_of_firstFault?_eq_some (h : firstFault? index before keys = some e) :
    ∃ passed k rest, keys = passed ++ k :: rest ∧ firstFault? index before passed = none ∧
      KeyFault index (before ++ passed) k e := by
  induction keys generalizing before with
  | nil => simp [firstFault?] at h
  | cons k keys ih =>
    rw [firstFault?] at h
    split at h
    · next hfield =>
      obtain rfl := Option.some.inj h
      exact ⟨[], k, keys, rfl, rfl, .unnamed hfield⟩
    · next hfield =>
      split at h
      · next hbefore =>
        obtain rfl := Option.some.inj h
        refine ⟨[], k, keys, rfl, rfl, ?_⟩
        rw [List.append_nil]
        exact .repeated hfield hbefore
      · next hnew =>
        obtain ⟨passed, k', rest, rfl, hpassed, hfault⟩ := ih h
        refine ⟨k :: passed, k', rest, rfl, ?_, ?_⟩
        · rw [firstFault?, if_neg hfield, if_neg hnew, hpassed]
        · rw [List.append_cons]
          exact hfault

/-- A complaint about one key is made, whatever follows the key. -/
theorem KeyFault.firstFault?_cons (h : KeyFault index before k e) :
    firstFault? index before (k :: ks) = some e := by
  cases h with
  | unnamed hfield => rw [firstFault?, if_pos hfield]
  | repeated hfield hbefore => rw [firstFault?, if_neg hfield, if_pos hbefore]

/-- The first complaint about a name and keys. -/
inductive FirstFault (name : String) (keys : List Key) : DefinitionError → Prop where
  | name (hname : name = "") : FirstFault name keys .emptyName
  | key {before rest : List Key} {k : Key} {e : DefinitionError} (hname : name ≠ "")
      (hkeys : keys = before ++ k :: rest) (hbefore : SoundKeys before)
      (hk : KeyFault name before k e) : FirstFault name keys e

/-- What is made of a name and keys has them, with the checksum of the keys, and both have
passed. -/
theorem of_define_eq_ok (h : define name keys = .ok d) :
    name ≠ "" ∧ SoundKeys keys ∧ d.name = name ∧ d.keys = keys ∧
      d.checksum = Checksum.ofKeys keys := by
  unfold define at h
  split at h
  · simp at h
  · next hname =>
    split at h
    · simp at h
    · next hfault =>
      obtain rfl := Except.ok.inj h
      exact ⟨hname, firstFault?_nil_eq_none_iff.1 hfault, rfl, rfl, rfl⟩

/-- The check lets exactly the names pass that are not empty, with sound keys. -/
theorem exists_define_eq_ok_iff : (∃ d, define name keys = .ok d) ↔ name ≠ "" ∧ SoundKeys keys := by
  constructor
  · rintro ⟨d, hd⟩
    obtain ⟨hname, hkeys, -⟩ := of_define_eq_ok hd
    exact ⟨hname, hkeys⟩
  · rintro ⟨hname, hkeys⟩
    unfold define
    rw [dif_neg hname]
    split
    · next e he =>
      rw [firstFault?_nil_eq_none_iff.2 hkeys] at he
      simp at he
    · exact ⟨_, rfl⟩

/-- What does not pass is refused for its first fault. -/
theorem define_eq_error_iff : define name keys = .error e ↔ FirstFault name keys e := by
  constructor
  · intro h
    unfold define at h
    split at h
    · next hname =>
      obtain rfl := Except.error.inj h
      exact .name hname
    · next hname =>
      split at h
      · next e' he' =>
        obtain rfl := Except.error.inj h
        obtain ⟨passed, k, rest, hkeys, hpassed, hfault⟩ := exists_of_firstFault?_eq_some he'
        exact .key hname hkeys (firstFault?_nil_eq_none_iff.1 hpassed) hfault
      · simp at h
  · rintro (hname | ⟨hname, rfl, hbefore, hk⟩)
    · rw [define, dif_pos hname]
    · next before rest k =>
      have hfault : firstFault? name [] (before ++ k :: rest) = some e := by
        rw [firstFault?_append, firstFault?_nil_eq_none_iff.2 hbefore, Option.none_or]
        exact hk.firstFault?_cons
      unfold define
      rw [dif_neg hname]
      split
      · next e' he' =>
        rw [hfault] at he'
        rw [Option.some.inj he']
      · next hnone =>
        rw [hfault] at hnone
        simp at hnone

/-! ## The ways to a definition -/

/-- The ways in which a definition can come about. -/
inductive Obtained (d : IndexDefinition) : Prop where
  | define {name : String} {keys : List Key} (h : define name keys = .ok d)
  | defineGenerated {keys : List Key} (h : defineGenerated keys = .ok d)
  | ofKeyPattern {name : String} {v : Json} (h : ofKeyPattern name v = .ok d)
  | parse {text : String} (h : parse text = .ok d)
  | file {text : String} {f : CatalogFile} (h : CatalogFile.parse text = .ok f)
      (hd : d ∈ f.indexes)
  | recommend {shape : QueryShape} (h : recommend shape = .ok d)

/-- The definition has passed the check, with some name and some keys. -/
def Checked (d : IndexDefinition) : Prop := ∃ name keys, define name keys = .ok d

/-- Members make a definition iff all of them are keys, and then of these keys. -/
theorem ofMembers_eq_ok_iff {ms : List (String × Json)} :
    ofMembers name ms = .ok d ↔ ∃ keys, ms = keys.map Key.toMember ∧ define name keys = .ok d := by
  constructor
  · intro h
    unfold ofMembers at h
    split at h
    · simp at h
    · next keys hkeys => exact ⟨keys, Key.ofMembers_eq_ok_iff.1 hkeys, h⟩
  · rintro ⟨keys, rfl, h⟩
    rw [ofMembers, Key.ofMembers_map_toMember]
    exact h

/-- A document makes a definition iff it is the pattern of some keys, and then of these keys. -/
theorem ofKeyPattern_eq_ok_iff {v : Json} :
    ofKeyPattern name v = .ok d ↔ ∃ keys, v = Key.pattern keys ∧ define name keys = .ok d := by
  constructor
  · intro h
    unfold ofKeyPattern at h
    split at h
    · obtain ⟨keys, rfl, hd⟩ := ofMembers_eq_ok_iff.1 h
      exact ⟨keys, rfl, hd⟩
    · simp at h
  · rintro ⟨keys, rfl, h⟩
    exact ofMembers_eq_ok_iff.2 ⟨keys, rfl, h⟩

theorem checked_of_take {depth : Nat} {ts rest : List Json.Token}
    (h : take depth ts = .ok (d, rest)) : d.Checked := by
  unfold take at h
  split at h
  · simp at h
  · next name ms rest' _ =>
    split at h
    · simp at h
    · next d' hd' =>
      obtain ⟨rfl, -⟩ := Prod.mk.inj (Except.ok.inj h)
      obtain ⟨keys, -, hd⟩ := ofMembers_eq_ok_iff.1 hd'
      exact ⟨name, keys, hd⟩

theorem checked_of_parse {text : String} (h : parse text = .ok d) : d.Checked :=
  checked_of_take (Json.take_of_readText_eq_ok h)

end IndexDefinition

namespace CatalogFile

open IndexDefinition

/-- All definitions that have been read of a file have passed the check. -/
def Partial.Checked (s : Partial) : Prop := ∀ ds ∈ s.indexes, ∀ d ∈ ds, d.Checked

/-- No member of a file brings in anything that has not been checked. -/
theorem keeps_checked : record.Keeps Partial.Checked := by
  intro m hm s s' depth ts rest hs htake
  simp only [record, List.mem_cons, List.not_mem_nil, or_false] at hm
  -- the first three members leave the definitions as they are
  obtain rfl | rfl | rfl | rfl := hm
  · obtain ⟨n, -, rfl⟩ := Json.of_memberOf_take htake
    exact hs
  · obtain ⟨t, -, rfl⟩ := Json.of_memberOf_take htake
    exact hs
  · obtain ⟨n, -, rfl⟩ := Json.of_memberOf_take htake
    exact hs
  · obtain ⟨ds, hds, rfl⟩ := Json.of_memberOf_take htake
    rintro ds' ⟨⟩ d hd
    obtain ⟨depth', ts', rest', hd⟩ := Json.exists_of_mem_takeList hds hd
    exact checked_of_take hd

theorem indexes_mem_of_finish_eq_ok {s : Partial} {f : CatalogFile}
    (h : record.finish s = .ok f) : f.indexes ∈ s.indexes := by
  simp only [record] at h
  split at h
  · simp at h
  · split at h
    · simp at h
    · split at h
      · simp at h
      · split at h
        · simp at h
        · next indexes hindexes =>
          obtain rfl := Except.ok.inj h
          exact Json.required_eq_ok_iff.1 hindexes

/-- All definitions in a file that was read have passed the check. -/
theorem checked_of_parse {text : String} {f : CatalogFile} (h : parse text = .ok f)
    {d : IndexDefinition} (hd : d ∈ f.indexes) : d.Checked := by
  have hread : Json.readText record.take text = .ok f := by
    unfold parse at h
    split at h
    · simp at h
    · next f' hf' =>
      split at h
      · rw [hf', Except.ok.inj h]
      · simp at h
  obtain ⟨s, hs, hfinish⟩ := keeps_checked.exists_finish (fun ds hds => nomatch hds)
    (Json.take_of_readText_eq_ok hread)
  exact hs f.indexes (indexes_mem_of_finish_eq_ok hfinish) d hd

end CatalogFile

namespace IndexDefinition

/-- A recommendation has passed the check. -/
theorem checked_of_recommend {shape : QueryShape} {d : IndexDefinition}
    (h : recommend shape = .ok d) : d.Checked := by
  unfold recommend at h
  split at h
  · simp at h
  · split at h
    · simp at h
    · next d' hd' =>
      obtain rfl := Except.ok.inj h
      exact ⟨_, _, hd'⟩

/-- In whatever way a definition came about, it has passed the check. -/
theorem Obtained.checked {d : IndexDefinition} (h : Obtained d) : d.Checked := by
  cases h with
  | define h => exact ⟨_, _, h⟩
  | defineGenerated h => exact ⟨_, _, h⟩
  | ofKeyPattern h =>
    obtain ⟨keys, -, hd⟩ := ofKeyPattern_eq_ok_iff.1 h
    exact ⟨_, keys, hd⟩
  | parse h => exact checked_of_parse h
  | file h hd => exact CatalogFile.checked_of_parse h hd
  | recommend h => exact checked_of_recommend h

/-! ## Comparing keys -/

/-- Indexes with the same keys cannot be told apart by a comparison of their keys. -/
theorem sameKey_congr {a a' b b' : IndexDefinition} (ha : a.keys = a'.keys)
    (hb : b.keys = b'.keys) : a.sameKey b = a'.sameKey b' := by
  rw [Bool.eq_iff_iff, sameKey_iff, sameKey_iff, ha, hb]

theorem equivalence_sameKey : Equivalence fun a b : IndexDefinition => a.sameKey b = true where
  refl _ := sameKey_iff.2 rfl
  symm h := sameKey_iff.2 (sameKey_iff.1 h).symm
  trans hab hbc := sameKey_iff.2 ((sameKey_iff.1 hab).trans (sameKey_iff.1 hbc))

theorem checksum_eq_of_sameKey {a b : IndexDefinition} (h : a.sameKey b = true) :
    a.checksum = b.checksum := by
  rw [a.checksum_eq, b.checksum_eq, sameKey_iff.1 h]

/-- An index on one field, with a colon and a comma in its name. -/
def colonComma : IndexDefinition where
  name := "one"
  keys := [Key.asc "a:1,b"]
  named := by decide
  nodup := by decide
  fieldsNamed := by decide

/-- An index on two fields with the checksum of `colonComma`. -/
def plainPair : IndexDefinition where
  name := "two"
  keys := [Key.asc "a", Key.asc "b"]
  named := by decide
  nodup := by decide
  fieldsNamed := by decide

theorem checksum_colonComma : colonComma.checksum = plainPair.checksum :=
  Checksum.ofKeys_colon_comma "a" "b" .asc

/-- **Definitions are checked, and compared by their keys.**  In whatever way a definition came
about, its name is not empty, its fields have names and are distinct, and its checksum is that
of its keys.  Every name and every list of keys with these properties makes a definition, and
of all others the first fault is reported.  So two definitions count as the same iff their keys
are the same, although there are different keys with the same checksum; this is an equivalence
that does not see names, and definitions that are the same have the same checksum. -/
theorem checked_and_compared_by_keys :
    (∀ d : IndexDefinition, Obtained d →
      d.name ≠ "" ∧ SoundKeys d.keys ∧ d.checksum = Checksum.ofKeys d.keys) ∧
    (∀ (name : String) (keys : List Key),
      ((∃ d, define name keys = .ok d) ↔ name ≠ "" ∧ SoundKeys keys) ∧
      (∀ d, define name keys = .ok d → d.name = name ∧ d.keys = keys) ∧
      ∀ e, define name keys = .error e ↔ FirstFault name keys e) ∧
    (∀ a b : IndexDefinition, a.sameKey b = true ↔ a.keys = b.keys) ∧
    (∃ a b : IndexDefinition, a.checksum = b.checksum ∧ a.keys ≠ b.keys) ∧
    (Equivalence fun a b : IndexDefinition => a.sameKey b = true) ∧
    (∀ a a' b b' : IndexDefinition, a.keys = a'.keys → b.keys = b'.keys →
      a.sameKey b = a'.sameKey b') ∧
    ∀ a b : IndexDefinition, a.sameKey b = true → a.checksum = b.checksum := by
  refine ⟨fun d h => ?_, fun name keys => ⟨exists_define_eq_ok_iff, fun d h => ?_,
    fun e => define_eq_error_iff⟩, fun a b => sameKey_iff, ?_, equivalence_sameKey,
    fun a a' b b' => sameKey_congr, fun a b => checksum_eq_of_sameKey⟩
  · obtain ⟨name, keys, hd⟩ := h.checked
    obtain ⟨hname, hkeys, rfl, rfl, hchecksum⟩ := of_define_eq_ok hd
    exact ⟨hname, hkeys, hchecksum⟩
  · obtain ⟨-, -, hname, hkeys, -⟩ := of_define_eq_ok h
    exact ⟨hname, hkeys⟩
  · exact ⟨colonComma, plainPair, checksum_colonComma, by decide⟩

theorem checked_and_compared_by_keys_colonComma :
    Obtained colonComma ∧
      (colonComma.name ≠ "" ∧ SoundKeys colonComma.keys ∧
        colonComma.checksum = Checksum.ofKeys colonComma.keys) ∧
      colonComma.sameKey plainPair = false := by
  have hpattern : ofKeyPattern "one" (.object [("a:1,b", .ofInt 1)]) = .ok colonComma :=
    ofKeyPattern_eq_ok_iff.2 ⟨colonComma.keys, rfl, define_eq_ok_iff.2 ⟨rfl, rfl⟩⟩
  obtain ⟨hobtained, -, hsame, -⟩ := checked_and_compared_by_keys
  refine ⟨.ofKeyPattern hpattern, hobtained colonComma (.ofKeyPattern hpattern), ?_⟩
  rw [Bool.eq_false_iff, ne_eq, hsame]
  decide

end IndexDefinition
end IndexPlanner
