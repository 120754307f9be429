import IndexPlanner.Json.Record
import IndexPlanner.Key

/-!
# The written forms of keys

Sort documents and key patterns write a list of keys as one object: the names of the
members are the fields, and the values are the numbers `1` and `-1`, which have to be
written as integers.  The order of the members is the order of the keys.

A key on its own is written as a record of its field and the word for its direction.

* `Key.ofMember?` reads a member and `Key.toMember` writes one;
* `Key.ofMembers` reads all members and gives the name of the first one that is no key;
* `Key.pattern` is the object for a list of keys.
* `Key.ofMembers_eq_ok_iff`: what is read is what is written.
* `Key.exists_map_toMember_iff` and `Key.ofMembers_eq_error_iff` say which members are keys,
  and what is wrong with others.
* `Key.toJson` and `Key.parse` are the two ways between a key and its record.
-/

namespace IndexPlanner
namespace Key

/-! ## Keys as the members of a document -/

/-- The key that a member stands for, if its value is a direction. -/
def ofMember? (m : String × Json) : Option Key :=
  (m.2.integer?.bind Direction.ofKeyValue?).map (⟨m.1, ·⟩)

/-- The member that stands for a key. -/
def toMember (k : Key) : String × Json := (k.field, .ofInt k.direction.keyValue)

/-- Reads members as keys, in order.  The error is the name of the first member that does
not stand for a key. -/
def ofMembers : List (String × Json) → Except String (List Key)
  | [] => .ok []
  | m :: ms =>
    match ofMember? m with
    | none => .error m.1
    | some k =>
      match ofMembers ms with
      | .error name => .error name
      | .ok ks => .ok (k :: ks)

/-- The object that stands for a list of keys. -/
def pattern (ks : List Key) : Json := .object (ks.map toMember)

@[simp] theorem ofMember?_toMember (k : Key) : ofMember? k.toMember = some k := by
  simp [ofMember?, toMember, Json.ofInt, Json.integer?]

@[simp] theorem ofMembers_map_toMember (ks : List Key) :
    ofMembers (ks.map toMember) = .ok ks := by
  induction ks with
  | nil => rfl
  | cons k ks ih => rw [List.map_cons, ofMembers, ofMember?_toMember, ih]

variable {m : String × Json} {ms : List (String × Json)} {k : Key} {ks : List Key}

/-- A member stands for no other key than the one that it is written for. -/
theorem ofMember?_eq_some_iff : ofMember? m = some k ↔ m = k.toMember := by
  constructor
  · obtain ⟨f, v⟩ := m
    intro h
    obtain ⟨d, hd, rfl⟩ := Option.map_eq_some_iff.1 h
    obtain ⟨n, hn, hnd⟩ := Option.bind_eq_some_iff.1 hd
    obtain rfl : v = .ofInt n := Json.integer?_eq_some_iff.1 hn
    obtain rfl : n = d.keyValue := Direction.ofKeyValue?_eq_some_iff.1 hnd
    rfl
  · rintro rfl
    exact ofMember?_toMember k

/-- Members stand for no other keys than those that they are written for. -/
theorem ofMembers_eq_ok_iff : ofMembers ms = .ok ks ↔ ms = ks.map toMember := by
  constructor
  · intro h
    induction ms generalizing ks with
    | nil =>
      obtain rfl := Except.ok.inj h
      rfl
    | cons m ms ih =>
      rw [ofMembers] at h
      split at h
      · simp at h
      · next k hk =>
        split at h
        · simp at h
        · next rest hrest =>
          obtain rfl := Except.ok.inj h
          rw [List.map_cons, ← ih hrest, ← ofMember?_eq_some_iff.1 hk]
  · rintro rfl
    exact ofMembers_map_toMember ks

/-- The members that stand for keys are those with the numbers for directions as values. -/
theorem exists_toMember_iff :
    (∃ k : Key, k.toMember = m) ↔ m.2 = .ofInt 1 ∨ m.2 = .ofInt (-1) := by
  obtain ⟨f, v⟩ := m
  constructor
  · rintro ⟨⟨f', d⟩, h⟩
    obtain ⟨-, rfl⟩ := Prod.mk.inj h
    cases d
    · exact .inl rfl
    · exact .inr rfl
  · rintro (rfl | rfl)
    · exact ⟨⟨f, .asc⟩, rfl⟩
    · exact ⟨⟨f, .desc⟩, rfl⟩

theorem exists_map_toMember_iff :
    (∃ ks : List Key, ms = ks.map toMember) ↔
      ∀ m ∈ ms, m.2 = .ofInt 1 ∨ m.2 = .ofInt (-1) := by
  constructor
  · rintro ⟨ks, rfl⟩ m hm
    obtain ⟨k, -, hk⟩ := List.mem_map.1 hm
    exact exists_toMember_iff.1 ⟨k, hk⟩
  · intro h
    induction ms with
    | nil => exact ⟨[], rfl⟩
    | cons m ms ih =>
      obtain ⟨hm, hms⟩ := List.forall_mem_cons.1 h
      obtain ⟨k, rfl⟩ := exists_toMember_iff.2 hm
      obtain ⟨ks, rfl⟩ := ih hms
      exact ⟨k :: ks, rfl⟩

theorem ofMembers_toMember_cons : ofMembers (k.toMember :: ms) = (ofMembers ms).map (k :: ·) := by
  rw [ofMembers, ofMember?_toMember]
  cases ofMembers ms <;> rfl

theorem ofMembers_cons_of_not (h : ¬ (m.2 = .ofInt 1 ∨ m.2 = .ofInt (-1))) :
    ofMembers (m :: ms) = .error m.1 := by
  have hnone : ofMember? m = none := by
    rw [Option.eq_none_iff_forall_ne_some]
    intro k hk
    exact h (exists_toMember_iff.1 ⟨k, (ofMember?_eq_some_iff.1 hk).symm⟩)
  rw [ofMembers, hnone]

/-- The error is the name of the first member that is no key. -/
theorem ofMembers_eq_error_iff {f : String} :
    ofMembers ms = .error f ↔ ∃ before m rest, ms = before ++ m :: rest ∧
      (∀ b ∈ before, b.2 = .ofInt 1 ∨ b.2 = .ofInt (-1)) ∧
      ¬ (m.2 = .ofInt 1 ∨ m.2 = .ofInt (-1)) ∧ f = m.1 := by
  constructor
  · intro h
    induction ms with
    | nil => simp [ofMembers] at h
    | cons m ms ih =>
      by_cases hm : m.2 = .ofInt 1 ∨ m.2 = .ofInt (-1)
      · obtain ⟨k, rfl⟩ := exists_toMember_iff.2 hm
        rw [ofMembers_toMember_cons] at h
        cases hms : ofMembers ms with
        | error f' =>
          rw [hms] at h
          obtain rfl : f' = f := Except.error.inj h
          obtain ⟨before, m, rest, rfl, hbefore, hbad⟩ := ih hms
          exact ⟨k.toMember :: before, m, rest, rfl, List.forall_mem_cons.2 ⟨hm, hbefore⟩, hbad⟩
        | ok ks => simp [hms, Except.map] at h
      · rw [ofMembers_cons_of_not hm] at h
        exact ⟨[], m, ms, rfl, by simp, hm, (Except.error.inj h).symm⟩
  · rintro ⟨before, m, rest, rfl, hbefore, hm, rfl⟩
    induction before with
    | nil => exact ofMembers_cons_of_not hm
    | cons b before ih =>
      obtain ⟨hb, hothers⟩ := List.forall_mem_cons.1 hbefore
      obtain ⟨k, rfl⟩ := exists_toMember_iff.2 hb
      rw [List.cons_append, ofMembers_toMember_cons, ih hothers]
      rfl

/-! ## A key as a record -/

/-- The document for a key. -/
def toJson (k : Key) : Json :=
  .object [("field", .string k.field), ("direction", .string k.direction.name)]

/-- A key of which some members have been read. -/
structure Partial where
  field : Option String := none
  direction : Option Direction := none

/-- How a key is read. -/
def record : Json.Record Partial Key where
  name := "FieldRef"
  members := [
    .of "field" (·.field) (fun s f => { s with field := some f })
      (Json.takeString "a string"),
    .of "direction" (·.direction) (fun s d => { s with direction := some d })
      (Json.takeWord [("asc", .asc), ("desc", .desc)])]
  start := {}
  finish s :=
    match Json.required "field" s.field with
    | .error e => .error e
    | .ok field =>
      match Json.required "direction" s.direction with
      | .error e => .error e
      | .ok direction => .ok ⟨field, direction⟩

/-- Reads the text of a document for a key. -/
def parse (text : String) : Except Json.ReadError Key := Json.readText record.take text

end Key
end IndexPlanner
