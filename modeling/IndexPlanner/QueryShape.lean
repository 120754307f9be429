import IndexPlanner.Key
import IndexPlanner.RangeSet

/-!
# The shape of a query

To match a query against an index, only its *shape* is needed: which fields it pins to a
single value, in which order it wants its results, and which fields it restricts to a
range.  These are the three roles a field can have, and a field has at most one of them.
One overlap is harmless: a field that is pinned to a value orders nothing, so it may also
be in the sort and is left out there.

`QueryShape` has this disjointness in its type.  A shape is read off a query from the
front to the back, first the predicates, then the sort keys, and the first part of the
query that cannot be given a role is what the query is refused for.

* `Roles.add` gives the field of a predicate its role;
* `Roles.orderKeys` keeps the sort keys that order anything, and
  `Roles.orderKeys_eq_ok` says what is known when it succeeds;
* `normalize` reads the shape of a query.
-/

namespace IndexPlanner

/-- What a query may use a field for. -/
inductive Role where
  | equality
  | sort
  | range
  deriving DecidableEq, Repr

/-- The word for a role. -/
def Role.name : Role → String
  | equality => "equality"
  | sort => "sort"
  | range => "range"

/-- Why a query has no shape. -/
inductive ShapeError where
  /-- A field would have two roles that exclude each other. -/
  | roleConflict (field : String) (first second : Role)
  | duplicateSortField (field : String)
  | emptyFieldName
  | unsupportedOperator (field operator : String)
  | invalidSortDirection (field : String)
  | invalidDocument (reason : String)
  deriving DecidableEq, Repr

namespace ShapeError

/-- The code of an error, which stays the same when its wording changes. -/
def code : ShapeError → String
  | roleConflict .. => "ESR_FIELD_ROLE_CONFLICT"
  | duplicateSortField _ => "ESR_DUPLICATE_SORT_FIELD"
  | emptyFieldName => "ESR_EMPTY_FIELD_NAME"
  | unsupportedOperator .. => "ESR_UNSUPPORTED_OPERATOR"
  | invalidSortDirection _ => "ESR_INVALID_SORT_DIRECTION"
  | invalidDocument _ => "ESR_INVALID_DOCUMENT"

/-- The wording of an error. -/
def message : ShapeError → String
  | roleConflict field first second =>
    "field '" ++ field ++ "' cannot be both " ++ first.name ++ " and " ++ second.name ++
      " in one query"
  | duplicateSortField field =>
    "field '" ++ field ++ "' appears more than once in the sort sequence"
  | emptyFieldName => "field name must not be empty"
  | unsupportedOperator field operator =>
    "unsupported operator '" ++ operator ++ "' on field '" ++ field ++ "'"
  | invalidSortDirection field =>
    "sort direction for field '" ++ field ++ "' must be 1 or -1"
  | invalidDocument reason => "invalid query document: " ++ reason

/-- The field that an error is about, if it is about one. -/
def field? : ShapeError → Option String
  | roleConflict field .. => some field
  | duplicateSortField field => some field
  | emptyFieldName => none
  | unsupportedOperator field _ => some field
  | invalidSortDirection field => some field
  | invalidDocument _ => none

end ShapeError

/-- The names of the fields of keys, in order. -/
def fieldNames (keys : List Key) : List String := keys.map (·.field)

@[simp] theorem fieldNames_nil : fieldNames [] = [] := rfl

@[simp] theorem fieldNames_cons (k : Key) (ks : List Key) :
    fieldNames (k :: ks) = k.field :: fieldNames ks := rfl

@[simp] theorem fieldNames_append (ks ls : List Key) :
    fieldNames (ks ++ ls) = fieldNames ks ++ fieldNames ls := List.map_append

@[simp] theorem length_fieldNames (ks : List Key) : (fieldNames ks).length = ks.length :=
  List.length_map _

@[simp] theorem fieldNames_map_asc (fs : List String) : fieldNames (fs.map Key.asc) = fs := by
  rw [fieldNames, List.map_map]
  exact List.map_id' fs

/-! ## Shapes -/

/-- The normalized shape of a query.  No field has two roles, and every field has a
name. -/
structure QueryShape where
  equality : FieldSet
  sort : List Key
  range : RangeSet
  /-- The roles share no field, and the sort names none twice. -/
  nodup : (equality.toList ++ fieldNames sort ++ range.fields).Nodup
  named : "" ∉ equality.toList ++ fieldNames sort ++ range.fields
  deriving DecidableEq

namespace QueryShape

/-- The shape of a query that asks for everything in any order. -/
def empty : QueryShape where
  equality := .empty
  sort := []
  range := .empty
  nodup := .nil
  named := List.not_mem_nil

instance : Inhabited QueryShape := ⟨empty⟩

/-- All fields of a shape, role by role. -/
def fields (s : QueryShape) : List String :=
  s.equality.toList ++ fieldNames s.sort ++ s.range.fields

/-- The number of fields that have a role. -/
def fieldCount (s : QueryShape) : Nat := s.equality.size + s.sort.length + s.range.size

/-- Whether no field has a role. -/
def isEmpty (s : QueryShape) : Bool := s.fieldCount = 0

/-- Whether a field is pinned to a single value. -/
def isEqualityField (s : QueryShape) (f : String) : Bool := f ∈ s.equality

/-- Whether a field is restricted to a range. -/
def isRangeField (s : QueryShape) (f : String) : Bool := f ∈ s.range.fields

theorem length_fields (s : QueryShape) : s.fields.length = s.fieldCount := by
  simp [fields, fieldCount, fieldNames, FieldSet.size, Nat.add_assoc]

end QueryShape

/-! ## Giving roles to fields -/

/-- The roles that the predicates read so far give to their fields. -/
structure Roles where
  equality : FieldSet
  range : RangeSet
  disjoint : ∀ f ∈ equality, f ∉ range.fields
  named_equality : "" ∉ equality
  named_range : "" ∉ range.fields

namespace Roles

/-- No field has a role yet. -/
def empty : Roles where
  equality := .empty
  range := .empty
  disjoint _ h := absurd h (FieldSet.not_mem_empty _)
  named_equality := FieldSet.not_mem_empty _
  named_range := List.not_mem_nil

/-- Gives the field of a predicate its role, unless it has the other one already. -/
def add (r : Roles) (p : Predicate) : Except ShapeError Roles :=
  if hname : p.field = "" then .error .emptyFieldName
  else if p.isEquality then
    if hrange : p.field ∈ r.range.fields then
      .error (.roleConflict p.field .equality .range)
    else .ok
      { r with
        equality := r.equality.insert p.field
        disjoint := fun f hf => by
          rcases FieldSet.mem_insert.1 hf with rfl | hf
          · exact hrange
          · exact r.disjoint f hf
        named_equality := fun hf => by
          rcases FieldSet.mem_insert.1 hf with heq | hf
          · exact hname heq.symm
          · exact r.named_equality hf }
  else
    if hequality : p.field ∈ r.equality then
      .error (.roleConflict p.field .equality .range)
    else .ok
      { r with
        range := r.range.absorb p.field p.condition
        disjoint := fun f hf hmem => by
          rcases RangeSet.mem_fields_absorb.1 hmem with rfl | hmem
          · exact hequality hf
          · exact r.disjoint f hf hmem
        named_range := fun hf => by
          rcases RangeSet.mem_fields_absorb.1 hf with heq | hf
          · exact hname heq.symm
          · exact r.named_range hf }

/-- Gives the fields of predicates their roles, from the first predicate to the last. -/
def addAll (r : Roles) : List Predicate → Except ShapeError Roles
  | [] => .ok r
  | p :: ps =>
    match r.add p with
    | .error e => .error e
    | .ok r => addAll r ps

/-- Keeps the sort keys on fields that are not pinned to a value.  `seen` has the names of
the keys before. -/
def orderKeys (r : Roles) (seen : FieldSet) : List Key → Except ShapeError (List Key)
  | [] => .ok []
  | k :: ks =>
    if k.field = "" then .error .emptyFieldName
    else if k.field ∈ seen then .error (.duplicateSortField k.field)
    else if k.field ∈ r.range.fields then .error (.roleConflict k.field .sort .range)
    else
      match orderKeys r (seen.insert k.field) ks with
      | .error e => .error e
      | .ok kept => .ok (if k.field ∈ r.equality then kept else k :: kept)

theorem orderKeys_cons_eq_ok {r : Roles} {seen : FieldSet} {k : Key} {ks kept : List Key} :
    r.orderKeys seen (k :: ks) = .ok kept ↔
      k.field ≠ "" ∧ k.field ∉ seen ∧ k.field ∉ r.range.fields ∧
        ∃ rest, r.orderKeys (seen.insert k.field) ks = .ok rest ∧
          kept = if k.field ∈ r.equality then rest else k :: rest := by
  rw [orderKeys]
  split
  · simp_all
  · split
    · simp_all
    · split
      · simp_all
      · next hname hseen hrange =>
        split
        · next heq => simp [heq]
        · next rest heq =>
          simp only [Except.ok.injEq, heq, exists_eq_left', hname, hseen, hrange, ne_eq,
            not_false_eq_true, true_and]
          exact eq_comm

/-- The keys that are kept are those on fields without equality; their fields are
distinct, new, named and without range. -/
theorem orderKeys_eq_ok {r : Roles} {seen : FieldSet} {ks kept : List Key}
    (h : r.orderKeys seen ks = .ok kept) :
    kept = ks.filter (fun k => k.field ∉ r.equality) ∧ (fieldNames ks).Nodup ∧
      ∀ k ∈ ks, k.field ≠ "" ∧ k.field ∉ seen ∧ k.field ∉ r.range.fields := by
  induction ks generalizing seen kept with
  | nil =>
    simp only [orderKeys, Except.ok.injEq] at h
    simp [← h, fieldNames]
  | cons k ks ih =>
    obtain ⟨hname, hseen, hrange, rest, hrest, rfl⟩ := orderKeys_cons_eq_ok.1 h
    obtain ⟨rfl, hnodup, hall⟩ := ih hrest
    refine ⟨?_, ?_, ?_⟩
    · by_cases hk : k.field ∈ r.equality <;> simp [hk]
    · refine List.nodup_cons.2 ⟨fun hmem => ?_, hnodup⟩
      obtain ⟨k', hk', heq⟩ := List.mem_map.1 hmem
      exact (hall k' hk').2.1 (FieldSet.mem_insert.2 (.inl heq))
    · intro k' hk'
      rcases List.mem_cons.1 hk' with rfl | hk'
      · exact ⟨hname, hseen, hrange⟩
      · have := hall k' hk'
        exact ⟨this.1, fun hs => this.2.1 (FieldSet.mem_insert.2 (.inr hs)), this.2.2⟩

/-- The roles together with sort keys that were kept beside them are a shape. -/
def toShape (r : Roles) (ks kept : List Key) (h : r.orderKeys .empty ks = .ok kept) :
    QueryShape where
  equality := r.equality
  sort := kept
  range := r.range
  nodup := by
    obtain ⟨rfl, hnodup, hall⟩ := orderKeys_eq_ok h
    have hsub : (fieldNames (ks.filter (fun k => k.field ∉ r.equality))).Sublist
        (fieldNames ks) := List.filter_sublist.map _
    refine List.nodup_append.2 ⟨List.nodup_append.2
      ⟨r.equality.nodup_toList, hsub.nodup hnodup, ?_⟩, r.range.nodup_fields, ?_⟩
    · rintro f hf g hg rfl
      obtain ⟨k, hk, rfl⟩ := List.mem_map.1 hg
      have := (List.mem_filter.1 hk).2
      simp only [decide_eq_true_eq] at this
      exact this hf
    · rintro f hf g hg rfl
      rcases List.mem_append.1 hf with hf | hf
      · exact r.disjoint f hf hg
      · obtain ⟨k, hk, rfl⟩ := List.mem_map.1 (hsub.subset hf)
        exact (hall k hk).2.2 hg
  named := by
    obtain ⟨rfl, -, hall⟩ := orderKeys_eq_ok h
    simp only [List.mem_append, not_or]
    refine ⟨⟨r.named_equality, fun hf => ?_⟩, r.named_range⟩
    obtain ⟨k, hk, heq⟩ := List.mem_map.1 hf
    exact (hall k (List.mem_filter.1 hk).1).1 heq

end Roles

/-- Reads the shape of a query: its predicates give roles to their fields, and then its
sort keys are checked against them. -/
def normalize (predicates : List Predicate) (sort : List Key) :
    Except ShapeError QueryShape :=
  match Roles.empty.addAll predicates with
  | .error e => .error e
  | .ok roles =>
    match h : roles.orderKeys .empty sort with
    | .error e => .error e
    | .ok kept => .ok (roles.toShape sort kept h)

end IndexPlanner
