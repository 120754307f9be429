import IndexPlanner.IndexDefinition
import IndexPlanner.QueryShape

/-!
# How far an index serves a query

The keys of an index are used up from the front.  First come the keys on fields that the
query pins to a value, in whatever order the index has them.  Then, if the query has a
sort, comes a block of keys that is the sort, read forwards or read backwards; it is all
of the sort or none of it.  Then one key on a field with a range bounds the scan.  The
keys after it are of no use to the query, and what the query asks beyond the keys that
were used is left to be done after the scan.

* `splitEquality` walks over the first block and keeps account of the fields that have not
  been met yet; `leading_append_rest_splitEquality` says that it only splits the keys;
* `scanFor?` says in which direction keys have to be scanned to give a sort;
* `IndexMatch.of` is the match of a query shape and an index.
-/

namespace IndexPlanner

/-- The direction in which an index is scanned. -/
inductive ScanDirection where
  | forward
  /-- Against the order of the index, so that every key counts as reversed. -/
  | backward
  deriving DecidableEq, Repr, Inhabited

namespace ScanDirection

/-- The word for a scan direction. -/
def name : ScanDirection → String
  | forward => "forward"
  | backward => "backward"

/-- The opposite direction. -/
def reversed : ScanDirection → ScanDirection
  | forward => backward
  | backward => forward

@[simp] theorem reversed_reversed (d : ScanDirection) : d.reversed.reversed = d := by
  cases d <;> rfl

end ScanDirection

/-! ## The block of equalities -/

/-- Keys parted where the first field is met that is not wanted, or no longer. -/
structure EqualitySplit where
  /-- The keys before, each on a wanted field. -/
  leading : List Key
  /-- The wanted fields that are not among them. -/
  pending : List String
  /-- The keys from there on. -/
  rest : List Key
  deriving DecidableEq, Repr

/-- Walks over the leading keys on wanted fields.  A field that has been met is wanted no
longer. -/
def splitEquality (wanted : List String) : List Key → EqualitySplit
  | [] => ⟨[], wanted, []⟩
  | k :: ks =>
    if k.field ∈ wanted then
      let s := splitEquality (wanted.erase k.field) ks
      { s with leading := k :: s.leading }
    else ⟨[], wanted, k :: ks⟩

@[simp] theorem splitEquality_nil (wanted : List String) :
    splitEquality wanted [] = ⟨[], wanted, []⟩ := rfl

theorem splitEquality_cons_of_mem {wanted : List String} {k : Key} {ks : List Key}
    (h : k.field ∈ wanted) :
    splitEquality wanted (k :: ks) =
      ⟨k :: (splitEquality (wanted.erase k.field) ks).leading,
        (splitEquality (wanted.erase k.field) ks).pending,
        (splitEquality (wanted.erase k.field) ks).rest⟩ := by
  simp [splitEquality, h]

theorem splitEquality_cons_of_not_mem {wanted : List String} {k : Key} {ks : List Key}
    (h : k.field ∉ wanted) : splitEquality wanted (k :: ks) = ⟨[], wanted, k :: ks⟩ := by
  simp [splitEquality, h]

/-- Splitting loses no key and changes no order. -/
theorem leading_append_rest_splitEquality (wanted : List String) (ks : List Key) :
    (splitEquality wanted ks).leading ++ (splitEquality wanted ks).rest = ks := by
  induction ks generalizing wanted with
  | nil => rfl
  | cons k ks ih =>
    by_cases h : k.field ∈ wanted
    · rw [splitEquality_cons_of_mem h]
      simp [ih]
    · rw [splitEquality_cons_of_not_mem h]
      rfl

/-! ## The block of the sort -/

/-- The direction in which keys have to be scanned so that the first of them give a sort.
Every scan gives the empty sort, and it is then a forward one. -/
def scanFor? (sort keys : List Key) : Option ScanDirection :=
  if sort.isPrefixOf keys then some .forward
  else if (sort.map Key.reversed).isPrefixOf keys then some .backward
  else none

@[simp] theorem scanFor?_nil (keys : List Key) : scanFor? [] keys = some .forward := by
  simp [scanFor?]

/-! ## The match -/

/-- How far an index serves a query. -/
structure IndexMatch where
  /-- The number of leading keys on fields that the query pins to a value. -/
  equalityConsumed : Nat := 0
  /-- Whether the index gives the order that the query wants. -/
  sortServed : Bool := false
  /-- The number of keys that give that order. -/
  sortConsumed : Nat := 0
  scan : ScanDirection := .forward
  /-- The fields whose ranges bound the scan, of which there is at most one. -/
  coveredRange : List String := []
  /-- The fields whose ranges are checked after the scan. -/
  residualRange : List String := []
  /-- The fields whose values are checked after the scan. -/
  residualEquality : List String := []
  /-- Whether the results have to be sorted after the scan. -/
  inMemorySort : Bool := false
  /-- The keys after all that were used. -/
  unusedSuffix : List Key := []
  deriving DecidableEq, Repr, Inhabited

namespace IndexMatch

/-- The number of keys that were used. -/
def consumed (m : IndexMatch) : Nat :=
  m.equalityConsumed + m.sortConsumed + m.coveredRange.length

/-- The field whose range bounds the scan. -/
def boundedRange? (m : IndexMatch) : Option String := m.coveredRange.head?

/-- Whether the query has a range at all. -/
def hasRange (m : IndexMatch) : Bool :=
  !m.coveredRange.isEmpty || !m.residualRange.isEmpty

/-- Whether the index serves the query in full: all equalities lead the index, nothing is
left to be sorted, and a range, if there is one, bounds the scan. -/
def isFullyCovered (m : IndexMatch) : Bool :=
  m.residualEquality.isEmpty && !m.inMemorySort && (!m.hasRange || m.boundedRange?.isSome)

/-- Whether the index is of no use to the query. -/
def isUnused (m : IndexMatch) : Bool := m.consumed = 0

/-- The key on a field with a range, if it is the first of the keys. -/
def boundingKey (shape : QueryShape) (keys : List Key) : List Key :=
  (keys.take 1).filter fun k => shape.isRangeField k.field

/-- The match of a query shape and an index. -/
def of (shape : QueryShape) (index : IndexDefinition) : IndexMatch :=
  let split := splitEquality shape.equality.toList index.keys
  let scan? := scanFor? shape.sort split.rest
  let sortConsumed := if scan?.isSome then shape.sort.length else 0
  let unsorted := split.rest.drop sortConsumed
  let bounding := boundingKey shape unsorted
  let coveredRange := fieldNames bounding
  { equalityConsumed := split.leading.length
    sortServed := scan?.isSome
    sortConsumed
    scan := scan?.getD .forward
    coveredRange
    residualRange := shape.range.fields.filter (· ∉ coveredRange)
    residualEquality := split.pending
    inMemorySort := !shape.sort.isEmpty && scan?.isNone
    unusedSuffix := unsorted.drop bounding.length }

/-- The matches of a query shape with each of some indexes. -/
def ofAll (shape : QueryShape) (indexes : List IndexDefinition) :
    List (IndexDefinition × IndexMatch) :=
  indexes.map fun d => (d, of shape d)

end IndexMatch

end IndexPlanner
