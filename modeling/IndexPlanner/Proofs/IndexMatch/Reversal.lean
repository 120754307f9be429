import IndexPlanner.Proofs.IndexMatch.Accounting
import IndexPlanner.Proofs.QueryShape.Normalize

/-!
# Turning all directions round

An index can be scanned backwards, so it should make no difference to a query whether all
keys of an index are turned round, except that the scan then has to go the other way.  The
same holds of the keys of a sort.

The walks for the equalities and for the range look at fields only.  The walk for the sort
looks at directions, and it looks for keys that have all directions of the sort or all the
opposite ones; turning one of the two lists round swaps the two cases.  No keys but those of an
empty sort are in both, so the direction of the scan is the only thing that changes.

* `IndexDefinition.reversed` and `QueryShape.reversed` turn the keys of an index and the sort of
  a query round.
* `scanFor?_map_reversed`, `scanFor?_map_reversed_left`: the scan that is found for them.
* `of_reversed` and `of_reversed_left`: the match of an index or a query that was turned round.
* `normalize_map_reversed`: a query has a shape iff it has one with the sort turned round.
* `reversal_symmetry`: all this as one law.
-/

namespace IndexPlanner

/-! ## Keys, indexes and queries that are turned round -/

@[simp] theorem fieldNames_map_reversed (ks : List Key) :
    fieldNames (ks.map Key.reversed) = fieldNames ks := by
  rw [fieldNames, fieldNames, List.map_map]
  rfl

theorem Key.map_reversed_map_reversed (ks : List Key) :
    (ks.map Key.reversed).map Key.reversed = ks := by
  rw [List.map_map]
  exact (List.map_congr_left fun k _ => k.reversed_reversed).trans (List.map_id ks)

/-- The index with every key turned round. -/
def IndexDefinition.reversed (d : IndexDefinition) : IndexDefinition where
  name := d.name
  keys := d.keys.map Key.reversed
  named := d.named
  nodup := by
    rw [← fieldNames, fieldNames_map_reversed]
    exact d.nodup
  fieldsNamed := by
    intro l hl
    obtain ⟨k, hk, rfl⟩ := List.mem_map.1 hl
    exact d.fieldsNamed k hk

/-- The query that wants its results in the opposite order. -/
def QueryShape.reversed (shape : QueryShape) : QueryShape where
  equality := shape.equality
  sort := shape.sort.map Key.reversed
  range := shape.range
  nodup := by
    rw [fieldNames_map_reversed]
    exact shape.nodup
  named := by
    rw [fieldNames_map_reversed]
    exact shape.named

/-! ## Scans -/

namespace ScanDirection

variable {scan : ScanDirection} {keys sort : List Key}

theorem turn_reversed (scan : ScanDirection) (k : Key) :
    scan.reversed.turn k = (scan.turn k).reversed := by
  cases scan
  · rfl
  · exact (Key.reversed_reversed k).symm

theorem turn_key_reversed (scan : ScanDirection) (k : Key) :
    scan.turn k.reversed = scan.reversed.turn k := by
  cases scan
  · rfl
  · exact Key.reversed_reversed k

/-- Keys that are turned round give a sort to the scan in the other direction. -/
theorem gives_map_reversed : scan.Gives (keys.map Key.reversed) sort ↔
    scan.reversed.Gives keys sort := by
  have hturn : sort.map scan.reversed.turn = (sort.map scan.turn).map Key.reversed := by
    rw [List.map_map]
    exact List.map_congr_left fun s _ => turn_reversed scan s
  rw [gives_iff_eq_map, gives_iff_eq_map, hturn]
  constructor
  · intro h
    rw [← h, Key.map_reversed_map_reversed]
  · intro h
    rw [h, Key.map_reversed_map_reversed]

/-- A sort that is turned round is given to the scan in the other direction. -/
theorem gives_map_reversed_left : scan.Gives keys (sort.map Key.reversed) ↔
    scan.reversed.Gives keys sort := by
  have hturn : (sort.map Key.reversed).map scan.turn = sort.map scan.reversed.turn := by
    rw [List.map_map]
    exact List.map_congr_left fun s _ => turn_key_reversed scan s
  rw [gives_iff_eq_map, gives_iff_eq_map, hturn]

theorem map_reversed_eq_some_iff {scan? : Option ScanDirection} :
    scan?.map reversed = some scan ↔ scan? = some scan.reversed := by
  rw [Option.map_eq_some_iff]
  constructor
  · rintro ⟨other, rfl, rfl⟩
    rw [reversed_reversed]
  · rintro rfl
    exact ⟨_, rfl, reversed_reversed scan⟩

/-- The direction in which a sort is given after a reversal: the opposite one, only that an
empty sort is always given forwards. -/
def turnedFor (sort : List Key) (scan : ScanDirection) : ScanDirection :=
  if sort = [] then scan else scan.reversed

end ScanDirection

open ScanDirection (gives_map_reversed gives_map_reversed_left map_reversed_eq_some_iff turnedFor)

/-- Keys that are turned round are scanned the other way. -/
theorem scanFor?_map_reversed (sort keys : List Key) :
    scanFor? sort (keys.map Key.reversed) = (scanFor? sort keys).map (turnedFor sort) := by
  by_cases hne : sort = []
  · rw [hne, scanFor?_nil, scanFor?_nil]
    rfl
  · have hturned : turnedFor sort = ScanDirection.reversed := funext fun _ => if_neg hne
    ext scan
    rw [hturned, map_reversed_eq_some_iff, scanFor?_eq_some_iff hne, scanFor?_eq_some_iff hne,
      ← List.map_take, gives_map_reversed]

/-- For a sort that is turned round keys are scanned the other way. -/
theorem scanFor?_map_reversed_left (sort keys : List Key) :
    scanFor? (sort.map Key.reversed) keys = (scanFor? sort keys).map (turnedFor sort) := by
  by_cases hne : sort = []
  · rw [hne, List.map_nil, scanFor?_nil]
    rfl
  · have hturned : turnedFor sort = ScanDirection.reversed := funext fun _ => if_neg hne
    have hne' : sort.map Key.reversed ≠ [] := mt List.map_eq_nil_iff.1 hne
    ext scan
    rw [hturned, map_reversed_eq_some_iff, scanFor?_eq_some_iff hne, scanFor?_eq_some_iff hne',
      List.length_map, gives_map_reversed_left]

/-! ## Normalization -/

/-- The sort keys that are kept do not depend on directions. -/
theorem Roles.orderKeys_map_reversed (r : Roles) (seen : FieldSet) (ks : List Key) :
    r.orderKeys seen (ks.map Key.reversed) =
      (r.orderKeys seen ks).map (List.map Key.reversed) := by
  induction ks generalizing seen with
  | nil => rfl
  | cons k ks ih =>
    rw [List.map_cons, orderKeys, orderKeys, ih, Key.field_reversed]
    split
    · rfl
    · split
      · rfl
      · split
        · rfl
        · cases r.orderKeys (seen.insert k.field) ks with
          | error e => rfl
          | ok kept =>
            show Except.ok _ = Except.ok _
            split <;> rfl

/-- A query with the sort turned round is refused for the same reason or has the shape with
the sort turned round. -/
theorem normalize_map_reversed (predicates : List Predicate) (sort : List Key) :
    normalize predicates (sort.map Key.reversed) =
      (normalize predicates sort).map QueryShape.reversed := by
  cases hroles : Roles.empty.addAll predicates with
  | error e => simp only [normalize, hroles, Except.map]
  | ok roles =>
    have hturned := roles.orderKeys_map_reversed .empty sort
    cases hkept : roles.orderKeys .empty sort with
    | error e =>
      rw [hkept] at hturned
      rw [normalize_of_orderKeys_eq_error hroles hkept,
        normalize_of_orderKeys_eq_error hroles hturned]
      rfl
    | ok kept =>
      rw [hkept] at hturned
      rw [normalize_of_orderKeys_eq_ok hroles hkept, normalize_of_orderKeys_eq_ok hroles hturned]
      rfl

namespace IndexMatch

variable (shape : QueryShape) (d : IndexDefinition)

/-! ## The blocks of an index that is turned round -/

theorem equalityBlock_reversed :
    equalityBlock shape d.reversed = (equalityBlock shape d).map Key.reversed := by
  rw [equalityBlock_eq_takeWhile, equalityBlock_eq_takeWhile]
  exact List.takeWhile_map

theorem afterEquality_reversed :
    afterEquality shape d.reversed = (afterEquality shape d).map Key.reversed := by
  rw [afterEquality_eq_dropWhile, afterEquality_eq_dropWhile]
  exact List.dropWhile_map

/-- What is found for the sort, the other way round. -/
theorem scanFor?_afterEquality_reversed :
    scanFor? shape.sort (afterEquality shape d.reversed) =
      (scanFor? shape.sort (afterEquality shape d)).map (turnedFor shape.sort) := by
  rw [afterEquality_reversed, scanFor?_map_reversed]

theorem sortServed_reversed : (of shape d.reversed).sortServed = (of shape d).sortServed := by
  rw [sortServed_of, scanFor?_afterEquality_reversed, Option.isSome_map, ← sortServed_of]

theorem sortConsumed_reversed :
    (of shape d.reversed).sortConsumed = (of shape d).sortConsumed := by
  rw [sortConsumed_of, sortConsumed_of, sortServed_reversed]

theorem afterSort_reversed :
    afterSort shape d.reversed = (afterSort shape d).map Key.reversed := by
  rw [afterSort, afterSort, afterEquality_reversed, sortConsumed_reversed, List.map_drop]

theorem boundingKey_map_reversed (ks : List Key) :
    boundingKey shape (ks.map Key.reversed) = (boundingKey shape ks).map Key.reversed := by
  cases ks with
  | nil => rfl
  | cons k ks =>
    rw [List.map_cons, boundingKey_cons, boundingKey_cons, Key.field_reversed]
    split <;> rfl

theorem rangeBlock_reversed :
    rangeBlock shape d.reversed = (rangeBlock shape d).map Key.reversed := by
  rw [rangeBlock, rangeBlock, afterSort_reversed, boundingKey_map_reversed]

/-! ## The blocks of a query that is turned round -/

theorem scanFor?_afterEquality_reversed_left :
    scanFor? shape.reversed.sort (afterEquality shape.reversed d) =
      (scanFor? shape.sort (afterEquality shape d)).map (turnedFor shape.sort) :=
  scanFor?_map_reversed_left shape.sort (afterEquality shape d)

theorem sortServed_reversed_left :
    (of shape.reversed d).sortServed = (of shape d).sortServed := by
  rw [sortServed_of, scanFor?_afterEquality_reversed_left, Option.isSome_map, ← sortServed_of]

theorem sortConsumed_reversed_left :
    (of shape.reversed d).sortConsumed = (of shape d).sortConsumed := by
  rw [sortConsumed_of, sortConsumed_of, sortServed_reversed_left]
  exact if_congr .rfl (List.length_map _) rfl

theorem afterSort_reversed_left : afterSort shape.reversed d = afterSort shape d := by
  rw [afterSort, sortConsumed_reversed_left]
  rfl

theorem rangeBlock_reversed_left : rangeBlock shape.reversed d = rangeBlock shape d := by
  rw [rangeBlock, afterSort_reversed_left]
  rfl

/-! ## The match -/

/-- The scan of a match after a reversal: a scan that serves a sort goes the other way, and
any other one is as it was. -/
def turnedScan (m : IndexMatch) : ScanDirection :=
  if shape.sort ≠ [] ∧ m.sortServed = true then m.scan.reversed else m.scan

theorem turnedScan_of :
    turnedScan shape (of shape d) =
      ((scanFor? shape.sort (afterEquality shape d)).map (turnedFor shape.sort)).getD
        .forward := by
  rw [turnedScan, sortServed_of, scan_of]
  cases scanFor? shape.sort (afterEquality shape d) with
  | none => simp
  | some scan => by_cases hne : shape.sort = [] <;> simp [turnedFor, hne]

/-- The match of an index that is turned round. -/
theorem of_reversed :
    of shape d.reversed =
      { of shape d with
        scan := turnedScan shape (of shape d)
        unusedSuffix := (of shape d).unusedSuffix.map Key.reversed } := by
  have hcovered : (of shape d.reversed).coveredRange = (of shape d).coveredRange := by
    rw [coveredRange_of, coveredRange_of, rangeBlock_reversed, fieldNames_map_reversed]
  apply IndexMatch.ext
  case equalityConsumed =>
    rw [← length_equalityBlock, equalityBlock_reversed, List.length_map, length_equalityBlock]
  case sortServed => exact sortServed_reversed shape d
  case sortConsumed => exact sortConsumed_reversed shape d
  case scan => rw [scan_of, scanFor?_afterEquality_reversed, turnedScan_of]
  case coveredRange => exact hcovered
  case residualRange => rw [residualRange_of, residualRange_of, hcovered]
  case residualEquality =>
    rw [residualEquality_eq_filter, residualEquality_eq_filter, equalityBlock_reversed,
      fieldNames_map_reversed]
  case inMemorySort => rw [inMemorySort_of, inMemorySort_of, sortServed_reversed]
  case unusedSuffix =>
    rw [unusedSuffix_of, unusedSuffix_of, afterSort_reversed, rangeBlock_reversed,
      List.length_map, List.map_drop]

/-- The match of a query with its sort turned round. -/
theorem of_reversed_left :
    of shape.reversed d = { of shape d with scan := turnedScan shape (of shape d) } := by
  have hcovered : (of shape.reversed d).coveredRange = (of shape d).coveredRange := by
    rw [coveredRange_of, coveredRange_of, rangeBlock_reversed_left]
  apply IndexMatch.ext
  case equalityConsumed => rfl
  case sortServed => exact sortServed_reversed_left shape d
  case sortConsumed => exact sortConsumed_reversed_left shape d
  case scan => rw [scan_of, scanFor?_afterEquality_reversed_left, turnedScan_of]
  case coveredRange => exact hcovered
  case residualRange =>
    rw [residualRange_of, residualRange_of, hcovered]
    rfl
  case residualEquality => rfl
  case inMemorySort =>
    rw [inMemorySort_of, inMemorySort_of, sortServed_reversed_left, QueryShape.reversed,
      List.isEmpty_map]
  case unusedSuffix =>
    rw [unusedSuffix_of, unusedSuffix_of, afterSort_reversed_left, rangeBlock_reversed_left]

/-- **Directions matter only relative to each other.**  The match of an index that is turned
round is the match of the index, with the keys of the suffix turned round and with the
opposite scan if there is a sort and it is served, and else with the same scan.  A query with
its sort turned round has a shape iff the query has one, with the same equalities and ranges,
and nothing in its match with an index is different but the scan, under the same condition. -/
theorem reversal_symmetry (shape : QueryShape) (d : IndexDefinition)
    (predicates : List Predicate) (sort : List Key) :
    of shape d.reversed =
      { of shape d with
        scan := turnedScan shape (of shape d)
        unusedSuffix := (of shape d).unusedSuffix.map Key.reversed } ∧
    normalize predicates (sort.map Key.reversed) =
      (normalize predicates sort).map QueryShape.reversed ∧
    ((∃ s, normalize predicates (sort.map Key.reversed) = .ok s) ↔
      ∃ s, normalize predicates sort = .ok s) ∧
    of shape.reversed d = { of shape d with scan := turnedScan shape (of shape d) } := by
  have hnormalize := normalize_map_reversed predicates sort
  refine ⟨of_reversed shape d, hnormalize, ?_, of_reversed_left shape d⟩
  rw [hnormalize]
  cases normalize predicates sort with
  | error e => simp [Except.map]
  | ok s => simp [Except.map]

end IndexMatch

end IndexPlanner
