import IndexPlanner.Proofs.IndexMatch.Accounting
import IndexPlanner.Proofs.Recommendation.Optimality

/-!
# What it takes to serve a query in full

A match says that an index serves a query in full if it has left no equality, no sort and no
need of a range.  It finds that out by walking over the keys once, from the front.  This file
shows that nothing depends on how it walks: an index serves a query in full iff its keys can
be split at all into the parts that the query needs, and iff as many of its keys are used as
a query can use.

* `FullSplit` says that keys begin with parts for all that a query needs.
* `isFullyCovered_iff`: what a full match is, in terms of the three blocks.
* `FullSplit.isFullyCovered`: whatever split there is, the walk finds one.
* `isFullyCovered_iff_consumed_eq` and `consumed_le_usableKeys`: a full match is one that uses
  the greatest number of keys.
* `isFullyCovered_iff_split_and_greatest`: all this, with what it means for short indexes and
  for a query that needs nothing.
-/

namespace IndexPlanner

/-- The number of keys that a query can use of one index: one for each equality, all of the
sort, and one if there is a range. -/
def QueryShape.usableKeys (shape : QueryShape) : Nat :=
  shape.equality.size + shape.sort.length + min 1 shape.range.size

/-- Keys that begin with parts for all that a query needs: its equalities in any order, its
sort read in one direction, and one of its ranges if it has any. -/
structure FullSplit (shape : QueryShape) (keys lead block bounding rest : List Key) : Prop where
  keys_eq : keys = lead ++ block ++ bounding ++ rest
  /-- The fields of the first part are those with an equality, each once. -/
  perm_lead : (fieldNames lead).Perm shape.equality.toList
  gives_block : ∃ scan : ScanDirection, scan.Gives block shape.sort
  bounding_cases : shape.range.fields = [] ∧ bounding = [] ∨
    ∃ k, bounding = [k] ∧ k.field ∈ shape.range.fields

namespace IndexMatch

variable {shape : QueryShape} {d : IndexDefinition}

/-! ## Full matches -/

/-- All equalities are in front iff none is left to be checked. -/
theorem residualEquality_eq_nil_iff :
    (of shape d).residualEquality = [] ↔
      (fieldNames (equalityBlock shape d)).Perm shape.equality.toList := by
  have hperm := perm_equality shape d
  constructor
  · intro h
    rwa [h, List.append_nil] at hperm
  · intro h
    have hlen := hperm.length_eq
    rw [List.length_append, h.length_eq] at hlen
    exact List.length_eq_zero_iff.1 (by omega)

/-- A match needs no range or has one. -/
theorem hasRange_covered_iff :
    (!(of shape d).hasRange || (of shape d).boundedRange?.isSome) = true ↔
      shape.range.fields = [] ∨ rangeBlock shape d ≠ [] := by
  have hperm := perm_range shape d
  rw [hasRange, boundedRange?]
  rw [coveredRange_of] at hperm ⊢
  cases hblock : rangeBlock shape d with
  | nil =>
    rw [hblock, fieldNames_nil, List.nil_append] at hperm
    cases hresidual : (of shape d).residualRange with
    | nil =>
      rw [hresidual] at hperm
      simp [hperm.nil_eq.symm]
    | cons f fs =>
      have hne : shape.range.fields ≠ [] := fun hnil => by
        rw [hnil, hresidual] at hperm
        exact List.cons_ne_nil f fs hperm.eq_nil
      simp [hne]
  | cons k ks => simp

/-- A match is full iff all equalities are in its first block, the sort is served, and it
has a key for a range if there is one. -/
theorem isFullyCovered_iff :
    (of shape d).isFullyCovered = true ↔
      (fieldNames (equalityBlock shape d)).Perm shape.equality.toList ∧
      (of shape d).sortServed = true ∧
      (shape.range.fields = [] ∨ rangeBlock shape d ≠ []) := by
  rw [isFullyCovered, Bool.and_eq_true, Bool.and_eq_true, hasRange_covered_iff,
    List.isEmpty_iff, residualEquality_eq_nil_iff, sortServed_eq_not_inMemorySort, and_assoc]

/-! ## Splits -/

/-- The blocks of a full match are a split. -/
theorem fullSplit_of_isFullyCovered (h : (of shape d).isFullyCovered = true) :
    FullSplit shape d.keys (equalityBlock shape d) (sortBlock shape d) (rangeBlock shape d)
      (of shape d).unusedSuffix := by
  obtain ⟨hlead, hserved, hrange⟩ := isFullyCovered_iff.1 h
  refine ⟨keys_eq_blocks shape d, hlead, ⟨_, gives_sortBlock hserved⟩, ?_⟩
  rcases rangeBlock_cases shape d with hbounding | ⟨hnil, -⟩
  · exact .inr hbounding
  · exact .inl ⟨hrange.resolve_right fun hne => hne hnil, hnil⟩

end IndexMatch

namespace FullSplit

open IndexMatch

variable {shape : QueryShape} {d : IndexDefinition} {lead block bounding rest : List Key}

/-- The first walk takes exactly the first part of a split. -/
theorem splitEquality_eq (h : FullSplit shape d.keys lead block bounding rest) :
    splitEquality shape.equality.toList d.keys = ⟨lead, [], block ++ (bounding ++ rest)⟩ := by
  rw [h.keys_eq, List.append_assoc, List.append_assoc]
  exact splitEquality_append_of_perm h.perm_lead _

theorem equalityBlock_eq (h : FullSplit shape d.keys lead block bounding rest) :
    equalityBlock shape d = lead := by
  rw [equalityBlock, h.splitEquality_eq]

theorem afterEquality_eq (h : FullSplit shape d.keys lead block bounding rest) :
    afterEquality shape d = block ++ (bounding ++ rest) := by
  rw [afterEquality, h.splitEquality_eq]

theorem length_block (h : FullSplit shape d.keys lead block bounding rest) :
    block.length = shape.sort.length := by
  obtain ⟨scan, hscan⟩ := h.gives_block
  exact hscan.length_eq

/-- The second walk stands before the second part and finds the sort there. -/
theorem sortServed (h : FullSplit shape d.keys lead block bounding rest) :
    (of shape d).sortServed = true := by
  by_cases hne : shape.sort = []
  · exact sortServed_of_sort_eq_nil hne
  · obtain ⟨scan, hscan⟩ := h.gives_block
    refine (sortServed_iff hne).2 ⟨scan, ?_⟩
    rw [h.afterEquality_eq, List.take_left' h.length_block]
    exact hscan

theorem afterSort_eq (h : FullSplit shape d.keys lead block bounding rest) :
    afterSort shape d = bounding ++ rest := by
  rw [afterSort, h.afterEquality_eq, sortConsumed_of_sortServed h.sortServed,
    List.drop_left' h.length_block]

/-- If there is a range, the key before which the second walk stops is on one. -/
theorem range_covered (h : FullSplit shape d.keys lead block bounding rest) :
    shape.range.fields = [] ∨ rangeBlock shape d ≠ [] := by
  rcases h.bounding_cases with ⟨hnil, -⟩ | ⟨k, hk, hmem⟩
  · exact .inl hnil
  · right
    have hfield : shape.isRangeField k.field = true := decide_eq_true hmem
    rw [rangeBlock, h.afterSort_eq, hk, List.singleton_append, boundingKey_cons, if_pos hfield]
    exact List.cons_ne_nil k []

/-- A match does not miss a split of the keys. -/
theorem isFullyCovered (h : FullSplit shape d.keys lead block bounding rest) :
    (of shape d).isFullyCovered = true := by
  refine isFullyCovered_iff.2 ⟨?_, h.sortServed, h.range_covered⟩
  rw [h.equalityBlock_eq]
  exact h.perm_lead

end FullSplit

namespace IndexMatch

variable {shape : QueryShape} {d : IndexDefinition}

/-! ## Numbers of keys -/

theorem perm_equalityBlock_iff :
    (fieldNames (equalityBlock shape d)).Perm shape.equality.toList ↔
      (of shape d).equalityConsumed = shape.equality.size := by
  have hlen := (perm_equality shape d).length_eq
  rw [List.length_append, length_fieldNames, length_equalityBlock] at hlen
  rw [← residualEquality_eq_nil_iff, ← List.length_eq_zero_iff, FieldSet.size]
  omega

theorem sortServed_iff_sortConsumed_eq :
    (of shape d).sortServed = true ↔ (of shape d).sortConsumed = shape.sort.length := by
  rw [sortConsumed_of]
  cases hserved : (of shape d).sortServed with
  | true => simp
  | false =>
    -- a sort that is not served has keys, because an empty one is served by every index
    have hne : shape.sort ≠ [] := fun hnil => by
      rw [sortServed_of_sort_eq_nil hnil] at hserved
      simp at hserved
    have hpos := List.length_pos_iff.2 hne
    simp only [Bool.false_eq_true, if_false, false_iff]
    omega

theorem range_covered_iff :
    (shape.range.fields = [] ∨ rangeBlock shape d ≠ []) ↔
      (of shape d).coveredRange.length = min 1 shape.range.size := by
  have hle := length_coveredRange_of_le shape d
  rw [coveredRange_of, length_fieldNames, ← RangeSet.length_fields] at hle ⊢
  rw [ne_eq, ← List.length_eq_zero_iff, ← List.length_eq_zero_iff]
  omega

/-- A match is full iff it uses as many keys as a query can use. -/
theorem isFullyCovered_iff_consumed_eq :
    (of shape d).isFullyCovered = true ↔ (of shape d).consumed = shape.usableKeys := by
  have hequality := equalityConsumed_of_le shape d
  have hsort := sortConsumed_of_le shape d
  have hrange := length_coveredRange_of_le shape d
  rw [isFullyCovered_iff, perm_equalityBlock_iff, sortServed_iff_sortConsumed_eq,
    range_covered_iff, consumed, QueryShape.usableKeys]
  omega

variable (shape d)

/-- No match uses more keys than a query can use. -/
theorem consumed_le_usableKeys : (of shape d).consumed ≤ shape.usableKeys :=
  consumed_of_le shape d

/-- No match uses more keys than the index has. -/
theorem consumed_le_length : (of shape d).consumed ≤ d.keys.length := by
  rw [consumed_eq_length_blocks]
  conv_rhs => rw [keys_eq_blocks shape d, List.length_append]
  exact Nat.le_add_right _ _

/-- Some index has as many of its keys used as a query can use. -/
theorem exists_consumed_eq_usableKeys : ∃ e, (of shape e).consumed = shape.usableKeys := by
  let e : IndexDefinition :=
    { name := "recommended"
      keys := recommendedKeys shape
      named := by decide
      nodup := nodup_fieldNames_recommendedKeys shape
      fieldsNamed := field_ne_empty_of_mem_recommendedKeys }
  exact ⟨e, consumed_of_eq_of_keys_eq_recommendedKeys rfl⟩

/-- **What a full match is.**  An index serves a query in full iff its keys can be split into
the equalities in any order, the sort in one direction, a range if there is one, and any
rest.  It does so iff as many of its keys are used as a query can use; that is the greatest
number of keys that are used of any index.  So an index with fewer keys never does, and
every index serves a query in full that needs nothing. -/
theorem isFullyCovered_iff_split_and_greatest :
    ((of shape d).isFullyCovered = true ↔
      ∃ lead block bounding rest, FullSplit shape d.keys lead block bounding rest) ∧
    ((of shape d).isFullyCovered = true ↔ (of shape d).consumed = shape.usableKeys) ∧
    ((∀ e, (of shape e).consumed ≤ shape.usableKeys) ∧
      ∃ e, (of shape e).consumed = shape.usableKeys) ∧
    (d.keys.length < shape.usableKeys → (of shape d).isFullyCovered = false) ∧
    (shape.isEmpty = true → (of shape d).isFullyCovered = true) := by
  refine ⟨⟨fun h => ⟨_, _, _, _, fullSplit_of_isFullyCovered h⟩, ?_⟩,
    isFullyCovered_iff_consumed_eq,
    ⟨consumed_le_usableKeys shape, exists_consumed_eq_usableKeys shape⟩, fun hshort => ?_,
    fun hempty => ?_⟩
  · rintro ⟨lead, block, bounding, rest, hsplit⟩
    exact hsplit.isFullyCovered
  · rw [← Bool.not_eq_true, isFullyCovered_iff_consumed_eq]
    have hle := consumed_le_length shape d
    omega
  · have hcount : shape.fieldCount = 0 := of_decide_eq_true hempty
    have hle := consumed_le_usableKeys shape d
    rw [QueryShape.fieldCount] at hcount
    rw [isFullyCovered_iff_consumed_eq]
    rw [QueryShape.usableKeys] at hle ⊢
    omega

/-- An index on orders by state and customer, in which the earliest orders come first. -/
def ordersByCustomer : IndexDefinition where
  name := "orders_by_customer"
  keys := [⟨"status", .desc⟩, ⟨"customer", .asc⟩, ⟨"placed", .asc⟩, ⟨"day", .desc⟩,
    ⟨"note", .asc⟩]
  named := by decide
  nodup := by decide
  fieldsNamed := by decide

/-- The equalities of a query may stand in another order, its sort may be read backwards, and
any of its ranges may come next. -/
theorem isFullyCovered_iff_split_and_greatest_paidOrders :
    (of paidOrders ordersByCustomer).scan = .backward ∧
      (of paidOrders ordersByCustomer).isFullyCovered = true ∧
      (of paidOrders ordersByCustomer).consumed = 4 ∧
      ∀ e : IndexDefinition, e.keys.length < 4 → (of paidOrders e).isFullyCovered = false := by
  have hsplit : FullSplit paidOrders ordersByCustomer.keys
      [⟨"status", .desc⟩, ⟨"customer", .asc⟩] [⟨"placed", .asc⟩] [⟨"day", .desc⟩]
      [⟨"note", .asc⟩] :=
    { keys_eq := rfl
      perm_lead := by decide
      gives_block := ⟨.backward, .cons ⟨rfl, rfl⟩ .nil⟩
      bounding_cases := .inr ⟨_, rfl, by decide⟩ }
  obtain ⟨hiff, hconsumed, -⟩ := isFullyCovered_iff_split_and_greatest paidOrders ordersByCustomer
  have hcovered := hiff.2 ⟨_, _, _, _, hsplit⟩
  refine ⟨by decide, hcovered, hconsumed.1 hcovered, fun e he => ?_⟩
  exact (isFullyCovered_iff_split_and_greatest paidOrders e).2.2.2.1 he

end IndexMatch

end IndexPlanner
