import IndexPlanner.CostEstimate
import IndexPlanner.Proofs.IndexMatch.FullCoverage
import IndexPlanner.Proofs.QueryShape.Normalize

/-!
# What a query does not see of an index

A query does not see in which order an index has the keys for its equalities, nor their
directions, nor the direction of the key that bounds the scan.  Indexes that differ in nothing
else have the same match, and so the same costs.

The walk for the equalities looks up each field on its own and stops at the first one that is
not wanted, so it takes the keys in front in any order and none of those behind them.  What
may be turned behind them is a key on a range, and the fields of the sort have no range, so the
walk for the sort either does not meet that key or fails whatever its direction is.

* `SameUnless` says of two keys that they are the same unless they are on one field, and
  `Rearranged` says of two indexes that a query does not see where they differ.
* `walk_of_rearranged`: the first walk takes the keys in front again.
* `scanFor?_of_rearranged`: the second walk finds the same.
* `of_eq_of_rearranged`: the match and all estimates are the same.
-/

namespace IndexPlanner

/-- Two keys on the same field, and the same key unless that is the field given. -/
def SameUnless (field? : Option String) (k l : Key) : Prop :=
  l.field = k.field ∧ (field? = some k.field ∨ l = k)

namespace SameUnless

variable {field? : Option String} {ks ls : List Key}

theorem fieldNames_eq (h : List.Forall₂ (SameUnless field?) ks ls) :
    fieldNames ls = fieldNames ks := by
  induction h with
  | nil => rfl
  | cons hkl _ ih => rw [fieldNames_cons, fieldNames_cons, hkl.1, ih]

/-- Keys that are not on the field are the same. -/
theorem eq_of_forall_ne (h : List.Forall₂ (SameUnless field?) ks ls)
    (hne : ∀ k ∈ ks, field? ≠ some k.field) : ls = ks := by
  induction h with
  | nil => rfl
  | cons hkl _ ih =>
    obtain ⟨hk, hks⟩ := List.forall_mem_cons.1 hne
    rw [hkl.2.resolve_left hk, ih hks]

end SameUnless

namespace IndexMatch

/-- An index with other keys than another one where a query does not see it: the keys that
are used for equalities are on the same fields, in any order and directions, and the keys
behind them are the same, but the one that bounds the scan may have any direction. -/
structure Rearranged (shape : QueryShape) (d e : IndexDefinition) : Prop where
  front : (fieldNames (e.keys.take (of shape d).equalityConsumed)).Perm
    (fieldNames (d.keys.take (of shape d).equalityConsumed))
  back : List.Forall₂ (SameUnless (of shape d).boundedRange?)
    (d.keys.drop (of shape d).equalityConsumed) (e.keys.drop (of shape d).equalityConsumed)

variable {shape : QueryShape} {d e : IndexDefinition}

/-! ## The first walk -/

/-- The first walk takes the keys in front and stops behind them. -/
theorem walk_of_rearranged (h : Rearranged shape d e) :
    equalityBlock shape e = e.keys.take (of shape d).equalityConsumed ∧
      afterEquality shape e = e.keys.drop (of shape d).equalityConsumed := by
  refine walk_of_append (List.take_append_drop _ e.keys).symm ?_ ?_
  · intro k hk
    have hfield := h.front.subset (List.mem_map_of_mem hk)
    rw [take_equalityConsumed] at hfield
    obtain ⟨l, hl, hlk⟩ := List.mem_map.1 hfield
    rw [← hlk]
    exact field_mem_of_mem_equalityBlock hl
  · intro l hl
    have hback := h.back
    rw [drop_equalityConsumed] at hback
    cases hd : afterEquality shape d with
    | nil =>
      rw [hd, List.forall₂_nil_left_iff] at hback
      rw [hback] at hl
      simp at hl
    | cons k ks =>
      -- the keys behind the first block begin on the same field
      rw [hd] at hback
      cases he : e.keys.drop (of shape d).equalityConsumed with
      | nil =>
        rw [he] at hl
        simp at hl
      | cons l' ls =>
        rw [he] at hback hl
        obtain ⟨hkl, -⟩ := List.forall₂_cons.1 hback
        rw [List.head?_cons, Option.some.injEq] at hl
        rw [← hl, hkl.1]
        exact field_notMem_of_head?_afterEquality (by rw [hd, List.head?_cons])

theorem perm_equalityBlock_of_rearranged (h : Rearranged shape d e) :
    (fieldNames (equalityBlock shape e)).Perm (fieldNames (equalityBlock shape d)) := by
  rw [(walk_of_rearranged h).1, ← take_equalityConsumed shape d]
  exact h.front

theorem afterEquality_of_rearranged (h : Rearranged shape d e) :
    List.Forall₂ (SameUnless (of shape d).boundedRange?) (afterEquality shape d)
      (afterEquality shape e) := by
  rw [(walk_of_rearranged h).2, ← drop_equalityConsumed shape d]
  exact h.back

/-! ## The second walk -/

theorem mem_range_of_boundedRange? {f : String} (hf : (of shape d).boundedRange? = some f) :
    f ∈ shape.range.fields := by
  refine (perm_range shape d).subset (List.mem_append_left _ ?_)
  exact List.mem_of_head? hf

/-- Keys on the fields of the sort are seen as they are. -/
theorem take_afterEquality_of_rearranged (h : Rearranged shape d e)
    (hfields : fieldNames ((afterEquality shape d).take shape.sort.length) =
      fieldNames shape.sort) :
    (afterEquality shape e).take shape.sort.length =
      (afterEquality shape d).take shape.sort.length := by
  refine SameUnless.eq_of_forall_ne (List.forall₂_take _ (afterEquality_of_rearranged h)) ?_
  intro k hk hbounded
  have hsort : k.field ∈ fieldNames shape.sort := by
    rw [← hfields]
    exact List.mem_map_of_mem hk
  exact shape.disjoint_roles.2.1 k.field hsort (mem_range_of_boundedRange? hbounded)

/-- The second walk finds the same. -/
theorem scanFor?_of_rearranged (h : Rearranged shape d e) :
    scanFor? shape.sort (afterEquality shape e) =
      scanFor? shape.sort (afterEquality shape d) := by
  by_cases hne : shape.sort = []
  · rw [hne, scanFor?_nil, scanFor?_nil]
  · have hfields := SameUnless.fieldNames_eq
      (List.forall₂_take shape.sort.length (afterEquality_of_rearranged h))
    ext scan
    rw [scanFor?_eq_some_iff hne, scanFor?_eq_some_iff hne]
    -- in either index the keys have to be on the fields of the sort, and then they are the same
    constructor
    · intro hgives
      have hsame := take_afterEquality_of_rearranged h (hfields ▸ hgives.fieldNames_eq)
      rwa [hsame] at hgives
    · intro hgives
      rwa [take_afterEquality_of_rearranged h hgives.fieldNames_eq]

theorem sortServed_of_rearranged (h : Rearranged shape d e) :
    (of shape e).sortServed = (of shape d).sortServed := by
  rw [sortServed_of, sortServed_of, scanFor?_of_rearranged h]

theorem sortConsumed_of_rearranged (h : Rearranged shape d e) :
    (of shape e).sortConsumed = (of shape d).sortConsumed := by
  rw [sortConsumed_of, sortConsumed_of, sortServed_of_rearranged h]

theorem afterSort_of_rearranged (h : Rearranged shape d e) :
    List.Forall₂ (SameUnless (of shape d).boundedRange?) (afterSort shape d)
      (afterSort shape e) := by
  rw [afterSort, afterSort, sortConsumed_of_rearranged h]
  exact List.forall₂_drop _ (afterEquality_of_rearranged h)

/-! ## The key for a range -/

/-- Which field bounds a scan does not depend on directions. -/
theorem fieldNames_boundingKey {ks ls : List Key} (shape : QueryShape)
    (h : fieldNames ls = fieldNames ks) :
    fieldNames (boundingKey shape ls) = fieldNames (boundingKey shape ks) := by
  cases ks with
  | nil =>
    obtain rfl : ls = [] := List.map_eq_nil_iff.1 h
    rfl
  | cons k ks =>
    cases ls with
    | nil => exact absurd h.symm (List.cons_ne_nil _ _)
    | cons l ls =>
      have hfield : l.field = k.field := (List.cons.inj h).1
      rw [boundingKey_cons, boundingKey_cons, hfield]
      split
      · rw [fieldNames_cons, fieldNames_cons, hfield, fieldNames_nil]
      · rfl

theorem coveredRange_of_rearranged (h : Rearranged shape d e) :
    (of shape e).coveredRange = (of shape d).coveredRange := by
  rw [coveredRange_of, coveredRange_of]
  exact fieldNames_boundingKey shape (SameUnless.fieldNames_eq (afterSort_of_rearranged h))

/-- The field that bounds the scan is not in the suffix. -/
theorem boundedRange?_ne_of_mem_unusedSuffix {k : Key} (hk : k ∈ (of shape d).unusedSuffix) :
    (of shape d).boundedRange? ≠ some k.field := by
  intro hbounded
  have hcovered : k.field ∈ fieldNames (rangeBlock shape d) := List.mem_of_head? hbounded
  have hnodup : (fieldNames d.keys).Nodup := d.nodup
  rw [keys_eq_blocks shape d, List.append_assoc, fieldNames_append, fieldNames_append]
    at hnodup
  have hlast := (List.nodup_append.1 hnodup).2.1
  rw [fieldNames_append] at hlast
  exact (List.nodup_append.1 hlast).2.2 k.field hcovered k.field (List.mem_map_of_mem hk) rfl

theorem unusedSuffix_of_rearranged (h : Rearranged shape d e) :
    (of shape e).unusedSuffix = (of shape d).unusedSuffix := by
  have hlength : (rangeBlock shape e).length = (rangeBlock shape d).length := by
    have hcovered := coveredRange_of_rearranged h
    rw [coveredRange_of, coveredRange_of] at hcovered
    rw [← length_fieldNames, hcovered, length_fieldNames]
  have hsame := List.forall₂_drop (rangeBlock shape d).length (afterSort_of_rearranged h)
  rw [unusedSuffix_of, hlength]
  exact SameUnless.eq_of_forall_ne hsame fun k hk => boundedRange?_ne_of_mem_unusedSuffix hk

/-! ## The match and its costs -/

/-- **A query does not see the order of its equalities.**  An index in which the keys for the
equalities of a query stand in another order or have other directions, and in which the key
that bounds the scan may have another direction, has the same match in every part, and so
the same estimate for all statistics and configurations. -/
theorem of_eq_of_rearranged (shape : QueryShape) (d e : IndexDefinition)
    (h : Rearranged shape d e) :
    of shape e = of shape d ∧
      ∀ (stats : CorpusStats) (config : PlannerConfig),
        CostEstimate.of shape (of shape e) stats config =
          CostEstimate.of shape (of shape d) stats config := by
  have hcovered := coveredRange_of_rearranged h
  have hserved := sortServed_of_rearranged h
  have hperm := perm_equalityBlock_of_rearranged h
  have hmatch : of shape e = of shape d := by
    apply IndexMatch.ext
    case equalityConsumed =>
      rw [← length_equalityBlock, ← length_equalityBlock, ← length_fieldNames, hperm.length_eq,
        length_fieldNames]
    case sortServed => exact hserved
    case sortConsumed => exact sortConsumed_of_rearranged h
    case scan => rw [scan_of, scan_of, scanFor?_of_rearranged h]
    case coveredRange => exact hcovered
    case residualRange => rw [residualRange_of, residualRange_of, hcovered]
    case residualEquality =>
      rw [residualEquality_eq_filter, residualEquality_eq_filter]
      exact List.filter_congr fun f _ => decide_eq_decide.2 (not_congr hperm.mem_iff)
    case inMemorySort => rw [inMemorySort_of, inMemorySort_of, hserved]
    case unusedSuffix => exact unusedSuffix_of_rearranged h
  refine ⟨hmatch, ?_⟩
  intro stats config
  rw [hmatch]

/-- An index like `ordersByCustomer`, with the customers first and the earliest days last. -/
def ordersByStatus : IndexDefinition where
  name := "orders_by_status"
  keys := [⟨"customer", .desc⟩, ⟨"status", .desc⟩, ⟨"placed", .asc⟩, ⟨"day", .asc⟩,
    ⟨"note", .asc⟩]
  named := by decide
  nodup := by decide
  fieldsNamed := by decide

/-- Paid orders do not see the differences between the two indexes. -/
theorem of_eq_of_rearranged_paidOrders :
    Rearranged paidOrders ordersByCustomer ordersByStatus ∧
      (of paidOrders ordersByCustomer).boundedRange? = some "day" ∧
      of paidOrders ordersByStatus = of paidOrders ordersByCustomer := by
  have hconsumed : (of paidOrders ordersByCustomer).equalityConsumed = 2 := by decide
  have hbounded : (of paidOrders ordersByCustomer).boundedRange? = some "day" := by decide
  have h : Rearranged paidOrders ordersByCustomer ordersByStatus := by
    constructor
    · rw [hconsumed]
      decide
    · rw [hconsumed, hbounded]
      exact .cons ⟨rfl, .inr rfl⟩ (.cons ⟨rfl, .inl rfl⟩ (.cons ⟨rfl, .inr rfl⟩ .nil))
  exact ⟨h, hbounded, (of_eq_of_rearranged paidOrders ordersByCustomer ordersByStatus h).1⟩

end IndexMatch

end IndexPlanner
