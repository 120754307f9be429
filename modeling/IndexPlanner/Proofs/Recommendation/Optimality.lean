import IndexPlanner.Proofs.IndexMatch.Blocks
import IndexPlanner.Recommendation

/-!
# The recommended index serves its query best

The recommended index lists the equalities of a query, then its sort, then its ranges, and a
query in which some field has a role always has such an index.  This file shows that its match
uses it for all that an index can be used for, and that no other index is used further.

* `of_eq_of_keys_eq_recommendedKeys`: the match of the recommended index, part by part.
* `Serves`: what it means that a match leaves nothing to be done but the ranges that no
  scan can bound.
* `exists_recommend_serves_best`: the recommended index serves its query, and no index has
  a longer block of equalities or is used further.
-/

namespace IndexPlanner

/-! ## The match of the recommendation -/

/-- The first name of an ascending list is its least one. -/
theorem Ascending.head?_eq_some_iff {fs : List String} (h : Ascending fs) {f : String} :
    fs.head? = some f ↔ f ∈ fs ∧ ∀ g ∈ fs, g = f ∨ Text.Before f g := by
  cases fs with
  | nil => simp
  | cons x xs =>
    have hx := (ascending_cons.1 h).1
    rw [List.head?_cons, Option.some.injEq]
    constructor
    · rintro rfl
      refine ⟨List.mem_cons_self, fun g hg => ?_⟩
      rcases List.mem_cons.1 hg with rfl | hg
      · exact .inl rfl
      · exact .inr (hx g hg)
    · rintro ⟨hf, hleast⟩
      rcases List.mem_cons.1 hf with rfl | hf
      · rfl
      · rcases hleast x List.mem_cons_self with heq | hbefore
        · exact heq
        · exact absurd (hx f hf) (Text.not_before_of_before hbefore)

/-- Of keys that are all on ranges the first one bounds the scan. -/
theorem IndexMatch.boundingKey_range (shape : QueryShape) :
    boundingKey shape (shape.range.fields.map Key.asc) =
      (shape.range.fields.take 1).map Key.asc := by
  cases hr : shape.range.fields with
  | nil => rfl
  | cons f fs =>
    have hf : shape.isRangeField (Key.asc f).field = true := by
      simp [QueryShape.isRangeField, hr]
    rw [List.map_cons, boundingKey_cons, if_pos hf, List.take_succ_cons, List.take_zero,
      List.map_cons, List.map_nil]

/-- Without repetitions, the members after the first one are those that are not it. -/
theorem mem_drop_one_iff {fs : List String} (h : fs.Nodup) {f : String} :
    f ∈ fs.drop 1 ↔ f ∈ fs ∧ fs.head? ≠ some f := by
  cases fs with
  | nil => simp
  | cons x xs =>
    have hx : x ∉ xs := (List.nodup_cons.1 h).1
    rw [List.drop_succ_cons, List.drop_zero, List.head?_cons, List.mem_cons, ne_eq,
      Option.some.injEq]
    constructor
    · intro hf
      exact ⟨.inr hf, fun heq => hx (heq ▸ hf)⟩
    · rintro ⟨hf | hf, hne⟩
      · exact absurd hf.symm hne
      · exact hf

/-- Taking the first member out by its value is taking it out by its place. -/
theorem filter_notMem_take_one {fs : List String} (h : fs.Nodup) :
    fs.filter (· ∉ fs.take 1) = fs.drop 1 := by
  cases fs with
  | nil => rfl
  | cons f fs =>
    have hf : f ∉ fs := (List.nodup_cons.1 h).1
    rw [List.take_succ_cons, List.take_zero, List.drop_succ_cons, List.drop_zero,
      List.filter_cons_of_neg (by simp)]
    refine List.filter_eq_self.2 fun g hg => ?_
    have hne : g ≠ f := fun heq => hf (heq ▸ hg)
    simp [hne]

/-- The match of an index with the recommended keys, part by part. -/
theorem IndexMatch.of_eq_of_keys_eq_recommendedKeys {shape : QueryShape}
    {d : IndexDefinition} (h : d.keys = recommendedKeys shape) :
    of shape d =
      { equalityConsumed := shape.equality.size
        sortServed := true
        sortConsumed := shape.sort.length
        scan := .forward
        coveredRange := shape.range.fields.take 1
        residualRange := shape.range.fields.drop 1
        residualEquality := []
        inMemorySort := false
        unusedSuffix := (shape.range.fields.drop 1).map Key.asc } := by
  have hkeys : d.keys = shape.equality.toList.map Key.asc ++
      (shape.sort ++ shape.range.fields.map Key.asc) := by
    rw [h, recommendedKeys, List.append_assoc]
  have hlead : (fieldNames (shape.equality.toList.map Key.asc)).Perm shape.equality.toList := by
    rw [fieldNames_map_asc]
  have hsuffix : (shape.range.fields.map Key.asc).drop (shape.range.fields.take 1).length =
      (shape.range.fields.drop 1).map Key.asc := by
    cases shape.range.fields <;> rfl
  rw [of_eq_of_blocks hkeys hlead, boundingKey_range, fieldNames_map_asc, List.length_map,
    filter_notMem_take_one shape.range.nodup_fields, hsuffix]

/-- A match that leaves nothing to be done for a query but the ranges that no scan can
bound. -/
structure IndexMatch.Serves (m : IndexMatch) (shape : QueryShape) : Prop where
  equalityConsumed : m.equalityConsumed = shape.equality.size
  residualEquality : m.residualEquality = []
  sortServed : m.sortServed = true
  scan : m.scan = .forward
  sortConsumed : m.sortConsumed = shape.sort.length
  inMemorySort : m.inMemorySort = false
  /-- The range that bounds the scan is the one with the least name. -/
  boundedRange?_eq_some_iff : ∀ f, m.boundedRange? = some f ↔
    f ∈ shape.range.fields ∧ ∀ g ∈ shape.range.fields, g = f ∨ Text.Before f g
  boundedRange?_eq_none_iff : m.boundedRange? = none ↔ shape.range.fields = []
  /-- All other ranges are left, and they are listed by name. -/
  mem_residualRange_iff : ∀ f, f ∈ m.residualRange ↔
    f ∈ shape.range.fields ∧ m.boundedRange? ≠ some f
  ascending_residualRange : Ascending m.residualRange
  /-- The keys that are not used are those on the ranges that are left. -/
  fieldNames_unusedSuffix : fieldNames m.unusedSuffix = m.residualRange
  isFullyCovered : m.isFullyCovered = true

/-- The recommended keys serve their query. -/
theorem IndexMatch.serves_of_keys_eq_recommendedKeys {shape : QueryShape}
    {d : IndexDefinition} (h : d.keys = recommendedKeys shape) :
    (of shape d).Serves shape := by
  have hasc : Ascending shape.range.fields := shape.range.ascending
  have hmatch := of_eq_of_keys_eq_recommendedKeys h
  have hbounded : (of shape d).boundedRange? = shape.range.fields.head? := by
    rw [hmatch, boundedRange?, List.head?_take, if_neg (by simp)]
  have hresidual : (of shape d).residualRange = shape.range.fields.drop 1 := by
    rw [hmatch]
  refine
    { equalityConsumed := by rw [hmatch]
      residualEquality := by rw [hmatch]
      sortServed := by rw [hmatch]
      scan := by rw [hmatch]
      sortConsumed := by rw [hmatch]
      inMemorySort := by rw [hmatch]
      boundedRange?_eq_some_iff := fun f => ?_
      boundedRange?_eq_none_iff := ?_
      mem_residualRange_iff := fun f => ?_
      ascending_residualRange := ?_
      fieldNames_unusedSuffix := ?_
      isFullyCovered := ?_ }
  · rw [hbounded]
    exact hasc.head?_eq_some_iff
  · rw [hbounded, List.head?_eq_none_iff]
  · rw [hresidual, hbounded]
    exact mem_drop_one_iff shape.range.nodup_fields
  · rw [hresidual]
    exact List.Pairwise.sublist (List.drop_sublist 1 _) hasc
  · rw [hmatch, fieldNames_map_asc]
  · -- with a range the first one is covered, and without one there is nothing to cover
    rw [hmatch]
    cases shape.range.fields with
    | nil => rfl
    | cons f fs => rfl

/-! ## No index is better -/

/-- The recommended keys are used as far as any index can be. -/
theorem IndexMatch.consumed_of_eq_of_keys_eq_recommendedKeys {shape : QueryShape}
    {d : IndexDefinition} (h : d.keys = recommendedKeys shape) :
    (of shape d).consumed =
      shape.equality.size + shape.sort.length + min 1 shape.range.size := by
  rw [of_eq_of_keys_eq_recommendedKeys h, consumed, List.length_take,
    RangeSet.length_fields]

/-- **The recommended index serves its query, and none serves it better.**  A query in
which some field has a role has a recommendation.  Its keys are the equalities in the order
of their names, the sort as it stands, and the ranges in the order of their names, with
every field of the query once.  It is used for all that it can be used for, and no index
has more of its keys used, be it for equalities or altogether. -/
theorem exists_recommend_serves_best (shape : QueryShape) (hne : shape.isEmpty = false) :
    ∃ d, recommend shape = .ok d ∧
      d.keys = shape.equality.toList.map Key.asc ++ shape.sort ++
        shape.range.fields.map Key.asc ∧
      Ascending shape.equality.toList ∧ Ascending shape.range.fields ∧
      (fieldNames d.keys).Nodup ∧
      (∀ f, f ∈ fieldNames d.keys ↔
        f ∈ shape.equality ∨ f ∈ fieldNames shape.sort ∨ f ∈ shape.range.fields) ∧
      (IndexMatch.of shape d).Serves shape ∧
      ∀ e : IndexDefinition,
        (IndexMatch.of shape e).equalityConsumed ≤ (IndexMatch.of shape d).equalityConsumed ∧
        (IndexMatch.of shape e).consumed ≤ (IndexMatch.of shape d).consumed := by
  obtain ⟨d, hd, hkeys⟩ := exists_recommend_eq_ok hne
  have hserves := IndexMatch.serves_of_keys_eq_recommendedKeys hkeys
  refine ⟨d, hd, hkeys, shape.equality.ascending, shape.range.ascending, ?_, ?_, hserves,
    fun e => ⟨?_, ?_⟩⟩
  · rw [hkeys]
    exact nodup_fieldNames_recommendedKeys shape
  · intro f
    rw [hkeys]
    exact mem_fieldNames_recommendedKeys
  · rw [hserves.equalityConsumed]
    exact IndexMatch.equalityConsumed_of_le shape e
  · rw [IndexMatch.consumed_of_eq_of_keys_eq_recommendedKeys hkeys]
    exact IndexMatch.consumed_of_le shape e

/-- The shape of a query for the paid orders of a customer that are over an amount and not
before a day, the latest first. -/
def paidOrders : QueryShape where
  equality := ⟨["customer", "status"], by decide⟩
  sort := [⟨"placed", .desc⟩]
  range := ⟨[⟨"amount", .strict, .unbounded⟩, ⟨"day", .inclusive, .unbounded⟩], by decide⟩
  nodup := by decide
  named := by decide

/-- A query that names its fields in another order, and one of them twice, has this shape,
and so it gets the index that its shape says. -/
theorem exists_recommend_serves_best_paidOrders :
    normalize
        [⟨"status", .eq (.string "paid")⟩, ⟨"day", .gte (.ofNat 7)⟩,
          ⟨"customer", .eq (.ofNat 9)⟩, ⟨"amount", .gt (.ofNat 5)⟩]
        [⟨"status", .asc⟩, ⟨"placed", .desc⟩] = .ok paidOrders ∧
      paidOrders.isEmpty = false ∧
      ∃ d, recommend paidOrders = .ok d ∧
        d.keys = [Key.asc "customer", Key.asc "status", ⟨"placed", .desc⟩, Key.asc "amount",
          Key.asc "day"] ∧
        (IndexMatch.of paidOrders d).boundedRange? = some "amount" ∧
        ∀ e, (IndexMatch.of paidOrders e).equalityConsumed ≤ 2 := by
  obtain ⟨d, hd, hkeys, -, -, -, -, hserves, hbest⟩ :=
    exists_recommend_serves_best paidOrders (by decide)
  refine ⟨rfl, by decide, d, hd, hkeys, ?_, fun e => ?_⟩
  · exact (hserves.boundedRange?_eq_some_iff "amount").2 (by decide)
  · have hle := (hbest e).1
    rw [hserves.equalityConsumed] at hle
    exact hle

end IndexPlanner
