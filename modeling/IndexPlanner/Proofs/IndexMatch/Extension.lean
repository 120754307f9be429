import IndexPlanner.Proofs.IndexMatch.FullCoverage
import IndexPlanner.Proofs.QueryShape.Normalize

/-!
# More keys at the end never hurt

An index is extended by putting keys behind those that it has.  The match of the longer index
is found by the same walks, and what one walk takes is lost to the walks after it, so it has
to be shown that nothing which the shorter index had obtained is lost again.

The reason is where the walks can go further.  The first one does only if it had used up the
shorter index, which then had nothing left for a sort or a range.  The second one finds a sort
where there was none only if its fields come next, and they are not on a range, so no range
had been bounded either.

* `equalityBlock_mono`, `afterEquality_mono`: the first walk goes at least as far, and if it
  had ended before the last key it ends there again.
* `scanFor?_afterEquality_of_extension`: a sort that was served is served in the same direction.
* `rangeBlock_eq_nil_or_eq`: a key that bounded the scan still does.
* `keeps_of_extension`: the longer index keeps all that the shorter one has obtained.
-/

namespace IndexPlanner

/-- Keys that give a sort are found again if there are more keys behind them. -/
theorem scanFor?_mono {sort keys more : List Key} {scan : ScanDirection}
    (h : keys <+: more) (hscan : scanFor? sort keys = some scan) :
    scanFor? sort more = some scan := by
  by_cases hne : sort = []
  · rw [hne, scanFor?_nil] at hscan ⊢
    exact hscan
  · rw [scanFor?_eq_some_iff hne, ← ScanDirection.prefix_iff_gives] at hscan ⊢
    exact hscan.trans h

namespace IndexMatch

/-- More keys behind the first one do not change whether it bounds a scan. -/
theorem boundingKey_of_extension (shape : QueryShape) {ks ls : List Key} (h : ks <+: ls)
    (hne : ks ≠ []) : boundingKey shape ls = boundingKey shape ks := by
  obtain ⟨k, ks, rfl⟩ := List.exists_cons_of_ne_nil hne
  obtain ⟨more, rfl⟩ := h
  rw [List.cons_append, boundingKey_cons, boundingKey_cons]

variable (shape : QueryShape) {d e : IndexDefinition}

/-! ## The block for the equalities -/

/-- The first walk goes at least as far. -/
theorem equalityBlock_mono (h : d.keys <+: e.keys) :
    equalityBlock shape d <+: equalityBlock shape e := by
  obtain ⟨more, hmore⟩ := h
  rw [equalityBlock_eq_takeWhile, equalityBlock_eq_takeWhile, ← hmore, List.takeWhile_append]
  split
  · exact (List.takeWhile_prefix _).trans (List.prefix_append _ _)
  · exact List.prefix_rfl

/-- A walk that ended before the last key of the shorter index ends there again. -/
theorem afterEquality_mono (h : d.keys <+: e.keys) (hne : afterEquality shape d ≠ []) :
    afterEquality shape d <+: afterEquality shape e := by
  obtain ⟨more, hmore⟩ := h
  have hkeys : e.keys = equalityBlock shape d ++ (afterEquality shape d ++ more) := by
    rw [← List.append_assoc, ← keys_eq_equalityBlock_append, hmore]
  have hstop : ∀ k, (afterEquality shape d ++ more).head? = some k →
      k.field ∉ shape.equality := by
    intro k hk
    rw [List.head?_append_of_ne_nil _ hne] at hk
    exact field_notMem_of_head?_afterEquality hk
  have hafter := (walk_of_append hkeys (fun k => field_mem_of_mem_equalityBlock) hstop).2
  rw [hafter]
  exact List.prefix_append _ _

/-! ## The block for the sort -/

/-- What was found for a sort that is served is found again. -/
theorem scanFor?_afterEquality_of_extension (h : d.keys <+: e.keys)
    (hserved : (of shape d).sortServed = true) :
    scanFor? shape.sort (afterEquality shape e) =
      scanFor? shape.sort (afterEquality shape d) := by
  by_cases hsort : shape.sort = []
  · rw [hsort, scanFor?_nil, scanFor?_nil]
  · have hne : afterEquality shape d ≠ [] := by
      intro hnil
      refine sortBlock_ne_nil_iff.2 ⟨hsort, hserved⟩ ?_
      rw [sortBlock, hnil, List.take_nil]
    rw [sortServed_of, Option.isSome_iff_exists] at hserved
    obtain ⟨scan, hscan⟩ := hserved
    rw [hscan]
    exact scanFor?_mono (afterEquality_mono shape h hne) hscan

theorem sortServed_mono (h : d.keys <+: e.keys) (hserved : (of shape d).sortServed = true) :
    (of shape e).sortServed = true := by
  rw [sortServed_of, scanFor?_afterEquality_of_extension shape h hserved, ← sortServed_of]
  exact hserved

theorem scan_of_extension (h : d.keys <+: e.keys) (hserved : (of shape d).sortServed = true) :
    (of shape e).scan = (of shape d).scan := by
  rw [scan_of, scan_of, scanFor?_afterEquality_of_extension shape h hserved]

theorem sortConsumed_mono (h : d.keys <+: e.keys) :
    (of shape d).sortConsumed ≤ (of shape e).sortConsumed := by
  cases hserved : (of shape d).sortServed with
  | true =>
    have hsame : (of shape d).sortConsumed = (of shape e).sortConsumed := by
      rw [sortConsumed_of_sortServed hserved,
        sortConsumed_of_sortServed (sortServed_mono shape h hserved)]
    exact Nat.le_of_eq hsame
  | false =>
    have hzero := sortConsumed_of_not_sortServed hserved
    omega

/-- A key on a range serves no sort. -/
theorem sort_eq_nil_of_sortServed {k : Key} (hserved : (of shape d).sortServed = true)
    (hhead : (afterEquality shape d).head? = some k) (hrange : k.field ∈ shape.range.fields) :
    shape.sort = [] := by
  by_contra hne
  have hblock : (sortBlock shape d).head? = some k := by
    rw [afterEquality_eq_sortBlock_append,
      List.head?_append_of_ne_nil _ (sortBlock_ne_nil_iff.2 ⟨hne, hserved⟩)] at hhead
    exact hhead
  have hsort : k.field ∈ fieldNames shape.sort := by
    rw [← (gives_sortBlock hserved).fieldNames_eq]
    exact List.mem_map_of_mem (List.mem_of_head? hblock)
  exact shape.disjoint_roles.2.1 k.field hsort hrange

/-! ## The key for a range -/

/-- Keys after the sort come after the equalities. -/
theorem afterEquality_ne_nil_of_head? {k : Key} (hhead : (afterSort shape d).head? = some k) :
    afterEquality shape d ≠ [] := by
  intro hnil
  rw [afterSort, hnil, List.drop_nil, List.head?_nil] at hhead
  exact Option.some_ne_none k hhead.symm

/-- If the shorter index has a key on a range next, then the second walk ends before it in
the longer index as well. -/
theorem sortConsumed_of_extension {k : Key} (h : d.keys <+: e.keys)
    (hhead : (afterSort shape d).head? = some k) (hrange : k.field ∈ shape.range.fields) :
    (of shape e).sortConsumed = (of shape d).sortConsumed := by
  cases hserved : (of shape d).sortServed with
  | true =>
    rw [sortConsumed_of_sortServed hserved,
      sortConsumed_of_sortServed (sortServed_mono shape h hserved)]
  | false =>
    -- the key comes right after the equalities, so the longer index has it there too
    have hne := afterEquality_ne_nil_of_head? shape hhead
    have hzero := sortConsumed_of_not_sortServed hserved
    rw [afterSort, hzero, List.drop_zero] at hhead
    obtain ⟨more, hmore⟩ := afterEquality_mono shape h hne
    have hhead' : (afterEquality shape e).head? = some k := by
      rw [← hmore, List.head?_append_of_ne_nil _ hne, hhead]
    rw [hzero, sortConsumed_of]
    split
    · next hserved' => rw [sort_eq_nil_of_sortServed shape hserved' hhead' hrange, List.length_nil]
    · rfl

/-- A key that bounded the scan still does. -/
theorem rangeBlock_eq_nil_or_eq (h : d.keys <+: e.keys) :
    rangeBlock shape d = [] ∨ rangeBlock shape e = rangeBlock shape d := by
  rcases rangeBlock_cases shape d with ⟨k, hk, hrange⟩ | ⟨hnil, -⟩
  · right
    have hsplit := afterSort_eq_rangeBlock_append shape d
    rw [hk, List.singleton_append] at hsplit
    have hhead : (afterSort shape d).head? = some k := by
      rw [hsplit, List.head?_cons]
    obtain ⟨more, hmore⟩ :=
      afterEquality_mono shape h (afterEquality_ne_nil_of_head? shape hhead)
    have hafter : afterSort shape d <+: afterSort shape e := by
      rw [afterSort, afterSort, sortConsumed_of_extension shape h hhead hrange, ← hmore,
        List.drop_append]
      exact List.prefix_append _ _
    refine boundingKey_of_extension shape hafter ?_
    rw [hsplit]
    exact List.cons_ne_nil _ _
  · exact .inl hnil

theorem coveredRange_eq_nil_or_eq (h : d.keys <+: e.keys) :
    (of shape d).coveredRange = [] ∨ (of shape e).coveredRange = (of shape d).coveredRange := by
  rw [coveredRange_of, coveredRange_of]
  rcases rangeBlock_eq_nil_or_eq shape h with hnil | heq
  · left
    rw [hnil, fieldNames_nil]
  · right
    rw [heq]

/-! ## The match as a whole -/

/-- What is left to be checked of the equalities is no more than it was. -/
theorem residualEquality_subset (h : d.keys <+: e.keys) :
    (of shape e).residualEquality ⊆ (of shape d).residualEquality := by
  intro f hf
  rw [residualEquality_eq_filter, List.mem_filter, decide_eq_true_eq] at hf ⊢
  obtain ⟨hmem, hnot⟩ := hf
  refine ⟨hmem, fun hblock => hnot ?_⟩
  exact ((equalityBlock_mono shape h).map _).subset hblock

/-- What is left to be checked of the ranges is no more than it was. -/
theorem residualRange_subset (h : d.keys <+: e.keys) :
    (of shape e).residualRange ⊆ (of shape d).residualRange := by
  intro f hf
  rw [residualRange_of, List.mem_filter, decide_eq_true_eq] at hf ⊢
  obtain ⟨hmem, hnot⟩ := hf
  refine ⟨hmem, fun hcovered => hnot ?_⟩
  rcases coveredRange_eq_nil_or_eq shape h with hnil | heq
  · rw [hnil] at hcovered
    exact absurd hcovered List.not_mem_nil
  · rw [heq]
    exact hcovered

theorem consumed_mono (h : d.keys <+: e.keys) :
    (of shape d).consumed ≤ (of shape e).consumed := by
  have hequality : (of shape d).equalityConsumed ≤ (of shape e).equalityConsumed :=
    (equalityBlock_mono shape h).length_le
  have hsort := sortConsumed_mono shape h
  have hrange : (of shape d).coveredRange.length ≤ (of shape e).coveredRange.length := by
    rcases coveredRange_eq_nil_or_eq shape h with hnil | heq
    · rw [hnil, List.length_nil]
      omega
    · exact Nat.le_of_eq (congrArg _ heq.symm)
  rw [consumed, consumed]
  omega

/-- A match of a query keeps all that another one has obtained, and leaves nothing to be done
after the scan that the other one does not leave. -/
structure Keeps (m m' : IndexMatch) (shape : QueryShape) : Prop where
  equalityConsumed : m'.equalityConsumed ≤ m.equalityConsumed
  residualEquality : m.residualEquality ⊆ m'.residualEquality
  inMemorySort : m'.inMemorySort = false → m.inMemorySort = false
  /-- A sort that is not empty and was served is served by the same scan. -/
  scan : shape.sort ≠ [] → m'.sortServed = true → m.scan = m'.scan
  boundedRange? : ∀ f, m'.boundedRange? = some f → m.boundedRange? = some f
  residualRange : m.residualRange ⊆ m'.residualRange
  consumed : m'.consumed ≤ m.consumed
  isFullyCovered : m'.isFullyCovered = true → m.isFullyCovered = true

/-- **More keys at the end never hurt.**  An index that begins with the keys of another one
keeps everything that the other one has obtained for a query: the equalities in front, the
sort with the direction of its scan, the range that bounds the scan, and with these a match
in full. -/
theorem keeps_of_extension (shape : QueryShape) (d e : IndexDefinition)
    (h : d.keys <+: e.keys) : (of shape e).Keeps (of shape d) shape := by
  refine
    { equalityConsumed := (equalityBlock_mono shape h).length_le
      residualEquality := residualEquality_subset shape h
      inMemorySort := fun hsort => ?_
      scan := fun _ hserved => scan_of_extension shape h hserved
      boundedRange? := fun f hf => ?_
      residualRange := residualRange_subset shape h
      consumed := consumed_mono shape h
      isFullyCovered := fun hfull => ?_ }
  · rw [inMemorySort_eq_false_iff] at hsort ⊢
    exact sortServed_mono shape h hsort
  · rcases coveredRange_eq_nil_or_eq shape h with hnil | heq
    · rw [IndexMatch.boundedRange?, hnil, List.head?_nil] at hf
      exact absurd hf.symm (Option.some_ne_none f)
    · rw [IndexMatch.boundedRange?, heq]
      exact hf
  · -- no match uses more keys than a full one
    rw [isFullyCovered_iff_consumed_eq] at hfull ⊢
    have hle := consumed_mono shape h
    have hmost := consumed_le_usableKeys shape e
    omega

/-- The first keys of `ordersByCustomer`. -/
def ordersByPlaced : IndexDefinition where
  name := "orders_by_placed"
  keys := [⟨"status", .desc⟩, ⟨"customer", .asc⟩, ⟨"placed", .asc⟩]
  named := by decide
  nodup := by decide
  fieldsNamed := by decide

/-- Two more keys bound the scan by a day and leave the equalities and the backward scan as
they were. -/
theorem keeps_of_extension_paidOrders :
    ordersByPlaced.keys <+: ordersByCustomer.keys ∧
      (of paidOrders ordersByPlaced).scan = .backward ∧
      (of paidOrders ordersByPlaced).residualRange = ["amount", "day"] ∧
      (of paidOrders ordersByCustomer).residualRange = ["amount"] ∧
      (of paidOrders ordersByCustomer).Keeps (of paidOrders ordersByPlaced) paidOrders :=
  have hkeys : ordersByPlaced.keys <+: ordersByCustomer.keys := ⟨_, rfl⟩
  ⟨hkeys, by decide, by decide, by decide,
    keeps_of_extension paidOrders ordersByPlaced ordersByCustomer hkeys⟩

end IndexMatch

end IndexPlanner
