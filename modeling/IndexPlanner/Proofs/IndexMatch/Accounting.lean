import IndexPlanner.Proofs.IndexMatch.Blocks
import Mathlib.Data.List.Forall2

/-!
# A match accounts for everything once

A match reports lengths, flags and what is left over.  This file says what stands behind the
report: the keys of the index fall into a block for the equalities, a block for the sort, at
most one key for a range, and the suffix that is of no use, and the fields of the query fall
into those that a block is on and those that are left to be checked.  Nothing is lost and
nothing is used twice.

* `ScanDirection.Gives` says that keys, one by one, are those of a sort, read in a
  direction, and `scanFor?_eq_some_iff` that this is what the second walk looks for.
* `equalityBlock`, `sortBlock` and `rangeBlock` are the three blocks, and by `keys_eq_blocks`
  they are, with the suffix, all keys of the index.
* `equalityBlock_eq_takeWhile`, `sortBlock_ne_nil_iff`, `rangeBlock_cases`: which keys the
  blocks are.
* `perm_equality`, `perm_range`: where the fields of the query are.
* `exists_accounts_of`: all this as one account of a match.
-/

namespace IndexPlanner

/-! ## Keys that give a sort -/

namespace ScanDirection

/-- A key as a scan meets it. -/
def turn : ScanDirection → Key → Key
  | forward, k => k
  | backward, k => k.reversed

/-- Keys give a sort when they are scanned in a direction: one by one they are on its fields,
and all of them have its directions or, for a backward scan, all have the opposite ones. -/
def Gives (scan : ScanDirection) (keys sort : List Key) : Prop :=
  List.Forall₂ (fun k s => k.field = s.field ∧ k.direction = (scan.turn s).direction) keys sort

variable {scan : ScanDirection} {keys sort : List Key}

@[simp] theorem field_turn (scan : ScanDirection) (k : Key) : (scan.turn k).field = k.field := by
  cases scan <;> rfl

theorem gives_iff_eq_map : scan.Gives keys sort ↔ keys = sort.map scan.turn := by
  have hkey : ∀ k s : Key, k.field = s.field ∧ k.direction = (scan.turn s).direction ↔
      k = scan.turn s := by
    rintro ⟨f, direction⟩ s
    rw [← field_turn scan s]
    cases scan.turn s
    simp
  simp only [Gives, hkey]
  rw [← List.forall₂_map_right_iff (R := Eq), List.forall₂_eq_eq_eq]

/-- The keys in front of others give a sort iff the others begin with the sort as the scan
meets it. -/
theorem prefix_iff_gives :
    sort.map scan.turn <+: keys ↔ scan.Gives (keys.take sort.length) sort := by
  rw [gives_iff_eq_map, List.prefix_iff_eq_take, List.length_map, eq_comm]

theorem Gives.length_eq (h : scan.Gives keys sort) : keys.length = sort.length :=
  List.Forall₂.length_eq h

theorem Gives.fieldNames_eq (h : scan.Gives keys sort) : fieldNames keys = fieldNames sort := by
  rw [gives_iff_eq_map.1 h, fieldNames, fieldNames, List.map_map]
  exact List.map_congr_left fun s _ => field_turn scan s

/-- No keys give a sort in both directions, unless it is empty. -/
theorem not_gives_both (keys : List Key) (hne : sort ≠ []) :
    ¬ (forward.Gives keys sort ∧ backward.Gives keys sort) := by
  rintro ⟨hforward, hbackward⟩
  obtain ⟨s, rest, rfl⟩ := List.exists_cons_of_ne_nil hne
  rw [gives_iff_eq_map] at hforward hbackward
  have hhead := (List.cons.inj (hforward.symm.trans hbackward)).1
  exact s.direction.reversed_ne (congrArg Key.direction hhead).symm

/-- The direction in which keys give a sort is determined by them, unless it is empty. -/
theorem Gives.scan_eq {other : ScanDirection} (h : scan.Gives keys sort)
    (hother : other.Gives keys sort) (hne : sort ≠ []) : scan = other := by
  have hboth := not_gives_both keys hne
  cases scan with
  | forward =>
    cases other with
    | forward => rfl
    | backward => exact absurd ⟨h, hother⟩ hboth
  | backward =>
    cases other with
    | forward => exact absurd ⟨hother, h⟩ hboth
    | backward => rfl

end ScanDirection

open ScanDirection (prefix_iff_gives)

/-- A scan in a direction is found for a sort iff the first keys give it in that direction. -/
theorem scanFor?_eq_some_iff {sort keys : List Key} {scan : ScanDirection} (hne : sort ≠ []) :
    scanFor? sort keys = some scan ↔ scan.Gives (keys.take sort.length) sort := by
  have hforward : sort.isPrefixOf keys = true ↔
      ScanDirection.forward.Gives (keys.take sort.length) sort := by
    rw [← prefix_iff_gives, List.isPrefixOf_iff_prefix]
    exact iff_of_eq (congrArg (· <+: keys) (List.map_id sort).symm)
  have hbackward : (sort.map Key.reversed).isPrefixOf keys = true ↔
      ScanDirection.backward.Gives (keys.take sort.length) sort := by
    rw [← prefix_iff_gives, List.isPrefixOf_iff_prefix]
    exact .rfl
  have hboth := ScanDirection.not_gives_both (keys.take sort.length) hne
  rw [scanFor?]
  split
  · next hpre =>
    have hf := hforward.1 hpre
    cases scan with
    | forward => simp [hf]
    | backward => simpa using fun hb => hboth ⟨hf, hb⟩
  · next hpre =>
    have hf := mt hforward.2 hpre
    split
    · next hpre' =>
      have hb := hbackward.1 hpre'
      cases scan <;> simp [hf, hb]
    · next hpre' =>
      have hb := mt hbackward.2 hpre'
      cases scan <;> simp [hf, hb]

namespace IndexMatch

attribute [ext] IndexMatch

variable (shape : QueryShape) (d : IndexDefinition)

/-! ## The blocks of an index -/

/-- The keys of an index that a query uses for its equalities. -/
def equalityBlock : List Key := (splitEquality shape.equality.toList d.keys).leading

/-- The keys after the block for the equalities. -/
def afterEquality : List Key := (splitEquality shape.equality.toList d.keys).rest

/-- The keys of an index that a query uses for its sort. -/
def sortBlock : List Key := (afterEquality shape d).take (of shape d).sortConsumed

/-- The keys after the block for the sort. -/
def afterSort : List Key := (afterEquality shape d).drop (of shape d).sortConsumed

/-- The key of an index that bounds the scan of a query. -/
def rangeBlock : List Key := boundingKey shape (afterSort shape d)

theorem keys_eq_equalityBlock_append :
    d.keys = equalityBlock shape d ++ afterEquality shape d :=
  (leading_append_rest_splitEquality shape.equality.toList d.keys).symm

theorem afterEquality_eq_sortBlock_append :
    afterEquality shape d = sortBlock shape d ++ afterSort shape d :=
  (List.take_append_drop _ _).symm

/-- The key that bounds a scan is the first of the keys. -/
theorem boundingKey_append_drop (ks : List Key) :
    boundingKey shape ks ++ ks.drop (boundingKey shape ks).length = ks := by
  cases ks with
  | nil => rfl
  | cons k ks =>
    rw [boundingKey_cons]
    split <;> rfl

theorem unusedSuffix_of :
    (of shape d).unusedSuffix = (afterSort shape d).drop (rangeBlock shape d).length := rfl

theorem afterSort_eq_rangeBlock_append :
    afterSort shape d = rangeBlock shape d ++ (of shape d).unusedSuffix :=
  (boundingKey_append_drop shape (afterSort shape d)).symm

/-- The blocks and the suffix are all keys of the index, in their order. -/
theorem keys_eq_blocks : d.keys =
    equalityBlock shape d ++ sortBlock shape d ++ rangeBlock shape d ++
      (of shape d).unusedSuffix := by
  rw [List.append_assoc, ← afterSort_eq_rangeBlock_append, List.append_assoc,
    ← afterEquality_eq_sortBlock_append, ← keys_eq_equalityBlock_append]

/-! ## The block for the equalities -/

theorem length_equalityBlock : (equalityBlock shape d).length = (of shape d).equalityConsumed :=
  rfl

theorem take_equalityConsumed :
    d.keys.take (of shape d).equalityConsumed = equalityBlock shape d := by
  conv_lhs => rw [keys_eq_equalityBlock_append shape d]
  exact List.take_left

theorem drop_equalityConsumed :
    d.keys.drop (of shape d).equalityConsumed = afterEquality shape d := by
  conv_lhs => rw [keys_eq_equalityBlock_append shape d]
  exact List.drop_left

/-- An index names no field twice, so its block for the equalities goes as far as there are
equalities. -/
theorem equalityBlock_eq_takeWhile :
    equalityBlock shape d = d.keys.takeWhile fun k => k.field ∈ shape.equality :=
  leading_splitEquality_eq_takeWhile shape.equality.toList d.nodup

/-- Each equality is in the block or left to be checked, and none is both. -/
theorem perm_equality :
    (fieldNames (equalityBlock shape d) ++ (of shape d).residualEquality).Perm
      shape.equality.toList :=
  perm_leading_append_pending shape.equality.toList d.keys

theorem ascending_residualEquality : Ascending (of shape d).residualEquality :=
  List.Pairwise.sublist (pending_sublist shape.equality.toList d.keys) shape.equality.ascending

/-- The keys after the block begin with the first one on a field without equality. -/
theorem afterEquality_eq_dropWhile :
    afterEquality shape d = d.keys.dropWhile fun k => k.field ∈ shape.equality := by
  have hsplit := keys_eq_equalityBlock_append shape d
  rw [equalityBlock_eq_takeWhile] at hsplit
  have hwhile := List.takeWhile_append_dropWhile (p := fun k => decide (k.field ∈ shape.equality))
    (l := d.keys)
  exact List.append_cancel_left (hsplit.symm.trans hwhile.symm)

variable {shape d}

theorem field_mem_of_mem_equalityBlock {k : Key} (h : k ∈ equalityBlock shape d) :
    k.field ∈ shape.equality := field_mem_of_mem_leading h

theorem field_notMem_of_head?_afterEquality {k : Key}
    (h : (afterEquality shape d).head? = some k) : k.field ∉ shape.equality := by
  have hstop := List.head?_dropWhile_not (fun k => decide (k.field ∈ shape.equality)) d.keys
  rw [← afterEquality_eq_dropWhile, h] at hstop
  exact of_decide_eq_false hstop

/-- The walk stops where the keys on equalities end. -/
theorem walk_of_append {lead rest : List Key} (hkeys : d.keys = lead ++ rest)
    (hlead : ∀ k ∈ lead, k.field ∈ shape.equality)
    (hrest : ∀ k, rest.head? = some k → k.field ∉ shape.equality) :
    equalityBlock shape d = lead ∧ afterEquality shape d = rest := by
  have hstop : rest.takeWhile (fun k => k.field ∈ shape.equality) = [] := by
    cases rest with
    | nil => rfl
    | cons k ks => exact List.takeWhile_cons_of_neg (by simpa using hrest k rfl)
  have hblock : equalityBlock shape d = lead := by
    rw [equalityBlock_eq_takeWhile, hkeys,
      List.takeWhile_append_of_pos (by simpa using hlead), hstop, List.append_nil]
  have hsplit := keys_eq_equalityBlock_append shape d
  rw [hblock, hkeys] at hsplit
  exact ⟨hblock, (List.append_cancel_left hsplit).symm⟩

variable (shape d)

/-- What is left is the equalities in their order, without those in the block. -/
theorem residualEquality_eq_filter :
    (of shape d).residualEquality =
      shape.equality.toList.filter (· ∉ fieldNames (equalityBlock shape d)) := by
  have hperm := perm_equality shape d
  have hnodup := hperm.nodup_iff.2 shape.equality.nodup_toList
  have hasc : Ascending
      (shape.equality.toList.filter (· ∉ fieldNames (equalityBlock shape d))) :=
    List.Pairwise.sublist List.filter_sublist shape.equality.ascending
  refine (ascending_residualEquality shape d).eq hasc fun f => ?_
  have hapart := (List.nodup_append.1 hnodup).2.2
  rw [List.mem_filter, ← hperm.mem_iff, List.mem_append, decide_eq_true_eq]
  constructor
  · intro hf
    exact ⟨.inr hf, fun hblock => hapart f hblock f hf rfl⟩
  · rintro ⟨hf, hnot⟩
    exact hf.resolve_left hnot

/-! ## The block for the sort -/

/-- The scan that is found for the sort. -/
theorem sortServed_of :
    (of shape d).sortServed = (scanFor? shape.sort (afterEquality shape d)).isSome := rfl

theorem sortConsumed_of : (of shape d).sortConsumed =
    if (of shape d).sortServed = true then shape.sort.length else 0 := rfl

theorem scan_of : (of shape d).scan =
    (scanFor? shape.sort (afterEquality shape d)).getD .forward := rfl

theorem inMemorySort_of :
    (of shape d).inMemorySort = (!shape.sort.isEmpty && !(of shape d).sortServed) := by
  rw [sortServed_of, Option.not_isSome]
  rfl

variable {shape d}

/-- A sort that is not empty is served iff the next keys give it in some direction. -/
theorem sortServed_iff (hne : shape.sort ≠ []) :
    (of shape d).sortServed = true ↔ ∃ scan : ScanDirection,
      scan.Gives ((afterEquality shape d).take shape.sort.length) shape.sort := by
  rw [sortServed_of, Option.isSome_iff_exists]
  exact exists_congr fun scan => scanFor?_eq_some_iff hne

/-- An empty sort is served by every index. -/
theorem sortServed_of_sort_eq_nil (h : shape.sort = []) : (of shape d).sortServed = true := by
  rw [sortServed_of, h, scanFor?_nil]
  rfl

theorem sortConsumed_of_sortServed (h : (of shape d).sortServed = true) :
    (of shape d).sortConsumed = shape.sort.length := by
  rw [sortConsumed_of, if_pos h]

theorem sortConsumed_of_not_sortServed (h : (of shape d).sortServed = false) :
    (of shape d).sortConsumed = 0 := by
  rw [sortConsumed_of, if_neg (by simp [h])]

/-- The block of a sort that is served is the next keys, as many as the sort has. -/
theorem sortBlock_of_sortServed (h : (of shape d).sortServed = true) :
    sortBlock shape d = (afterEquality shape d).take shape.sort.length := by
  rw [sortBlock, sortConsumed_of_sortServed h]

theorem sortBlock_of_not_sortServed (h : (of shape d).sortServed = false) :
    sortBlock shape d = [] := by
  rw [sortBlock, sortConsumed_of_not_sortServed h, List.take_zero]

/-- The block of a sort that is served gives the sort, in the direction of the scan. -/
theorem gives_sortBlock (h : (of shape d).sortServed = true) :
    (of shape d).scan.Gives (sortBlock shape d) shape.sort := by
  rw [sortBlock_of_sortServed h]
  by_cases hne : shape.sort = []
  · rw [hne]
    exact .nil
  · rw [sortServed_of, Option.isSome_iff_exists] at h
    obtain ⟨scan, hscan⟩ := h
    rw [scan_of, hscan, Option.getD_some]
    exact (scanFor?_eq_some_iff hne).1 hscan

variable (shape d) in
theorem length_sortBlock : (sortBlock shape d).length = (of shape d).sortConsumed := by
  cases h : (of shape d).sortServed with
  | true => rw [(gives_sortBlock h).length_eq, sortConsumed_of_sortServed h]
  | false =>
    rw [sortBlock_of_not_sortServed h, sortConsumed_of_not_sortServed h, List.length_nil]

/-- The block for the sort is empty iff there is no sort or it is not served. -/
theorem sortBlock_ne_nil_iff :
    sortBlock shape d ≠ [] ↔ shape.sort ≠ [] ∧ (of shape d).sortServed = true := by
  cases h : (of shape d).sortServed with
  | true =>
    have hlen := (gives_sortBlock h).length_eq
    rw [and_iff_left rfl, ne_eq, ne_eq, ← List.length_eq_zero_iff, hlen, List.length_eq_zero_iff]
  | false => simp [sortBlock_of_not_sortServed h]

/-- The results have to be sorted iff there is a sort and no block for it. -/
theorem inMemorySort_iff :
    (of shape d).inMemorySort = true ↔ shape.sort ≠ [] ∧ sortBlock shape d = [] := by
  rw [inMemorySort_of]
  cases h : (of shape d).sortServed with
  | true =>
    -- a sort that is served and has keys has a block
    have hblock : shape.sort ≠ [] → sortBlock shape d ≠ [] := fun hne =>
      sortBlock_ne_nil_iff.2 ⟨hne, h⟩
    simpa using hblock
  | false => simp [sortBlock_of_not_sortServed h]

/-- A sort is served iff it need not be done after the scan. -/
theorem sortServed_eq_not_inMemorySort :
    (of shape d).sortServed = !(of shape d).inMemorySort := by
  rw [inMemorySort_of]
  by_cases hne : shape.sort = []
  · rw [sortServed_of_sort_eq_nil hne, hne]
    rfl
  · cases (of shape d).sortServed <;> simp [hne]

theorem inMemorySort_eq_false_iff :
    (of shape d).inMemorySort = false ↔ (of shape d).sortServed = true := by
  rw [sortServed_eq_not_inMemorySort, Bool.not_eq_true']

/-- Without a block for the sort the scan is a forward one. -/
theorem scan_eq_forward_of_sortBlock_eq_nil (h : sortBlock shape d = []) :
    (of shape d).scan = .forward := by
  rw [scan_of]
  by_cases hne : shape.sort = []
  · rw [hne, scanFor?_nil]
    rfl
  · have hserved : ¬ (of shape d).sortServed = true := fun hserved =>
      sortBlock_ne_nil_iff.2 ⟨hne, hserved⟩ h
    rw [sortServed_of, Bool.not_eq_true, Option.isSome_eq_false_iff, Option.isNone_iff_eq_none]
      at hserved
    rw [hserved]
    rfl

variable (shape d)

/-! ## The key for a range -/

theorem coveredRange_of : (of shape d).coveredRange = fieldNames (rangeBlock shape d) := rfl

theorem residualRange_of : (of shape d).residualRange =
    shape.range.fields.filter (· ∉ (of shape d).coveredRange) := rfl

/-- The key after the block for the sort bounds the scan if it is on a range, and otherwise
no key does. -/
theorem rangeBlock_cases :
    (∃ k, rangeBlock shape d = [k] ∧ k.field ∈ shape.range.fields) ∨
      rangeBlock shape d = [] ∧
        ∀ k, (of shape d).unusedSuffix.head? = some k → k.field ∉ shape.range.fields := by
  have hsplit := afterSort_eq_rangeBlock_append shape d
  rw [rangeBlock] at hsplit ⊢
  cases hks : afterSort shape d with
  | nil =>
    rw [hks, boundingKey_nil, List.nil_append] at hsplit
    refine .inr ⟨boundingKey_nil shape, fun k hk => ?_⟩
    rw [← hsplit] at hk
    simp at hk
  | cons k ks =>
    rw [hks, boundingKey_cons] at hsplit
    rw [boundingKey_cons]
    by_cases hk : shape.isRangeField k.field = true
    · rw [if_pos hk]
      exact .inl ⟨k, rfl, of_decide_eq_true hk⟩
    · rw [if_neg hk, List.nil_append] at hsplit
      rw [if_neg hk]
      refine .inr ⟨rfl, fun l hl hmem => hk ?_⟩
      rw [← hsplit, List.head?_cons, Option.some.injEq] at hl
      rw [hl]
      exact decide_eq_true hmem

/-- Each range bounds the scan or is left to be checked, and none is both. -/
theorem perm_range :
    ((of shape d).coveredRange ++ (of shape d).residualRange).Perm shape.range.fields := by
  rw [residualRange_of, coveredRange_of]
  rcases rangeBlock_cases shape d with ⟨k, hk, hmem⟩ | ⟨hnil, -⟩
  · have herase : shape.range.fields.filter (· ∉ fieldNames [k]) =
        shape.range.fields.erase k.field := by
      rw [shape.range.nodup_fields.erase_eq_filter]
      exact List.filter_congr fun f _ => by simp [fieldNames, bne, beq_eq_decide]
    rw [hk, herase]
    exact (List.perm_cons_erase hmem).symm
  · rw [hnil, fieldNames_nil, List.nil_append, List.filter_eq_self.2 (by simp)]

theorem ascending_residualRange : Ascending (of shape d).residualRange :=
  List.Pairwise.sublist List.filter_sublist shape.range.ascending

/-! ## The account -/

/-- As many keys are used as the blocks have. -/
theorem consumed_eq_length_blocks : (of shape d).consumed =
    (equalityBlock shape d ++ sortBlock shape d ++ rangeBlock shape d).length := by
  rw [consumed, List.length_append, List.length_append, length_equalityBlock, length_sortBlock,
    coveredRange_of, length_fieldNames]

/-- An account of a match: which keys of the index it uses for what, and where the fields of
the query are. -/
structure Accounts (m : IndexMatch) (shape : QueryShape) (keys lead block bounding : List Key) :
    Prop where
  /-- Every key is in one of the blocks or in the suffix. -/
  keys_eq : keys = lead ++ block ++ bounding ++ m.unusedSuffix
  length_lead : lead.length = m.equalityConsumed
  length_block : block.length = m.sortConsumed
  length_used : (lead ++ block ++ bounding).length = m.consumed
  /-- The first block goes as far as there are equalities. -/
  lead_eq : lead = keys.takeWhile fun k => k.field ∈ shape.equality
  /-- There is a second block iff there is a sort and the next keys, as many as it has, give
  it in some direction. -/
  block_ne_nil_iff : block ≠ [] ↔ shape.sort ≠ [] ∧ ∃ scan : ScanDirection,
    scan.Gives ((keys.drop lead.length).take shape.sort.length) shape.sort
  /-- The direction of the scan is the one in which the second block gives the sort. -/
  scan_eq_iff : block ≠ [] → ∀ scan, m.scan = scan ↔ scan.Gives block shape.sort
  scan_eq_forward : block = [] → m.scan = .forward
  /-- The next key bounds the scan if it is on a range, and otherwise no key does. -/
  bounding_cases : (∃ k, bounding = [k] ∧ k.field ∈ shape.range.fields) ∨
    bounding = [] ∧ ∀ k, m.unusedSuffix.head? = some k → k.field ∉ shape.range.fields
  /-- Each equality is in the first block or left, and none is both. -/
  perm_equality : (fieldNames lead ++ m.residualEquality).Perm shape.equality.toList
  coveredRange : m.coveredRange = fieldNames bounding
  length_coveredRange : m.coveredRange.length ≤ 1
  /-- Each range bounds the scan or is left, and none is both. -/
  perm_range : (m.coveredRange ++ m.residualRange).Perm shape.range.fields
  ascending_residualEquality : Ascending m.residualEquality
  ascending_residualRange : Ascending m.residualRange
  /-- There is something to be sorted after the scan iff there is a sort and no block for
  it. -/
  inMemorySort_iff : m.inMemorySort = true ↔ shape.sort ≠ [] ∧ block = []
  sortServed : m.sortServed = !m.inMemorySort

/-- **A match accounts for everything once.**  The keys of an index are the block for the
equalities of a query, the block for its sort, at most one key for a range, and the suffix
that the match reports.  The first block is the longest one in front on fields with an
equality.  The second one is all of the sort, read in one direction, or nothing, and the
third one is there iff the next key is on a range.  The fields of the query are in the blocks
or reported as left, each once.  No keys but those of an empty sort give a sort in both
directions. -/
theorem exists_accounts_of (shape : QueryShape) (d : IndexDefinition) :
    (∃ lead block bounding, (of shape d).Accounts shape d.keys lead block bounding) ∧
    ∀ keys, shape.sort ≠ [] →
      ¬ (ScanDirection.forward.Gives keys shape.sort ∧
        ScanDirection.backward.Gives keys shape.sort) := by
  refine ⟨⟨equalityBlock shape d, sortBlock shape d, rangeBlock shape d, ?_⟩,
    ScanDirection.not_gives_both⟩
  have hdrop : d.keys.drop (equalityBlock shape d).length = afterEquality shape d := by
    conv_lhs => rw [keys_eq_equalityBlock_append shape d]
    exact List.drop_left
  refine
    { keys_eq := keys_eq_blocks shape d
      length_lead := length_equalityBlock shape d
      length_block := length_sortBlock shape d
      length_used := (consumed_eq_length_blocks shape d).symm
      lead_eq := equalityBlock_eq_takeWhile shape d
      block_ne_nil_iff := ?_
      scan_eq_iff := fun hblock scan => ?_
      scan_eq_forward := scan_eq_forward_of_sortBlock_eq_nil
      bounding_cases := rangeBlock_cases shape d
      perm_equality := perm_equality shape d
      coveredRange := coveredRange_of shape d
      length_coveredRange := ?_
      perm_range := perm_range shape d
      ascending_residualEquality := ascending_residualEquality shape d
      ascending_residualRange := ascending_residualRange shape d
      inMemorySort_iff := inMemorySort_iff
      sortServed := sortServed_eq_not_inMemorySort }
  · rw [sortBlock_ne_nil_iff, hdrop]
    exact and_congr_right fun hne => sortServed_iff hne
  · obtain ⟨hne, hserved⟩ := sortBlock_ne_nil_iff.1 hblock
    have hgives := gives_sortBlock hserved
    exact ⟨fun hscan => hscan ▸ hgives, fun hother => hgives.scan_eq hother hne⟩
  · exact Nat.le_trans (length_coveredRange_of_le shape d) (Nat.min_le_left 1 _)

end IndexMatch

end IndexPlanner
