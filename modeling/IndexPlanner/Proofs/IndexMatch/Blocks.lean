import IndexPlanner.IndexMatch

/-!
# The three blocks of a match

A match uses up the keys of an index from the front: a block for the equalities, a block
for the sort, and at most one key for a range.  This file says what each of the three
walks does to any list of keys, so that nothing that is said about matches later has to
open them again.

* `perm_leading_append_pending`: the fields that the first walk has met and those that it
  still misses are together the wanted ones, each once.
* `leading_splitEquality_eq_takeWhile`: the first walk takes the longest block in front that
  is on wanted fields, if no field comes twice.
* `splitEquality_append_of_perm`: keys whose fields are the wanted ones, in any order, are
  exactly what the walk takes, whatever stands after them.
* `prefix_of_scanFor?_eq_forward`, `prefix_of_scanFor?_eq_backward`: what a scan direction
  says about the keys.
* `of_eq_of_blocks`: the match of an index that has all equalities in front and the sort
  after them.
* `equalityConsumed_of_le`, `consumed_of_le`: no index is used further than a query has
  equalities, sort keys and one range.
-/

namespace IndexPlanner

/-! ## The block of equalities -/

/-- Without wanted fields no key is taken. -/
@[simp] theorem splitEquality_no_wanted (ks : List Key) :
    splitEquality [] ks = ⟨[], [], ks⟩ := by
  cases ks with
  | nil => rfl
  | cons k ks => exact splitEquality_cons_of_not_mem List.not_mem_nil

/-- The fields that were met and those that are pending are together the wanted ones. -/
theorem perm_leading_append_pending (wanted : List String) (ks : List Key) :
    (fieldNames (splitEquality wanted ks).leading ++
      (splitEquality wanted ks).pending).Perm wanted := by
  induction ks generalizing wanted with
  | nil => exact .refl _
  | cons k ks ih =>
    by_cases hk : k.field ∈ wanted
    · rw [splitEquality_cons_of_mem hk]
      exact ((ih (wanted.erase k.field)).cons k.field).trans (List.perm_cons_erase hk).symm
    · rw [splitEquality_cons_of_not_mem hk]
      exact .refl _

/-- A key that is taken is on a wanted field. -/
theorem field_mem_of_mem_leading {wanted : List String} {ks : List Key} {k : Key}
    (h : k ∈ (splitEquality wanted ks).leading) : k.field ∈ wanted := by
  have hmet : k.field ∈ fieldNames (splitEquality wanted ks).leading := List.mem_map_of_mem h
  exact (perm_leading_append_pending wanted ks).subset (List.mem_append_left _ hmet)

/-- No more keys are taken than there are wanted fields. -/
theorem length_leading_le (wanted : List String) (ks : List Key) :
    (splitEquality wanted ks).leading.length ≤ wanted.length := by
  have h := (perm_leading_append_pending wanted ks).length_eq
  rw [List.length_append, length_fieldNames] at h
  omega

/-- What is pending is the wanted fields in their order, without those that were met. -/
theorem pending_sublist (wanted : List String) (ks : List Key) :
    (splitEquality wanted ks).pending.Sublist wanted := by
  induction ks generalizing wanted with
  | nil => exact List.Sublist.refl wanted
  | cons k ks ih =>
    by_cases hk : k.field ∈ wanted
    · rw [splitEquality_cons_of_mem hk]
      exact (ih (wanted.erase k.field)).trans List.erase_sublist
    · have hstop : (splitEquality wanted (k :: ks)).pending = wanted :=
        congrArg _ (splitEquality_cons_of_not_mem hk)
      simp only [hstop, List.Sublist.refl]

/-- The walk looks up each field among those that it still misses.  For keys on distinct
fields that is the same as looking it up among all that are wanted. -/
theorem leading_splitEquality_of_agree {wanted all : List String} {ks : List Key}
    (hks : (fieldNames ks).Nodup) (hagree : ∀ k ∈ ks, k.field ∈ wanted ↔ k.field ∈ all) :
    (splitEquality wanted ks).leading = ks.takeWhile fun k => k.field ∈ all := by
  -- a field that was met is no longer among the wanted ones, but no later key is on it
  induction ks generalizing wanted with
  | nil => rfl
  | cons k ks ih =>
    obtain ⟨hfresh, hks⟩ := List.nodup_cons.1 hks
    have hk := hagree k List.mem_cons_self
    by_cases hmem : k.field ∈ all
    · have hagree' : ∀ l ∈ ks, l.field ∈ wanted.erase k.field ↔ l.field ∈ all := by
        intro l hl
        have hne : l.field ≠ k.field := fun heq => hfresh (List.mem_map.2 ⟨l, hl, heq⟩)
        rw [List.mem_erase_of_ne hne]
        exact hagree l (List.mem_cons_of_mem k hl)
      rw [splitEquality_cons_of_mem (hk.2 hmem), ih hks hagree',
        List.takeWhile_cons_of_pos (by simpa using hmem)]
    · rw [splitEquality_cons_of_not_mem (mt hk.1 hmem),
        List.takeWhile_cons_of_neg (by simpa using hmem)]

/-- From keys on distinct fields the walk takes the longest block in front that is on wanted
fields. -/
theorem leading_splitEquality_eq_takeWhile (wanted : List String) {ks : List Key}
    (h : (fieldNames ks).Nodup) :
    (splitEquality wanted ks).leading = ks.takeWhile fun k => k.field ∈ wanted :=
  leading_splitEquality_of_agree h fun _ _ => .rfl

/-- Keys on the wanted fields, each once and in any order, are taken as a whole, and with
them the walk ends. -/
theorem splitEquality_append_of_perm {wanted : List String} {lead : List Key}
    (h : (fieldNames lead).Perm wanted) (ks : List Key) :
    splitEquality wanted (lead ++ ks) = ⟨lead, [], ks⟩ := by
  -- each key that is taken leaves one wanted field less, and the rest of `lead` is on those
  induction lead generalizing wanted with
  | nil =>
    obtain rfl : wanted = [] := h.symm.eq_nil
    exact splitEquality_no_wanted ks
  | cons k lead ih =>
    have hk : k.field ∈ wanted := h.subset List.mem_cons_self
    have hrest : (fieldNames lead).Perm (wanted.erase k.field) :=
      (List.cons_perm_iff_perm_erase.1 h).2
    rw [List.cons_append, splitEquality_cons_of_mem hk, ih hrest]

/-! ## The block of the sort -/

/-- Keys that begin with the sort are scanned forwards. -/
theorem scanFor?_append (sort ks : List Key) : scanFor? sort (sort ++ ks) = some .forward := by
  rw [scanFor?, if_pos (List.isPrefixOf_iff_prefix.2 (List.prefix_append sort ks))]

/-- A forward scan finds the sort at the front of the keys. -/
theorem prefix_of_scanFor?_eq_forward {sort keys : List Key}
    (h : scanFor? sort keys = some .forward) : sort <+: keys := by
  rw [scanFor?] at h
  split at h
  · next hpre => exact List.isPrefixOf_iff_prefix.1 hpre
  · split at h <;> simp at h

/-- A backward scan finds the sort with every direction turned round. -/
theorem prefix_of_scanFor?_eq_backward {sort keys : List Key}
    (h : scanFor? sort keys = some .backward) : sort.map Key.reversed <+: keys := by
  rw [scanFor?] at h
  split at h
  · simp at h
  · split at h
    · next hpre => exact List.isPrefixOf_iff_prefix.1 hpre
    · simp at h

namespace IndexMatch

/-! ## The key for a range -/

@[simp] theorem boundingKey_nil (shape : QueryShape) : boundingKey shape [] = [] := rfl

theorem boundingKey_cons (shape : QueryShape) (k : Key) (ks : List Key) :
    boundingKey shape (k :: ks) = if shape.isRangeField k.field then [k] else [] := by
  rw [boundingKey, List.take_succ_cons, List.take_zero, List.filter_cons, List.filter_nil]

/-- At most one key bounds a scan, and none if the query has no range. -/
theorem length_boundingKey_le (shape : QueryShape) (ks : List Key) :
    (boundingKey shape ks).length ≤ min 1 shape.range.size := by
  cases ks with
  | nil => exact Nat.zero_le _
  | cons k ks =>
    rw [boundingKey_cons]
    split
    · next hk =>
      have hmem : k.field ∈ shape.range.fields := of_decide_eq_true hk
      have hpos : 0 < shape.range.size :=
        RangeSet.length_fields _ ▸ List.length_pos_of_mem hmem
      rw [List.length_singleton]
      omega
    · exact Nat.zero_le _

/-! ## The match as a whole -/

/-- The match of an index that has all equalities in front, in any order and directions,
and the sort after them. -/
theorem of_eq_of_blocks {shape : QueryShape} {d : IndexDefinition} {lead rest : List Key}
    (hkeys : d.keys = lead ++ (shape.sort ++ rest))
    (hlead : (fieldNames lead).Perm shape.equality.toList) :
    of shape d =
      { equalityConsumed := shape.equality.size
        sortServed := true
        sortConsumed := shape.sort.length
        scan := .forward
        coveredRange := fieldNames (boundingKey shape rest)
        residualRange :=
          shape.range.fields.filter (· ∉ fieldNames (boundingKey shape rest))
        residualEquality := []
        inMemorySort := false
        unusedSuffix := rest.drop (boundingKey shape rest).length } := by
  have hlen : lead.length = shape.equality.size := by
    rw [← length_fieldNames lead, hlead.length_eq, FieldSet.size]
  simp only [of, hkeys, splitEquality_append_of_perm hlead, scanFor?_append, hlen,
    Option.isSome_some, Option.isNone_some, Option.getD_some, if_true, List.drop_left,
    Bool.and_false]

/-- No index is used for more equalities than the query has. -/
theorem equalityConsumed_of_le (shape : QueryShape) (d : IndexDefinition) :
    (of shape d).equalityConsumed ≤ shape.equality.size :=
  length_leading_le shape.equality.toList d.keys

/-- No index is used for more of a sort than there is. -/
theorem sortConsumed_of_le (shape : QueryShape) (d : IndexDefinition) :
    (of shape d).sortConsumed ≤ shape.sort.length := by
  show (if _ then _ else _) ≤ _
  split
  · exact Nat.le_refl _
  · exact Nat.zero_le _

/-- No index is used for more than one range, and for none if the query has none. -/
theorem length_coveredRange_of_le (shape : QueryShape) (d : IndexDefinition) :
    (of shape d).coveredRange.length ≤ min 1 shape.range.size := by
  show (fieldNames _).length ≤ _
  rw [length_fieldNames]
  exact length_boundingKey_le shape _

/-- No index is used further than a query has equalities, sort keys and one range. -/
theorem consumed_of_le (shape : QueryShape) (d : IndexDefinition) :
    (of shape d).consumed ≤
      shape.equality.size + shape.sort.length + min 1 shape.range.size := by
  have hequality := equalityConsumed_of_le shape d
  have hsort := sortConsumed_of_le shape d
  have hrange := length_coveredRange_of_le shape d
  rw [consumed]
  omega

end IndexMatch

end IndexPlanner
