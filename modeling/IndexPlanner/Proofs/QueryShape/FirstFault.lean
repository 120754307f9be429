import IndexPlanner.Proofs.QueryShape.Meaning

/-!
# What a query is refused for

The elements of a query are read one after the other, the predicates before the sort keys,
and each is checked against what has been read before it.  A query may have several faults
at once.  It is refused for the first one, and what comes behind that is not looked at.

## Where the reading stops

`AcceptedUpTo` says that the first elements of a query have a shape.  Fewer of them have one
too (`Compatible.mono`), so there is a last number of elements that is accepted, and the
element after these is the one that the query is refused for.

## What the error says

What has been met when an element is read is known from the elements before it: the roles by
`Roles.Reads`, the fields of the sort by `FieldSet.mem_insertAll`.  So it is enough to know why
one element is refused, `Roles.add_eq_error` and `Roles.keyFault?_eq_some`, and that of a list
that is refused some first element is, `Roles.exists_of_addAll_eq_error` and
`Roles.exists_of_orderKeys_eq_error`.

* `Predicate.fault` and `Key.fault` are the errors that one element can cause.
* `StopsAfter` says which element a query is refused for.
* `ShapeError.OccursIn` says that an error is about something in the query.
* `normalize_first_fault`: all this together.
-/

namespace IndexPlanner

/-- The query that consists of the first `n` elements of a query has a shape. -/
def AcceptedUpTo (predicates : List Predicate) (sort : List Key) (n : Nat) : Prop :=
  ∃ shape, normalize (predicates.take n) (sort.take (n - predicates.length)) = .ok shape

/-- What a predicate is refused for, if it is refused. -/
def Predicate.fault (p : Predicate) : ShapeError :=
  if p.field = "" then .emptyFieldName else .roleConflict p.field .equality .range

/-- What a sort key after others is refused for, if it is refused. -/
def Key.fault (before : List Key) (k : Key) : ShapeError :=
  if k.field = "" then .emptyFieldName
  else if k.field ∈ fieldNames before then .duplicateSortField k.field
  else .roleConflict k.field .sort .range

/-- The query uses a field in a role. -/
def Uses (predicates : List Predicate) (sort : List Key) (f : String) : Role → Prop
  | .equality => Pinned predicates f
  | .sort => f ∈ fieldNames sort
  | .range => Restricted predicates f

/-- Some first elements of a query are read, and the query is refused for the element after
them, whatever follows it. -/
inductive StopsAfter (predicates : List Predicate) (sort : List Key) (e : ShapeError) :
    Nat → Prop where
  | predicate {before rest : List Predicate} {p : Predicate}
      (hpredicates : predicates = before ++ p :: rest) (herror : e = p.fault)
      (hrest : ∀ rest' sort', normalize (before ++ p :: rest') sort' = .error e) :
      StopsAfter predicates sort e before.length
  | key {before rest : List Key} {k : Key} (hsort : sort = before ++ k :: rest)
      (herror : e = k.fault before)
      (hrest : ∀ rest', normalize predicates (before ++ k :: rest') = .error e) :
      StopsAfter predicates sort e (predicates.length + before.length)

/-- What the error says is to be found in the query. -/
def ShapeError.OccursIn (predicates : List Predicate) (sort : List Key) : ShapeError → Prop
  | .roleConflict f first second => Uses predicates sort f first ∧ Uses predicates sort f second
  | .duplicateSortField f => 2 ≤ (fieldNames sort).count f
  | .emptyFieldName => "" ∈ predicates.map (·.field) ++ fieldNames sort
  | _ => False

variable {predicates before rest : List Predicate} {sort ks ls : List Key} {p : Predicate}
  {k : Key} {e : ShapeError}

/-! ## Fewer elements -/

theorem Pinned.mono {f : String} (h : Pinned before f) (hsub : before ⊆ predicates) :
    Pinned predicates f := by
  obtain ⟨p, hp, hfield⟩ := h
  exact ⟨p, hsub hp, hfield⟩

theorem Restricted.mono {f : String} (h : Restricted before f) (hsub : before ⊆ predicates) :
    Restricted predicates f := by
  obtain ⟨p, hp, hfield⟩ := h
  exact ⟨p, hsub hp, hfield⟩

/-- A query that asks less of its fields can be normalized too. -/
theorem Compatible.mono (h : Compatible predicates sort) (hpredicates : before ⊆ predicates)
    (hsort : ks.Sublist sort) : Compatible before ks where
  named p hp := h.named p (hpredicates hp)
  roles f hpinned hrestricted :=
    h.roles f (hpinned.mono hpredicates) (hrestricted.mono hpredicates)
  named_sort k hk := h.named_sort k (hsort.subset hk)
  nodup_sort := (hsort.map _).nodup h.nodup_sort
  sort_not_restricted k hk hrestricted :=
    h.sort_not_restricted k (hsort.subset hk) (hrestricted.mono hpredicates)

/-! ## One predicate -/

namespace Roles

variable {r r' : Roles} {seen : FieldSet} {kept : List Key}

/-- A predicate is refused because its field has no name, or because it has the other role. -/
theorem add_eq_error (h : r.add p = .error e) :
    e = p.fault ∧ (p.field ≠ "" →
      p.isEquality = true ∧ p.field ∈ r.range.fields ∨
        p.isRange = true ∧ p.field ∈ r.equality) := by
  rw [add] at h
  rw [Predicate.fault]
  split at h
  · next hname => simp [hname, Except.error.inj h]
  · next hname =>
    rw [if_neg hname]
    split at h
    · next heq =>
      split at h
      · next hrange => exact ⟨(Except.error.inj h).symm, fun _ => .inl ⟨heq, hrange⟩⟩
      · simp at h
    · next hne =>
      split at h
      · next hequality =>
        exact ⟨(Except.error.inj h).symm, fun _ =>
          .inr ⟨Predicate.isRange_iff.2 hne, hequality⟩⟩
      · simp at h

/-- The field of a predicate that is refused is pinned and restricted by it and the
predicates before it. -/
theorem Reads.of_add_eq_error (hreads : r.Reads before) (h : r.add p = .error e)
    (hname : p.field ≠ "") :
    Pinned (before ++ [p]) p.field ∧ Restricted (before ++ [p]) p.field := by
  rw [pinned_append_singleton, restricted_append_singleton]
  rcases (add_eq_error h).2 hname with ⟨heq, hrange⟩ | ⟨hisRange, hequality⟩
  · exact ⟨.inr ⟨rfl, heq⟩, .inl ((hreads.mem_range_iff p.field).1 hrange)⟩
  · exact ⟨.inl ((hreads.mem_equality_iff p.field).1 hequality), .inr ⟨rfl, hisRange⟩⟩

/-- Predicates after others are read into the roles that these have given. -/
theorem addAll_append (r : Roles) (ps qs : List Predicate) :
    r.addAll (ps ++ qs) = (r.addAll ps).bind (·.addAll qs) := by
  induction ps generalizing r with
  | nil => rfl
  | cons p ps ih =>
    rw [List.cons_append, addAll, addAll]
    split
    · rfl
    · next r' hr' => exact ih r'

/-- Of predicates that are refused together there is a first one that is refused. -/
theorem exists_of_addAll_eq_error {ps : List Predicate} (h : r.addAll ps = .error e) :
    ∃ before p rest r', ps = before ++ p :: rest ∧ r.addAll before = .ok r' ∧
      r'.add p = .error e := by
  induction ps generalizing r with
  | nil => simp [addAll] at h
  | cons p ps ih =>
    rw [addAll] at h
    split at h
    · next e' he' =>
      obtain rfl := Except.error.inj h
      exact ⟨[], p, ps, r, rfl, rfl, he'⟩
    · next next hnext =>
      obtain ⟨before, q, rest, r', rfl, hr', hq⟩ := ih h
      refine ⟨p :: before, q, rest, r', rfl, ?_, hq⟩
      rw [addAll, hnext]
      exact hr'

/-- Predicates are refused for the first one that is, whatever follows it. -/
theorem addAll_eq_error_of_add (hbefore : r.addAll before = .ok r') (hp : r'.add p = .error e) :
    r.addAll (before ++ p :: rest) = .error e := by
  rw [addAll_append, hbefore, Except.bind, addAll, hp]

end Roles

/-! ## One sort key -/

/-- The set with some more members. -/
def FieldSet.insertAll (s : FieldSet) (fs : List String) : FieldSet := fs.foldl insert s

@[simp] theorem FieldSet.mem_insertAll {f : String} {s : FieldSet} {fs : List String} :
    f ∈ s.insertAll fs ↔ f ∈ s ∨ f ∈ fs := by
  induction fs generalizing s with
  | nil => simp [insertAll]
  | cons g fs ih =>
    show f ∈ (s.insert g).insertAll fs ↔ _
    rw [ih, mem_insert, List.mem_cons, or_comm (a := f = g), or_assoc]

namespace Roles

variable {r : Roles} {seen : FieldSet} {kept : List Key}

/-- The complaint about one sort key, if there is one. -/
def keyFault? (r : Roles) (seen : FieldSet) (k : Key) : Option ShapeError :=
  if k.field = "" then some .emptyFieldName
  else if k.field ∈ seen then some (.duplicateSortField k.field)
  else if k.field ∈ r.range.fields then some (.roleConflict k.field .sort .range)
  else none

/-- A sort key is refused because its field has no name, or was met before, or is restricted. -/
theorem keyFault?_eq_some (h : r.keyFault? (.insertAll .empty (fieldNames ks)) k = some e) :
    e = k.fault ks ∧
      (k.field ≠ "" → k.field ∉ fieldNames ks → k.field ∈ r.range.fields) := by
  have hmet : k.field ∈ FieldSet.empty.insertAll (fieldNames ks) ↔ k.field ∈ fieldNames ks :=
    FieldSet.mem_insertAll.trans (or_iff_right (FieldSet.not_mem_empty _))
  simp only [keyFault?, hmet] at h
  rw [Key.fault]
  split at h
  · next hname => simp [hname, Option.some.inj h]
  · next hname =>
    rw [if_neg hname]
    split at h
    · next hold => simp [hold, Option.some.inj h]
    · next hnew =>
      rw [if_neg hnew]
      split at h
      · next hrange => exact ⟨(Option.some.inj h).symm, fun _ _ => hrange⟩
      · simp at h

/-- A sort key with a fault is refused, whatever follows it. -/
theorem orderKeys_cons_of_fault (h : r.keyFault? seen k = some e) :
    r.orderKeys seen (k :: ks) = .error e := by
  rw [keyFault?] at h
  rw [orderKeys]
  split at h
  · next hname => rw [if_pos hname, Option.some.inj h]
  · next hname =>
    rw [if_neg hname]
    split at h
    · next hmet => rw [if_pos hmet, Option.some.inj h]
    · next hnew =>
      rw [if_neg hnew]
      split at h
      · next hrange => rw [if_pos hrange, Option.some.inj h]
      · simp at h

/-- A sort key without a fault is kept or left out, and the ones behind it are read. -/
theorem orderKeys_cons_of_no_fault (h : r.keyFault? seen k = none) :
    r.orderKeys seen (k :: ks) = (r.orderKeys (seen.insert k.field) ks).map
      fun kept => if k.field ∈ r.equality then kept else k :: kept := by
  rw [keyFault?] at h
  rw [orderKeys]
  split at h
  · simp at h
  · next hname =>
    split at h
    · simp at h
    · next hnew =>
      split at h
      · simp at h
      · next hfree =>
        rw [if_neg hname, if_neg hnew, if_neg hfree]
        cases r.orderKeys (seen.insert k.field) ks <;> rfl

/-- Of sort keys that are refused together there is a first one that is refused. -/
theorem exists_of_orderKeys_eq_error (h : r.orderKeys seen ks = .error e) :
    ∃ before k rest kept, ks = before ++ k :: rest ∧ r.orderKeys seen before = .ok kept ∧
      r.keyFault? (seen.insertAll (fieldNames before)) k = some e := by
  induction ks generalizing seen with
  | nil => simp [orderKeys] at h
  | cons k ks ih =>
    cases hk : r.keyFault? seen k with
    | some e' =>
      rw [orderKeys_cons_of_fault hk] at h
      obtain rfl := Except.error.inj h
      exact ⟨[], k, ks, [], rfl, rfl, hk⟩
    | none =>
      rw [orderKeys_cons_of_no_fault hk] at h
      cases hks : r.orderKeys (seen.insert k.field) ks with
      | ok kept =>
        rw [hks] at h
        simp [Except.map] at h
      | error e' =>
        rw [hks] at h
        obtain rfl := Except.error.inj h
        obtain ⟨before, l, rest, kept, rfl, hkept, hl⟩ := ih hks
        have hcons : r.orderKeys seen (k :: before) =
            .ok (if k.field ∈ r.equality then kept else k :: kept) := by
          rw [orderKeys_cons_of_no_fault hk, hkept]
          rfl
        exact ⟨k :: before, l, rest, _, rfl, hcons, hl⟩

/-- Sort keys are refused for the first one with a fault, whatever follows it. -/
theorem orderKeys_append_of_fault (hbefore : r.orderKeys seen ks = .ok kept)
    (hk : r.keyFault? (seen.insertAll (fieldNames ks)) k = some e) :
    r.orderKeys seen (ks ++ k :: ls) = .error e := by
  induction ks generalizing seen kept with
  | nil => exact orderKeys_cons_of_fault hk
  | cons l ks ih =>
    cases hl : r.keyFault? seen l with
    | some e' =>
      rw [orderKeys_cons_of_fault hl] at hbefore
      simp at hbefore
    | none =>
      obtain ⟨-, -, -, rest, hrest, -⟩ := orderKeys_cons_eq_ok.1 hbefore
      rw [List.cons_append, orderKeys_cons_of_no_fault hl, ih hrest hk]
      rfl

end Roles

/-! ## The first fault of a query -/

/-- A query is refused for its predicates, or else for its sort keys. -/
theorem normalize_eq_error_cases (h : normalize predicates sort = .error e) :
    Roles.empty.addAll predicates = .error e ∨
      ∃ roles, Roles.empty.addAll predicates = .ok roles ∧
        roles.orderKeys .empty sort = .error e := by
  rw [normalize] at h
  split at h
  · next e' he' =>
    obtain rfl := Except.error.inj h
    exact .inl he'
  · next roles hroles =>
    split at h
    · next e' he' =>
      obtain rfl := Except.error.inj h
      exact .inr ⟨roles, hroles, he'⟩
    · simp at h

theorem normalize_of_addAll_eq_error (h : Roles.empty.addAll predicates = .error e)
    (sort : List Key) : normalize predicates sort = .error e := by
  simp only [normalize, h]

/-- What comes before the element that a query is refused for can be normalized, and so can
any shorter part of it. -/
theorem acceptedUpTo_of_compatible {n i : Nat}
    (h : Compatible (predicates.take n) (sort.take (n - predicates.length))) (hi : i ≤ n) :
    AcceptedUpTo predicates sort i :=
  exists_normalize_eq_ok_iff.2
    (h.mono (List.take_subset_take_left _ hi)
      (List.take_sublist_take_left (Nat.sub_le_sub_right hi _)))

/-- With the element that a query is refused for, nothing is accepted. -/
theorem StopsAfter.not_acceptedUpTo {n i : Nat} (h : StopsAfter predicates sort e n)
    (hi : n < i) : ¬ AcceptedUpTo predicates sort i := by
  rintro ⟨shape, hshape⟩
  cases h with
  | @predicate before rest p hpredicates herror hrest =>
    subst hpredicates
    obtain ⟨j, rfl⟩ : ∃ j, i = before.length + (j + 1) := ⟨i - before.length - 1, by omega⟩
    rw [List.take_length_add_append, List.take_succ_cons, hrest] at hshape
    simp at hshape
  | @key before rest k hsort herror hrest =>
    subst hsort
    obtain ⟨j, rfl⟩ : ∃ j, i = predicates.length + (before.length + (j + 1)) :=
      ⟨i - predicates.length - before.length - 1, by omega⟩
    rw [List.take_of_length_le (Nat.le_add_right _ _), Nat.add_sub_cancel_left,
      List.take_length_add_append, List.take_succ_cons, hrest] at hshape
    simp at hshape

/-- A query whose predicates are refused is refused for the first one that is. -/
theorem exists_stopsAfter_of_addAll_eq_error
    (h : Roles.empty.addAll predicates = .error e) (sort : List Key) :
    ∃ n, (∀ i ≤ n, AcceptedUpTo predicates sort i) ∧ StopsAfter predicates sort e n ∧
      e.OccursIn predicates sort := by
  obtain ⟨before, p, rest, roles, rfl, hroles, hp⟩ := Roles.exists_of_addAll_eq_error h
  obtain ⟨herror, -⟩ := Roles.add_eq_error hp
  have hreads : roles.Reads before := Roles.reads_empty.addAll hroles
  refine ⟨before.length, fun i hi => ?_, .predicate rfl herror fun rest' sort' => ?_, ?_⟩
  · refine acceptedUpTo_of_compatible (n := before.length) ?_ hi
    rw [List.take_left, List.length_append, Nat.sub_eq_zero_of_le (Nat.le_add_right _ _),
      List.take_zero]
    exact ⟨hreads.consistent, by simp, .nil, by simp⟩
  · exact normalize_of_addAll_eq_error (Roles.addAll_eq_error_of_add hroles hp) sort'
  · rw [herror, Predicate.fault]
    split
    · next hname =>
      show "" ∈ _
      rw [← hname]
      simp
    · next hname =>
      obtain ⟨hpinned, hrestricted⟩ := hreads.of_add_eq_error hp hname
      have hsub : before ++ [p] ⊆ before ++ p :: rest := by simp
      exact ⟨hpinned.mono hsub, hrestricted.mono hsub⟩

/-- A query whose predicates have roles is refused for the first sort key that is. -/
theorem exists_stopsAfter_of_orderKeys_eq_error {roles : Roles}
    (hroles : Roles.empty.addAll predicates = .ok roles)
    (h : roles.orderKeys .empty sort = .error e) :
    ∃ n, (∀ i ≤ n, AcceptedUpTo predicates sort i) ∧ StopsAfter predicates sort e n ∧
      e.OccursIn predicates sort := by
  obtain ⟨before, k, rest, kept, rfl, hkept, hk⟩ := Roles.exists_of_orderKeys_eq_error h
  obtain ⟨herror, hrestricted⟩ := Roles.keyFault?_eq_some hk
  have hreads : roles.Reads predicates := Roles.reads_empty.addAll hroles
  refine ⟨predicates.length + before.length, fun i hi => ?_, .key rfl herror fun rest' => ?_, ?_⟩
  · refine acceptedUpTo_of_compatible (n := predicates.length + before.length) ?_ hi
    rw [List.take_of_length_le (Nat.le_add_right _ _), Nat.add_sub_cancel_left, List.take_left]
    exact exists_normalize_eq_ok_iff.1 ⟨_, normalize_of_orderKeys_eq_ok hroles hkept⟩
  · exact normalize_of_orderKeys_eq_error hroles (Roles.orderKeys_append_of_fault hkept hk)
  · have hmem : k.field ∈ fieldNames (before ++ k :: rest) := by simp
    rw [herror, Key.fault]
    split
    · next hname => exact List.mem_append_right _ (hname ▸ hmem)
    · next hname =>
      split
      · next hmet =>
        show 2 ≤ _
        rw [fieldNames_append, fieldNames_cons, List.count_append, List.count_cons_self]
        have hpos := List.count_pos_iff.2 hmet
        omega
      · next hnew =>
        exact ⟨hmem, (hreads.mem_range_iff k.field).1 (hrestricted hname hnew)⟩

/-- **The first fault wins.**  If a query is refused, then there is a number of elements up to
which it is accepted, and with more elements it never is.  The element after these is the one
that the query is refused for, whatever follows it: because its field has no name, or else,
if it is a predicate, because its field would be pinned and restricted, or else because a
sort key before it has the same field, or else because its field is restricted.  What the
error says of a field is so in the query. -/
theorem normalize_first_fault (h : normalize predicates sort = .error e) :
    ∃ n, (∀ i, AcceptedUpTo predicates sort i ↔ i ≤ n) ∧ StopsAfter predicates sort e n ∧
      e.OccursIn predicates sort := by
  obtain ⟨n, haccepted, hstops, hoccurs⟩ : ∃ n, (∀ i ≤ n, AcceptedUpTo predicates sort i) ∧
      StopsAfter predicates sort e n ∧ e.OccursIn predicates sort := by
    rcases normalize_eq_error_cases h with herror | ⟨roles, hroles, herror⟩
    · exact exists_stopsAfter_of_addAll_eq_error herror sort
    · exact exists_stopsAfter_of_orderKeys_eq_error hroles herror
  refine ⟨n, fun i => ⟨fun hi => ?_, haccepted i⟩, hstops, hoccurs⟩
  by_contra hlt
  exact hstops.not_acceptedUpTo (Nat.lt_of_not_le hlt) hi

/-- Predicates on a day and a state. -/
def dayAndState : List Predicate := [⟨"day", .gte (.ofNat 1)⟩, ⟨"state", .eq (.ofNat 3)⟩]

/-- A sort that names a field twice, then one that has a range, and then one without a name. -/
def threeFaults : List Key :=
  [⟨"state", .asc⟩, ⟨"number", .desc⟩, ⟨"number", .asc⟩, ⟨"day", .asc⟩, ⟨"", .asc⟩]

/-- Of three faults in a sort the repeated field is reported, as it comes first. -/
theorem normalize_first_fault_threeFaults :
    normalize dayAndState threeFaults = .error (.duplicateSortField "number") ∧
      (∀ i, AcceptedUpTo dayAndState threeFaults i ↔ i ≤ 4) ∧
      StopsAfter dayAndState threeFaults (.duplicateSortField "number") 4 ∧
      (ShapeError.duplicateSortField "number").OccursIn dayAndState threeFaults := by
  have herror : normalize dayAndState threeFaults = .error (.duplicateSortField "number") := rfl
  obtain ⟨n, haccepted, hstops, hoccurs⟩ := normalize_first_fault herror
  have hfour : 4 ≤ n := (haccepted 4).1 ⟨_, rfl⟩
  have hfive : ¬ 5 ≤ n := by
    intro hle
    obtain ⟨shape, hshape⟩ := (haccepted 5).2 hle
    cases hshape
  obtain rfl : n = 4 := by omega
  exact ⟨herror, haccepted, hstops, hoccurs⟩

end IndexPlanner
