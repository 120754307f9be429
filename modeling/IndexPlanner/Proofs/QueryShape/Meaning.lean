import IndexPlanner.Proofs.QueryShape.Normalize
import Mathlib.Data.Finset.Card

/-!
# What the shape of a query means

A shape is read off a query from the front to the back, and each predicate and each sort key
is checked against what has been read before it.  This file says what comes out in terms of
the query as a whole.  Which field has which role, and how tight its range is, depends only
on which predicates there are, neither on their order nor on how often they are repeated.

* `Pinned`, `Restricted` and `Bound.Tightest` say what a list of predicates asks of a field.
* `Roles.Reads` ties roles to the predicates that they were read from.  It is what one
  predicate preserves (`Roles.Reads.add`), and so do all of them (`Roles.Reads.addAll`).
* `Compatible` says which queries have a shape: `exists_normalize_eq_ok_iff`.
* `QueryShape.Describes` says which shape it is: `describes_of_normalize_eq_ok` and
  `QueryShape.Describes.unique`.
* `normalize_meaning`: all this together.
-/

namespace IndexPlanner

/-! ## What predicates ask of a field -/

/-- Some predicate pins the field to a single value. -/
def Pinned (predicates : List Predicate) (f : String) : Prop :=
  ∃ p ∈ predicates, p.field = f ∧ p.isEquality = true

/-- Some predicate restricts the field without pinning it. -/
def Restricted (predicates : List Predicate) (f : String) : Prop :=
  ∃ p ∈ predicates, p.field = f ∧ p.isRange = true

instance (predicates : List Predicate) (f : String) : Decidable (Pinned predicates f) :=
  inferInstanceAs (Decidable (∃ p ∈ predicates, p.field = f ∧ p.isEquality = true))

instance (predicates : List Predicate) (f : String) : Decidable (Restricted predicates f) :=
  inferInstanceAs (Decidable (∃ p ∈ predicates, p.field = f ∧ p.isRange = true))

variable {predicates : List Predicate} {p : Predicate} {f : String}

theorem Predicate.isRange_iff : p.isRange = true ↔ ¬ p.isEquality = true := by
  simp [isRange, Condition.isRange, isEquality]

@[simp] theorem not_pinned_nil : ¬ Pinned [] f := by simp [Pinned]

@[simp] theorem not_restricted_nil : ¬ Restricted [] f := by simp [Restricted]

theorem pinned_append_singleton :
    Pinned (predicates ++ [p]) f ↔ Pinned predicates f ∨ p.field = f ∧ p.isEquality = true := by
  simp [Pinned, or_and_right, exists_or]

theorem restricted_append_singleton :
    Restricted (predicates ++ [p]) f ↔
      Restricted predicates f ∨ p.field = f ∧ p.isRange = true := by
  simp [Restricted, or_and_right, exists_or]

/-- Every predicate asks something of its field. -/
theorem pinned_or_restricted_iff :
    Pinned predicates f ∨ Restricted predicates f ↔ f ∈ predicates.map (·.field) := by
  rw [List.mem_map]
  constructor
  · rintro (⟨p, hp, hf, -⟩ | ⟨p, hp, hf, -⟩)
    · exact ⟨p, hp, hf⟩
    · exact ⟨p, hp, hf⟩
  · rintro ⟨p, hp, hf⟩
    by_cases h : p.isEquality = true
    · exact .inl ⟨p, hp, hf, h⟩
    · exact .inr ⟨p, hp, hf, Predicate.isRange_iff.2 h⟩

/-- All fields of the predicates have names, and no field is both pinned and restricted. -/
structure Consistent (predicates : List Predicate) : Prop where
  named : ∀ p ∈ predicates, p.field ≠ ""
  roles : ∀ f, Pinned predicates f → ¬ Restricted predicates f

namespace Bound

/-- The bound of one side of a range that some conditions bound strictly and some bound
inclusively: a strict bound wins over an inclusive one, and either over none. -/
def Tightest (strictly inclusively : Prop) : Bound → Prop
  | strict => strictly
  | inclusive => inclusively ∧ ¬ strictly
  | unbounded => ¬ strictly ∧ ¬ inclusively

variable {a b : Bound} {s s' i i' : Prop}

theorem Tightest.congr (h : b.Tightest s i) (hs : s ↔ s') (hi : i ↔ i') : b.Tightest s' i' := by
  rwa [← hs, ← hi]

/-- There is only one tightest bound. -/
theorem Tightest.unique (ha : a.Tightest s i) (hb : b.Tightest s i) : a = b := by
  cases a <;> cases b <;> simp_all [Tightest]

/-- Conditions on one side set a tightest bound together. -/
theorem Tightest.merge (ha : a.Tightest s i) (hb : b.Tightest s' i') :
    (a.merge b).Tightest (s ∨ s') (i ∨ i') := by
  cases a <;> cases b <;> simp_all [Tightest, Bound.merge]

end Bound

theorem Condition.tightest_lower (c : Condition) :
    c.lower.Tightest (∃ v, c = .gt v) (∃ v, c = .gte v) := by
  cases c <;> simp [lower, Bound.Tightest]

theorem Condition.tightest_upper (c : Condition) :
    c.upper.Tightest (∃ v, c = .lt v) (∃ v, c = .lte v) := by
  cases c <;> simp [upper, Bound.Tightest]

/-- Some predicate on the field has a condition of the given kind. -/
def Asks (predicates : List Predicate) (f : String) (kind : Json → Condition) : Prop :=
  ∃ v, ⟨f, kind v⟩ ∈ predicates

theorem asks_append_singleton {kind : Json → Condition} :
    Asks (predicates ++ [p]) f kind ↔
      Asks predicates f kind ∨ p.field = f ∧ ∃ v, p.condition = kind v := by
  have hp (v : Json) : (⟨f, kind v⟩ : Predicate) = p ↔ p.field = f ∧ p.condition = kind v := by
    cases p
    simp only [Predicate.mk.injEq, eq_comm]
  simp only [Asks, List.mem_append, List.mem_singleton, hp, exists_or, exists_and_left]

/-- A field that is not restricted is asked for no bounds. -/
theorem not_asks_of_not_restricted (h : ¬ Restricted predicates f) {kind : Json → Condition}
    (hkind : ∀ v, (kind v).isRange = true) : ¬ Asks predicates f kind := by
  rintro ⟨v, hv⟩
  exact h ⟨⟨f, kind v⟩, hv, rfl, hkind v⟩

/-- A range has the bounds that the predicates on its field set. -/
structure RangeCondition.BoundedBy (r : RangeCondition) (predicates : List Predicate) :
    Prop where
  lower : r.lower.Tightest (Asks predicates r.field .gt) (Asks predicates r.field .gte)
  upper : r.upper.Tightest (Asks predicates r.field .lt) (Asks predicates r.field .lte)

namespace RangeCondition

variable {r : RangeCondition}

/-- Without predicates on its field a range has no bounds. -/
theorem boundedBy_unbounded (h : ¬ Restricted predicates f) :
    (unbounded f).BoundedBy predicates where
  lower := ⟨not_asks_of_not_restricted h fun _ => rfl, not_asks_of_not_restricted h fun _ => rfl⟩
  upper := ⟨not_asks_of_not_restricted h fun _ => rfl, not_asks_of_not_restricted h fun _ => rfl⟩

/-- A predicate on another field does not change the bounds of a range. -/
theorem BoundedBy.append_of_ne (h : r.BoundedBy predicates) (hne : p.field ≠ r.field) :
    r.BoundedBy (predicates ++ [p]) := by
  have hasks (kind : Json → Condition) :
      Asks predicates r.field kind ↔ Asks (predicates ++ [p]) r.field kind := by
    simp [asks_append_singleton, hne]
  exact ⟨h.lower.congr (hasks _) (hasks _), h.upper.congr (hasks _) (hasks _)⟩

/-- A predicate on the field of a range narrows the range. -/
theorem BoundedBy.absorb (h : r.BoundedBy predicates) (hp : p.field = r.field) :
    (r.absorb p.condition).BoundedBy (predicates ++ [p]) := by
  have hasks (kind : Json → Condition) :
      Asks predicates r.field kind ∨ (∃ v, p.condition = kind v) ↔
        Asks (predicates ++ [p]) r.field kind := by
    rw [asks_append_singleton, and_iff_right hp]
  exact ⟨(h.lower.merge p.condition.tightest_lower).congr (hasks _) (hasks _),
    (h.upper.merge p.condition.tightest_upper).congr (hasks _) (hasks _)⟩

/-- Ranges on the same field with the same bounds are the same. -/
theorem BoundedBy.unique {r' : RangeCondition} (h : r.BoundedBy predicates)
    (h' : r'.BoundedBy predicates) (hfield : r.field = r'.field) : r = r' := by
  obtain ⟨f, lower, upper⟩ := r
  obtain ⟨f', lower', upper'⟩ := r'
  obtain rfl : f = f' := hfield
  obtain rfl : lower = lower' := h.lower.unique h'.lower
  obtain rfl : upper = upper' := h.upper.unique h'.upper
  rfl

end RangeCondition

/-! ## Giving roles to fields -/

/-- A range after one more condition on a field is one on another field that was there
before, or it is that of the field, narrowed by the condition. -/
theorem mem_absorbInto {c : Condition} {rs : List RangeCondition} {r : RangeCondition}
    (hasc : Ascending (rs.map (·.field))) (h : r ∈ absorbInto f c rs) :
    r ∈ rs ∧ r.field ≠ f ∨
      ∃ q, (q ∈ rs ∧ q.field = f ∨ q = .unbounded f ∧ f ∉ rs.map (·.field)) ∧
        r = q.absorb c := by
  induction rs with
  | nil => exact .inr ⟨.unbounded f, .inr ⟨rfl, List.not_mem_nil⟩, List.mem_singleton.1 h⟩
  | cons q rs ih =>
    obtain ⟨hq, hrs⟩ := ascending_cons.1 hasc
    -- all ranges behind `q` are on fields after that of `q`
    have hbehind : ∀ q' ∈ rs, Text.Before q.field q'.field :=
      fun q' hq' => hq q'.field (List.mem_map_of_mem hq')
    rw [absorbInto] at h
    split at h
    · next hbefore =>
      have hnew : ∀ q' ∈ q :: rs, q'.field ≠ f := by
        intro q' hq' heq
        rcases List.mem_cons.1 hq' with rfl | hq'
        · exact Text.ne_of_before hbefore heq.symm
        · exact Text.ne_of_before (Text.before_trans hbefore (hbehind q' hq')) heq.symm
      rcases List.mem_cons.1 h with rfl | h
      · refine .inr ⟨.unbounded f, .inr ⟨rfl, fun hmem => ?_⟩, rfl⟩
        obtain ⟨q', hq', heq⟩ := List.mem_map.1 hmem
        exact hnew q' hq' heq
      · exact .inl ⟨h, hnew r h⟩
    · split at h
      · next heq =>
        rcases List.mem_cons.1 h with rfl | h
        · exact .inr ⟨q, .inl ⟨List.mem_cons_self, heq.symm⟩, rfl⟩
        · refine .inl ⟨List.mem_cons_of_mem q h, fun heq' => ?_⟩
          exact Text.ne_of_before (hbehind r h) (heq.symm.trans heq'.symm)
      · next hne =>
        rcases List.mem_cons.1 h with rfl | h
        · exact .inl ⟨List.mem_cons_self, fun heq => hne heq.symm⟩
        · rcases ih hrs h with ⟨hr, hr'⟩ | ⟨q', hq', rfl⟩
          · exact .inl ⟨List.mem_cons_of_mem q hr, hr'⟩
          · refine .inr ⟨q', ?_, rfl⟩
            rcases hq' with ⟨hmem, hfield⟩ | ⟨rfl, hnew⟩
            · exact .inl ⟨List.mem_cons_of_mem q hmem, hfield⟩
            · refine .inr ⟨rfl, ?_⟩
              rw [List.map_cons, List.mem_cons, not_or]
              exact ⟨hne, hnew⟩

namespace Roles

/-- The roles are those that the predicates give to their fields. -/
structure Reads (r : Roles) (predicates : List Predicate) : Prop where
  mem_equality_iff : ∀ f, f ∈ r.equality ↔ Pinned predicates f
  mem_range_iff : ∀ f, f ∈ r.range.fields ↔ Restricted predicates f
  boundedBy : ∀ c ∈ r.range.toList, c.BoundedBy predicates

theorem reads_empty : empty.Reads [] where
  mem_equality_iff f := by simp [empty]
  mem_range_iff f := by simp [empty]
  boundedBy c hc := absurd hc List.not_mem_nil

variable {r r' : Roles} {predicates more : List Predicate} {p : Predicate}

/-- What is known of a predicate that has been given its role. -/
theorem add_eq_ok (h : r.add p = .ok r') :
    (p.isEquality = true ∧ r'.equality = r.equality.insert p.field ∧ r'.range = r.range) ∨
      (p.isRange = true ∧ r'.equality = r.equality ∧
        r'.range = r.range.absorb p.field p.condition) := by
  rw [add] at h
  split at h
  · simp at h
  · split at h
    · next heq =>
      split at h
      · simp at h
      · obtain rfl := Except.ok.inj h
        exact .inl ⟨heq, rfl, rfl⟩
    · next hne =>
      split at h
      · simp at h
      · obtain rfl := Except.ok.inj h
        exact .inr ⟨Predicate.isRange_iff.2 hne, rfl, rfl⟩

/-- A predicate is given its role iff its field has a name and not the other role. -/
theorem exists_add_eq_ok_iff :
    (∃ r', r.add p = .ok r') ↔ p.field ≠ "" ∧
      (p.isEquality = true → p.field ∉ r.range.fields) ∧
      (p.isRange = true → p.field ∉ r.equality) := by
  rw [Predicate.isRange_iff, add]
  split
  · next hname => simp [hname]
  · next hname =>
    split
    · next heq =>
      split
      · next hrange => simp [heq, hrange]
      · next hrange => simp [heq, hrange, hname]
    · next hne =>
      split
      · next hequality => simp [hne, hequality]
      · next hequality => simp [hne, hequality, hname]

/-- One more predicate is read. -/
theorem Reads.add (h : r.Reads predicates) (hadd : r.add p = .ok r') :
    r'.Reads (predicates ++ [p]) := by
  rcases add_eq_ok hadd with ⟨heq, hequality, hrange⟩ | ⟨hisRange, hequality, hrange⟩
  · have hnotRange : ¬ p.isRange = true := fun hp => Predicate.isRange_iff.1 hp heq
    refine ⟨fun f => ?_, fun f => ?_, fun c hc => ?_⟩
    · rw [hequality, FieldSet.mem_insert, h.mem_equality_iff, pinned_append_singleton,
        and_iff_left heq, or_comm, eq_comm]
    · rw [hrange, h.mem_range_iff, restricted_append_singleton, or_iff_left fun hp =>
        hnotRange hp.2]
    · -- the field of `p` is an equality now, so it has no range
      have hmem : p.field ∈ r'.equality := by
        rw [hequality]
        exact FieldSet.mem_insert.2 (.inl rfl)
      have hne : p.field ≠ c.field := fun hfield =>
        r'.disjoint p.field hmem (hfield ▸ List.mem_map_of_mem hc)
      rw [hrange] at hc
      exact (h.boundedBy c hc).append_of_ne hne
  · have hnotEquality : ¬ p.isEquality = true := Predicate.isRange_iff.1 hisRange
    refine ⟨fun f => ?_, fun f => ?_, fun c hc => ?_⟩
    · rw [hequality, h.mem_equality_iff, pinned_append_singleton, or_iff_left fun hp =>
        hnotEquality hp.2]
    · rw [hrange, RangeSet.mem_fields_absorb, h.mem_range_iff, restricted_append_singleton,
        and_iff_left hisRange, or_comm, eq_comm]
    · rw [hrange] at hc
      rcases mem_absorbInto r.range.ascending hc with ⟨hc, hne⟩ | ⟨q, hq, rfl⟩
      · exact (h.boundedBy c hc).append_of_ne fun hfield => hne hfield.symm
      · rcases hq with ⟨hq, hfield⟩ | ⟨rfl, hnew⟩
        · exact (h.boundedBy q hq).absorb hfield.symm
        · have hnew : ¬ Restricted predicates p.field := by
            rw [← h.mem_range_iff]
            exact hnew
          exact (RangeCondition.boundedBy_unbounded hnew).absorb rfl

/-- Predicates are read one by one. -/
theorem Reads.addAll (h : r.Reads predicates) (hadd : r.addAll more = .ok r') :
    r'.Reads (predicates ++ more) := by
  induction more generalizing r predicates with
  | nil =>
    obtain rfl := Except.ok.inj hadd
    rwa [List.append_nil]
  | cons p ps ih =>
    rw [Roles.addAll] at hadd
    split at hadd
    · simp at hadd
    · next next hnext =>
      rw [List.append_cons]
      exact ih (h.add hnext) hadd

/-- Roles that have been given to fields are consistent. -/
theorem Reads.consistent (h : r.Reads predicates) : Consistent predicates where
  named p hp hname := by
    have hmem : p.field ∈ predicates.map (·.field) := List.mem_map_of_mem hp
    rcases pinned_or_restricted_iff.2 hmem with hpinned | hrestricted
    · rw [hname, ← h.mem_equality_iff] at hpinned
      exact r.named_equality hpinned
    · rw [hname, ← h.mem_range_iff] at hrestricted
      exact r.named_range hrestricted
  roles f hpinned hrestricted :=
    r.disjoint f ((h.mem_equality_iff f).2 hpinned) ((h.mem_range_iff f).2 hrestricted)

/-- Consistent predicates are all given their roles. -/
theorem Reads.exists_addAll_eq_ok (h : r.Reads predicates)
    (hmore : Consistent (predicates ++ more)) : ∃ r', r.addAll more = .ok r' := by
  induction more generalizing r predicates with
  | nil => exact ⟨r, rfl⟩
  | cons p ps ih =>
    have hp : p ∈ predicates ++ p :: ps := List.mem_append_right _ List.mem_cons_self
    obtain ⟨next, hnext⟩ : ∃ next, r.add p = .ok next := by
      refine exists_add_eq_ok_iff.2 ⟨hmore.named p hp, fun heq hrange => ?_, fun hrange heq => ?_⟩
      · obtain ⟨q, hq, hfield, hisRange⟩ := (h.mem_range_iff p.field).1 hrange
        exact hmore.roles p.field ⟨p, hp, rfl, heq⟩
          ⟨q, List.mem_append_left _ hq, hfield, hisRange⟩
      · obtain ⟨q, hq, hfield, hisEquality⟩ := (h.mem_equality_iff p.field).1 heq
        exact hmore.roles p.field ⟨q, List.mem_append_left _ hq, hfield, hisEquality⟩
          ⟨p, hp, rfl, hrange⟩
    rw [List.append_cons] at hmore
    obtain ⟨r', hr'⟩ := ih (h.add hnext) hmore
    refine ⟨r', ?_⟩
    rw [Roles.addAll, hnext]
    exact hr'

/-- Sort keys are kept or dropped, and none is refused, if their fields are distinct, new,
named and without range. -/
theorem exists_orderKeys_eq_ok {seen : FieldSet} {ks : List Key}
    (hnodup : (fieldNames ks).Nodup)
    (hks : ∀ k ∈ ks, k.field ≠ "" ∧ k.field ∉ seen ∧ k.field ∉ r.range.fields) :
    ∃ kept, r.orderKeys seen ks = .ok kept := by
  induction ks generalizing seen with
  | nil => exact ⟨[], rfl⟩
  | cons k ks ih =>
    obtain ⟨hk, hnodup⟩ := List.nodup_cons.1 hnodup
    obtain ⟨hname, hseen, hrange⟩ := hks k List.mem_cons_self
    have hrest : ∀ l ∈ ks, l.field ≠ "" ∧ l.field ∉ seen.insert k.field ∧
        l.field ∉ r.range.fields := by
      intro l hl
      obtain ⟨hname, hseen, hrange⟩ := hks l (List.mem_cons_of_mem k hl)
      refine ⟨hname, fun hmem => ?_, hrange⟩
      rcases FieldSet.mem_insert.1 hmem with heq | hmem
      · exact hk (List.mem_map.2 ⟨l, hl, heq⟩)
      · exact hseen hmem
    obtain ⟨kept, hkept⟩ := ih hnodup hrest
    exact ⟨_, orderKeys_cons_eq_ok.2 ⟨hname, hseen, hrange, kept, hkept, rfl⟩⟩

end Roles

/-! ## Which queries have a shape -/

/-- A query that can be normalized: its predicates are consistent, the fields of its sort have
names too, and none of them is named twice or restricted. -/
structure Compatible (predicates : List Predicate) (sort : List Key) : Prop
    extends Consistent predicates where
  named_sort : ∀ k ∈ sort, k.field ≠ ""
  nodup_sort : (fieldNames sort).Nodup
  sort_not_restricted : ∀ k ∈ sort, ¬ Restricted predicates k.field

variable {predicates more : List Predicate} {sort : List Key} {shape shape' : QueryShape}

/-- The roles behind a shape are read from its predicates. -/
theorem exists_reads_of_normalize_eq_ok (h : normalize predicates sort = .ok shape) :
    ∃ roles : Roles, roles.Reads predicates ∧ roles.orderKeys .empty sort = .ok shape.sort ∧
      shape.equality = roles.equality ∧ shape.range = roles.range := by
  obtain ⟨roles, hroles, hkept, hequality, hrange⟩ := exists_roles_of_normalize_eq_ok h
  have hreads := Roles.reads_empty.addAll hroles
  rw [List.nil_append] at hreads
  exact ⟨roles, hreads, hkept, hequality, hrange⟩

/-- A query has a shape iff it can be normalized. -/
theorem exists_normalize_eq_ok_iff :
    (∃ shape, normalize predicates sort = .ok shape) ↔ Compatible predicates sort := by
  constructor
  · rintro ⟨shape, h⟩
    obtain ⟨roles, hreads, hkept, -, -⟩ := exists_reads_of_normalize_eq_ok h
    obtain ⟨-, hnodup, hkeys⟩ := Roles.orderKeys_eq_ok hkept
    refine
      { toConsistent := hreads.consistent
        named_sort := fun k hk => (hkeys k hk).1
        nodup_sort := hnodup
        sort_not_restricted := fun k hk => ?_ }
    rw [← hreads.mem_range_iff]
    exact (hkeys k hk).2.2
  · intro h
    obtain ⟨roles, hroles⟩ : ∃ roles, Roles.empty.addAll predicates = .ok roles :=
      Roles.reads_empty.exists_addAll_eq_ok h.toConsistent
    have hreads := Roles.reads_empty.addAll hroles
    obtain ⟨kept, hkept⟩ : ∃ kept, roles.orderKeys .empty sort = .ok kept := by
      refine Roles.exists_orderKeys_eq_ok h.nodup_sort fun k hk => ?_
      refine ⟨h.named_sort k hk, FieldSet.not_mem_empty _, ?_⟩
      rw [hreads.mem_range_iff]
      exact h.sort_not_restricted k hk
    exact ⟨_, normalize_of_orderKeys_eq_ok hroles hkept⟩

/-! ## Which shape it is -/

/-- Collections of ranges with the same members are the same. -/
theorem RangeSet.ext {s t : RangeSet} (h : ∀ c, c ∈ s.toList ↔ c ∈ t.toList) : s = t := by
  have hs : s.toList.Pairwise fun a b => Text.Before a.field b.field :=
    List.pairwise_map.1 s.ascending
  have ht : t.toList.Pairwise fun a b => Text.Before a.field b.field :=
    List.pairwise_map.1 t.ascending
  have hperm : s.toList.Perm t.toList :=
    (List.perm_ext_iff_of_nodup s.nodup_fields.of_map t.nodup_fields.of_map).2 h
  have hlist : s.toList = t.toList :=
    hperm.eq_of_pairwise (fun a b _ _ hab hba => absurd hba (Text.not_before_of_before hab)) hs ht
  cases s
  cases t
  subst hlist
  rfl

namespace QueryShape

/-- The shape says what the query asks of each field. -/
structure Describes (shape : QueryShape) (predicates : List Predicate) (sort : List Key) :
    Prop where
  /-- The equalities are the fields that are pinned. -/
  mem_equality_iff : ∀ f, f ∈ shape.equality ↔ Pinned predicates f
  /-- The ranges are on the fields that are restricted, with the bounds that are set there. -/
  mem_range_iff : ∀ f, f ∈ shape.range.fields ↔ Restricted predicates f
  boundedBy : ∀ c ∈ shape.range.toList, c.BoundedBy predicates
  /-- The sort is what was asked for, without the fields that are pinned. -/
  sort_eq : shape.sort = sort.filter (fun k => ¬ Pinned predicates k.field)

/-- A range of one shape of a query is a range of every shape of it. -/
theorem Describes.mem_range (h : shape.Describes predicates sort)
    (h' : shape'.Describes predicates sort) {c : RangeCondition} (hc : c ∈ shape.range.toList) :
    c ∈ shape'.range.toList := by
  have hfield : c.field ∈ shape'.range.fields := by
    rw [h'.mem_range_iff, ← h.mem_range_iff]
    exact List.mem_map_of_mem hc
  obtain ⟨c', hc', hsame⟩ := List.mem_map.1 hfield
  rwa [(h.boundedBy c hc).unique (h'.boundedBy c' hc') hsame.symm]

/-- A query has at most one shape. -/
theorem Describes.unique (h : shape.Describes predicates sort)
    (h' : shape'.Describes predicates sort) : shape = shape' := by
  have hequality : shape.equality = shape'.equality :=
    FieldSet.ext fun f => (h.mem_equality_iff f).trans (h'.mem_equality_iff f).symm
  have hrange : shape.range = shape'.range :=
    RangeSet.ext fun c => ⟨h.mem_range h', h'.mem_range h⟩
  have hsort : shape.sort = shape'.sort := h.sort_eq.trans h'.sort_eq.symm
  cases shape
  cases shape'
  subst hequality hrange hsort
  rfl

/-- The fields of a shape are those that the query names. -/
theorem Describes.mem_fields_iff (h : shape.Describes predicates sort) {f : String} :
    f ∈ shape.fields ↔ f ∈ predicates.map (·.field) ++ fieldNames sort := by
  have hsort : f ∈ fieldNames shape.sort ↔ f ∈ fieldNames sort ∧ ¬ Pinned predicates f := by
    rw [h.sort_eq]
    simp only [fieldNames, List.mem_map, List.mem_filter, decide_eq_true_eq]
    constructor
    · rintro ⟨k, ⟨hk, hpinned⟩, rfl⟩
      exact ⟨⟨k, hk, rfl⟩, hpinned⟩
    · rintro ⟨⟨k, hk, rfl⟩, hpinned⟩
      exact ⟨k, ⟨hk, hpinned⟩, rfl⟩
  rw [fields, List.mem_append, List.mem_append, List.mem_append, FieldSet.mem_toList,
    h.mem_equality_iff, h.mem_range_iff, ← pinned_or_restricted_iff, hsort]
  -- a sort key that the shape has dropped is on a field that is pinned
  by_cases hpinned : Pinned predicates f <;> simp [hpinned, or_comm]

/-- The number of fields of a shape is the number of different fields that the query
names. -/
theorem Describes.fieldCount_eq (h : shape.Describes predicates sort) :
    shape.fieldCount = (predicates.map (·.field) ++ fieldNames sort).toFinset.card := by
  have hfields :
      shape.fields.toFinset = (predicates.map (·.field) ++ fieldNames sort).toFinset := by
    ext f
    rw [List.mem_toFinset, List.mem_toFinset, h.mem_fields_iff]
  have hnodup : shape.fields.Nodup := shape.nodup
  rw [← hfields, List.toFinset_card_of_nodup hnodup, length_fields]

/-- Only the empty query has an empty shape. -/
theorem Describes.isEmpty_iff (h : shape.Describes predicates sort) :
    shape.isEmpty = true ↔ predicates = [] ∧ sort = [] := by
  rw [isEmpty, decide_eq_true_eq, h.fieldCount_eq, Finset.card_eq_zero,
    List.toFinset_eq_empty_iff, List.append_eq_nil_iff, List.map_eq_nil_iff, fieldNames,
    List.map_eq_nil_iff]

end QueryShape

/-- The shape that normalization gives is the shape of the query. -/
theorem describes_of_normalize_eq_ok (h : normalize predicates sort = .ok shape) :
    shape.Describes predicates sort := by
  obtain ⟨roles, hreads, -, hequality, hrange⟩ := exists_reads_of_normalize_eq_ok h
  refine ⟨fun f => ?_, fun f => ?_, ?_, ?_⟩
  · rw [hequality, hreads.mem_equality_iff]
  · rw [hrange, hreads.mem_range_iff]
  · rw [hrange]
    exact hreads.boundedBy
  · rw [sort_eq_filter_of_normalize_eq_ok h, hequality]
    simp only [hreads.mem_equality_iff]

/-- Normalization succeeds on the queries that can be normalized, and gives their shape. -/
theorem normalize_eq_ok_iff :
    normalize predicates sort = .ok shape ↔
      Compatible predicates sort ∧ shape.Describes predicates sort := by
  constructor
  · intro h
    exact ⟨exists_normalize_eq_ok_iff.1 ⟨shape, h⟩, describes_of_normalize_eq_ok h⟩
  · rintro ⟨hcompatible, hdescribes⟩
    obtain ⟨shape', h⟩ := exists_normalize_eq_ok_iff.2 hcompatible
    rw [h, (describes_of_normalize_eq_ok h).unique hdescribes]

/-! ## Order and repetition -/

section SamePredicates

variable (hsame : ∀ p, p ∈ more ↔ p ∈ predicates)
include hsame

theorem pinned_congr {f : String} : Pinned more f ↔ Pinned predicates f := by
  simp only [Pinned, hsame]

theorem restricted_congr {f : String} : Restricted more f ↔ Restricted predicates f := by
  simp only [Restricted, hsame]

theorem asks_congr {f : String} {kind : Json → Condition} :
    Asks more f kind ↔ Asks predicates f kind := by
  simp only [Asks, hsame]

/-- Whether a query can be normalized depends only on which predicates there are. -/
theorem Compatible.congr (h : Compatible more sort) : Compatible predicates sort where
  named p hp := h.named p ((hsame p).2 hp)
  roles f := by
    rw [← pinned_congr hsame, ← restricted_congr hsame]
    exact h.roles f
  named_sort := h.named_sort
  nodup_sort := h.nodup_sort
  sort_not_restricted k hk := by
    rw [← restricted_congr hsame]
    exact h.sort_not_restricted k hk

/-- Which shape a query has depends only on which predicates there are. -/
theorem QueryShape.Describes.congr (h : shape.Describes more sort) :
    shape.Describes predicates sort where
  mem_equality_iff f := (h.mem_equality_iff f).trans (pinned_congr hsame)
  mem_range_iff f := (h.mem_range_iff f).trans (restricted_congr hsame)
  boundedBy c hc :=
    { lower := (h.boundedBy c hc).lower.congr (asks_congr hsame) (asks_congr hsame)
      upper := (h.boundedBy c hc).upper.congr (asks_congr hsame) (asks_congr hsame) }
  sort_eq := by
    rw [h.sort_eq]
    simp only [pinned_congr hsame]

theorem normalize_eq_ok_congr (h : normalize more sort = .ok shape) :
    normalize predicates sort = .ok shape := by
  obtain ⟨hcompatible, hdescribes⟩ := normalize_eq_ok_iff.1 h
  exact normalize_eq_ok_iff.2 ⟨hcompatible.congr hsame, hdescribes.congr hsame⟩

end SamePredicates

/-! ## The meaning of normalization -/

/-- **The meaning of normalization.**  A query has a shape iff all its fields have names, no
field is both pinned and restricted, and its sort names no field twice and none that is
restricted.  The shape has the pinned fields as equalities, the restricted ones as ranges,
each with the tightest bounds that are set there, and the sort without the pinned fields.
Its roles are disjoint, and together they are the fields that the query names.  The order of
the predicates has no influence on this, and neither has their repetition. -/
theorem normalize_meaning (predicates : List Predicate) (sort : List Key) :
    ((∃ shape, normalize predicates sort = .ok shape) ↔ Compatible predicates sort) ∧
    (∀ shape, normalize predicates sort = .ok shape →
      shape.Describes predicates sort ∧
      ((∀ f ∈ shape.equality, f ∉ fieldNames shape.sort ∧ f ∉ shape.range.fields) ∧
        (∀ f ∈ fieldNames shape.sort, f ∉ shape.range.fields) ∧
        (fieldNames shape.sort).Nodup) ∧
      shape.fieldCount = (predicates.map (·.field) ++ fieldNames sort).toFinset.card ∧
      (shape.isEmpty = true ↔ predicates = [] ∧ sort = [])) ∧
    ∀ more : List Predicate, (∀ p, p ∈ more ↔ p ∈ predicates) →
      ∀ shape, normalize more sort = .ok shape ↔ normalize predicates sort = .ok shape := by
  refine ⟨exists_normalize_eq_ok_iff, fun shape h => ?_, fun more hsame shape => ?_⟩
  · have hdescribes := describes_of_normalize_eq_ok h
    exact ⟨hdescribes, shape.disjoint_roles, hdescribes.fieldCount_eq, hdescribes.isEmpty_iff⟩
  · exact ⟨normalize_eq_ok_congr hsame, normalize_eq_ok_congr fun p => (hsame p).symm⟩

/-- A strict bound wins over inclusive ones before and after it, and a pinned field is left
out of the sort. -/
example :
    (normalize
      [⟨"day", .gte (.ofNat 1)⟩, ⟨"state", .eq (.ofNat 3)⟩, ⟨"day", .gt (.ofNat 2)⟩,
        ⟨"day", .gte (.ofNat 3)⟩, ⟨"day", .lte (.ofNat 9)⟩]
      [⟨"state", .asc⟩, ⟨"number", .desc⟩]).map
        (fun shape => (shape.equality.toList, shape.sort, shape.range.toList)) =
      .ok (["state"], [⟨"number", .desc⟩], [⟨"day", .strict, .inclusive⟩]) := rfl

end IndexPlanner
