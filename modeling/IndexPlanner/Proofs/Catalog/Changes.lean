import IndexPlanner.Catalog

/-!
# What a change does to a catalog

There are three changes, and each of them checks in its own way whether it may be made.
This file says of each exactly when it is made and what the catalog is afterwards, in terms
of the registered indexes alone.

* `Change.Succeeds` and `Change.Fails` are the two things that can come of a change: the
  next version with given indexes, or the same catalog and one more rejection.
* `add_succeeds`, `add_fails`: an index is added if it has keys and its keys and its name
  are new.
* `outcome_add_eq_error_iff`: an index with new keys is refused for its name only.
* `drop_succeeds`, `drop_fails`: the index with a name is dropped if there is one.  Names
  are distinct, so it is that index which is dropped and no other.
* `batchFault?_eq_none_iff`, `replaceAll_succeeds`, `replaceAll_fails`: indexes take the
  place of all others if they can be registered together.
-/

namespace IndexPlanner

/-- If no two members have the same image, the first member with the image of a member is
that member. -/
theorem eraseP_eq_erase_of_nodup_map {α β : Type} [DecidableEq α] [DecidableEq β]
    {f : α → β} {l : List α} (h : (l.map f).Nodup) {a : α} (ha : a ∈ l) :
    l.eraseP (fun b => f b = f a) = l.erase a := by
  induction l with
  | nil => exact absurd ha List.not_mem_nil
  | cons b l ih =>
    rw [List.map_cons, List.nodup_cons] at h
    by_cases hab : b = a
    · subst hab
      rw [List.eraseP_cons_of_pos (by simp), List.erase_cons_head]
    · have hmem : a ∈ l := (List.mem_cons.1 ha).resolve_left fun heq => hab heq.symm
      have hne : f b ≠ f a := fun heq => h.1 (heq ▸ List.mem_map_of_mem hmem)
      rw [List.eraseP_cons_of_neg (by simpa using hne), ih h.2 hmem,
        List.erase_cons_tail (by simpa using hab)]

/-- What is known of an index that is registered together with those before it. -/
theorem Registrable.new_of_append_cons {before ds : List IndexDefinition}
    {d : IndexDefinition} (h : Registrable (before ++ d :: ds)) :
    d.keys ≠ [] ∧ (∀ e ∈ before, e.keys ≠ d.keys) ∧ ∀ e ∈ before, e.name ≠ d.name := by
  have hkeys := h.keys
  have hnames := h.names
  rw [List.map_append, List.map_cons, List.nodup_append] at hkeys hnames
  refine ⟨h.nonempty d (by simp), fun e he => ?_, fun e he => ?_⟩
  · exact hkeys.2.2 e.keys (List.mem_map_of_mem he) d.keys List.mem_cons_self
  · exact hnames.2.2 e.name (List.mem_map_of_mem he) d.name List.mem_cons_self

namespace Catalog

variable {c : Catalog}

/-! ## Success and failure -/

/-- The change of `c` was made: the catalog has the next version, which is also what the
change gives back, and holds the indexes `ds`. -/
structure Change.Succeeds (change : Change) (c : Catalog) (ds : List IndexDefinition)
    (counts : Counters) : Prop where
  outcome : change.outcome = .ok c.version.next
  version : change.catalog.version = c.version.next
  indexes : change.catalog.indexes = ds
  counts : change.activity.counts = counts

/-- The change of `c` was refused: the catalog is as it was, and one rejection more is
counted and nothing else. -/
structure Change.Fails (change : Change) (c : Catalog) : Prop where
  outcome : ∃ e, change.outcome = .error e
  catalog : change.catalog = c
  counts : change.activity.counts = { catalogRejections := 1 }

theorem fails_refuse (c : Catalog) (operation : String) (e : CatalogError) :
    (c.refuse operation e).Fails c := ⟨⟨e, rfl⟩, rfl, rfl⟩

theorem Change.Succeeds.isOk {change : Change} {ds : List IndexDefinition}
    {counts : Counters} (h : change.Succeeds c ds counts) : change.outcome.isOk = true := by
  rw [h.outcome]
  rfl

theorem Change.Fails.isOk {change : Change} (h : change.Fails c) :
    change.outcome.isOk = false := by
  obtain ⟨e, he⟩ := h.outcome
  rw [he]
  rfl

/-- No change succeeds and fails. -/
theorem Change.Succeeds.not_fails {change : Change} {ds : List IndexDefinition}
    {counts : Counters} (h : change.Succeeds c ds counts) : ¬ change.Fails c := by
  intro hfails
  have hok := h.isOk
  rw [hfails.isOk] at hok
  simp at hok

/-- A change that is made under a condition and refused without it tells by what comes of
it whether the condition holds. -/
theorem Change.succeeds_iff_and_fails_iff {change : Change} {ds : List IndexDefinition}
    {counts : Counters} {p : Prop} (hmade : p → change.Succeeds c ds counts)
    (hrefused : ¬ p → change.Fails c) :
    (change.Succeeds c ds counts ↔ p) ∧ (change.Fails c ↔ ¬ p) := by
  refine ⟨⟨fun h => ?_, hmade⟩, ⟨fun h hp => (hmade hp).not_fails h, hrefused⟩⟩
  exact Classical.byContradiction fun hp => h.not_fails (hrefused hp)

/-! ## Adding -/

/-- An index with keys whose keys and name are new is registered after all others. -/
theorem add_succeeds {d : IndexDefinition} (hne : d.keys ≠ [])
    (hnew : ∀ e ∈ c.indexes, e.keys ≠ d.keys ∧ e.name ≠ d.name) :
    (c.add d).Succeeds c (c.indexes ++ [d]) { catalogAdds := 1 } := by
  have hfault : c.fault? d = none :=
    fault?_eq_none_iff.2 ⟨hne, fun e he => (hnew e he).1, fun e he => (hnew e he).2⟩
  unfold add
  split
  · next e he =>
    rw [hfault] at he
    simp at he
  · exact ⟨rfl, rfl, rfl, rfl⟩

/-- All other indexes are refused. -/
theorem add_fails {d : IndexDefinition}
    (h : ¬ (d.keys ≠ [] ∧ ∀ e ∈ c.indexes, e.keys ≠ d.keys ∧ e.name ≠ d.name)) :
    (c.add d).Fails c := by
  unfold add
  split
  · exact fails_refuse c _ _
  · next hfault =>
    obtain ⟨hne, hkeys, hnames⟩ := fault?_eq_none_iff.1 hfault
    exact absurd ⟨hne, fun e he => ⟨hkeys e he, hnames e he⟩⟩ h

/-- An index that was not refused is registered after all others. -/
theorem add_succeeds_of_isOk {d : IndexDefinition} (h : (c.add d).outcome.isOk = true) :
    (c.add d).Succeeds c (c.indexes ++ [d]) { catalogAdds := 1 } := by
  by_cases hp : d.keys ≠ [] ∧ ∀ e ∈ c.indexes, e.keys ≠ d.keys ∧ e.name ≠ d.name
  · exact add_succeeds hp.1 hp.2
  · rw [(add_fails hp).isOk] at h
    simp at h

/-- An index is refused for its fault. -/
theorem add_of_fault? {d : IndexDefinition} {e : CatalogError} (h : c.fault? d = some e) :
    c.add d = c.refuse "add" e := by
  unfold add
  split
  · next e' he' =>
    obtain rfl : e = e' := Option.some.inj (h.symm.trans he')
    rfl
  · next hnone =>
    rw [h] at hnone
    simp at hnone

/-- An index with new keys can only be at fault for its name. -/
theorem fault?_of_keys_ne {d : IndexDefinition} (hne : d.keys ≠ [])
    (hkeys : ∀ i ∈ c.indexes, i.keys ≠ d.keys) :
    c.fault? d = if ∃ i ∈ c.indexes, i.name = d.name then some (.nameInUse d.name) else none := by
  have hempty : ¬ d.isEmpty = true := by simpa [IndexDefinition.isEmpty] using hne
  have hsame : c.findSameKey? d = none :=
    List.find?_eq_none.2 fun i hi hi' => hkeys i hi (IndexDefinition.sameKey_iff.1 hi')
  rw [fault?, if_neg hempty, hsame]
  simp only [get?, List.find?_isSome, decide_eq_true_eq]

/-- An index with new keys is refused iff its name is taken. -/
theorem outcome_add_eq_error_iff {d : IndexDefinition} {e : CatalogError} (hne : d.keys ≠ [])
    (hkeys : ∀ i ∈ c.indexes, i.keys ≠ d.keys) :
    (c.add d).outcome = .error e ↔ e = .nameInUse d.name ∧ ∃ i ∈ c.indexes, i.name = d.name := by
  by_cases hname : ∃ i ∈ c.indexes, i.name = d.name
  · have hfault := fault?_of_keys_ne hne hkeys
    rw [if_pos hname] at hfault
    rw [add_of_fault? hfault, refuse, Except.error.injEq, and_iff_left hname]
    exact eq_comm
  · have hnew : ∀ i ∈ c.indexes, i.keys ≠ d.keys ∧ i.name ≠ d.name :=
      fun i hi => ⟨hkeys i hi, fun heq => hname ⟨i, hi, heq⟩⟩
    rw [(add_succeeds hne hnew).outcome]
    simp [hname]

/-! ## Dropping -/

/-- An index is dropped by its name, and all others stay in their order. -/
theorem drop_succeeds {d : IndexDefinition} (hd : d ∈ c.indexes) :
    (c.drop d.name).Succeeds c (c.indexes.erase d) { catalogDrops := 1 } := by
  have hfound : (c.get? d.name).isSome = true :=
    List.find?_isSome.2 ⟨d, hd, decide_eq_true rfl⟩
  rw [drop, if_pos hfound]
  exact ⟨rfl, rfl, eraseP_eq_erase_of_nodup_map c.registrable.names hd, rfl⟩

/-- A name that no index has cannot be dropped. -/
theorem drop_fails {name : String} (h : ∀ d ∈ c.indexes, d.name ≠ name) :
    (c.drop name).Fails c := by
  have hmissing : ¬ (c.get? name).isSome = true := by
    rw [get?, List.find?_isSome]
    rintro ⟨d, hd, hname⟩
    exact h d hd (of_decide_eq_true hname)
  rw [drop, if_neg hmissing]
  exact fails_refuse c _ _

/-- If a name was not refused, an index has it and is dropped. -/
theorem drop_succeeds_of_isOk {name : String} (h : (c.drop name).outcome.isOk = true) :
    ∃ d ∈ c.indexes, d.name = name ∧
      (c.drop name).Succeeds c (c.indexes.erase d) { catalogDrops := 1 } := by
  by_cases hp : ∃ d ∈ c.indexes, d.name = name
  · obtain ⟨d, hd, rfl⟩ := hp
    exact ⟨d, hd, rfl, drop_succeeds hd⟩
  · rw [(drop_fails fun d hd hname => hp ⟨d, hd, hname⟩).isOk] at h
    simp at h

/-! ## Replacing -/

/-- A batch has no fault if it can be registered together with what was found in order. -/
theorem batchFault?_eq_none_of_registrable {before ds : List IndexDefinition}
    {names : FieldSet} (hnames : ∀ n ∈ names, n ∈ before.map (·.name))
    (h : Registrable (before ++ ds)) : batchFault? before names ds = none := by
  induction ds generalizing before names with
  | nil => rfl
  | cons d ds ih =>
    obtain ⟨hne, hkeys, hname⟩ := h.new_of_append_cons
    have hempty : ¬ d.isEmpty = true := by simpa [IndexDefinition.isEmpty] using hne
    have hfind : before.find? (·.sameKey d) = none :=
      List.find?_eq_none.2 fun e he hsame => hkeys e he (IndexDefinition.sameKey_iff.1 hsame)
    have hfresh : d.name ∉ names := by
      intro hmem
      obtain ⟨e, he, heq⟩ := List.mem_map.1 (hnames d.name hmem)
      exact hname e he heq
    rw [batchFault?, if_neg hempty, hfind]
    show (if d.name ∈ names then _ else _) = none
    rw [if_neg hfresh]
    refine ih (fun n hn => ?_) (by simpa using h)
    rw [List.map_append, List.mem_append]
    rcases FieldSet.mem_insert.1 hn with rfl | hn
    · exact .inr (by simp)
    · exact .inl (hnames n hn)

/-- A list of indexes passes the check of a batch iff they can be registered together. -/
theorem batchFault?_eq_none_iff {ds : List IndexDefinition} :
    batchFault? [] .empty ds = none ↔ Registrable ds := by
  constructor
  · exact registrable_of_batchFault?_empty
  · intro h
    exact batchFault?_eq_none_of_registrable
      (fun n hn => absurd hn (FieldSet.not_mem_empty n)) h

/-- A catalog that is made of definitions holds them and has not been changed. -/
theorem of_ofDefinitions_eq_ok {ds : List IndexDefinition} (h : ofDefinitions ds = .ok c) :
    c.version = .initial ∧ c.indexes = ds := by
  unfold ofDefinitions at h
  split at h
  · simp at h
  · obtain rfl := Except.ok.inj h
    exact ⟨rfl, rfl⟩

/-- A catalog is made of definitions iff they can be registered together. -/
theorem exists_ofDefinitions_eq_ok_iff {ds : List IndexDefinition} :
    (∃ c, ofDefinitions ds = .ok c) ↔ Registrable ds := by
  constructor
  · rintro ⟨c, hc⟩
    obtain ⟨-, rfl⟩ := of_ofDefinitions_eq_ok hc
    exact c.registrable
  · intro h
    unfold ofDefinitions
    split
    · next e he =>
      rw [batchFault?_eq_none_iff.2 h] at he
      simp at he
    · exact ⟨_, rfl⟩

/-- Indexes that can be registered together take the place of all others. -/
theorem replaceAll_succeeds {ds : List IndexDefinition} (h : Registrable ds) :
    (c.replaceAll ds).Succeeds c ds {} := by
  obtain ⟨fresh, hfresh⟩ := exists_ofDefinitions_eq_ok_iff.2 h
  rw [replaceAll, hfresh]
  exact ⟨rfl, rfl, (of_ofDefinitions_eq_ok hfresh).2, rfl⟩

/-- All other lists of indexes are refused. -/
theorem replaceAll_fails {ds : List IndexDefinition} (h : ¬ Registrable ds) :
    (c.replaceAll ds).Fails c := by
  cases hds : ofDefinitions ds with
  | error e =>
    rw [replaceAll, hds]
    exact fails_refuse c _ _
  | ok fresh => exact absurd (exists_ofDefinitions_eq_ok_iff.1 ⟨fresh, hds⟩) h

end Catalog
end IndexPlanner
