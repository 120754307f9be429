import IndexPlanner.Proofs.Advice.Ranking
import IndexPlanner.Proofs.Catalog.Runs

/-!
# Changes that undo each other, and changes in another order

A change is looked at by what it leaves registered.  So two changes can be compared although
each of them checks in its own way whether it may be made: what they leave is a list of indexes,
and the lists are compared.

* `drop_add_succeeds` and `add_drop_succeeds`: an index that was added is dropped again, and
  then the catalog is as it was; one that was dropped is added again, at the end.
* `isOk_add_of_isOk_add_add` and `indexes_add_add`: two indexes that can be added in one order
  can be added in the other one, and the indexes are the same but for their order.
* `drop_drop_succeeds`: two indexes can be dropped in either order, and what is left is the same
  list.
* `AdvisedAlike` says of two catalogs that no advisor tells them apart by what it advises;
  `advisedAlike_of_perm` has this of catalogs with the same indexes.

What makes the laws hold is that names and keys are distinct, in the form of
`Registrable.ne_of_mem_erase`: without one index, its name and its keys are free.
-/

namespace IndexPlanner

/-- Of indexes that are registered together, all but one have another name and other keys than
this one. -/
theorem Registrable.ne_of_mem_erase {indexes : List IndexDefinition} {d e : IndexDefinition}
    (h : Registrable indexes) (hd : d ∈ indexes) (he : e ∈ indexes.erase d) :
    e.keys ≠ d.keys ∧ e.name ≠ d.name := by
  have hperm : indexes.Perm (d :: indexes.erase d) := List.perm_cons_erase hd
  have hkeys := (hperm.map (·.keys)).nodup_iff.1 h.keys
  have hnames := (hperm.map (·.name)).nodup_iff.1 h.names
  rw [List.map_cons, List.nodup_cons] at hkeys hnames
  constructor
  · intro heq
    exact hkeys.1 (heq ▸ List.mem_map_of_mem he)
  · intro heq
    exact hnames.1 (heq ▸ List.mem_map_of_mem he)

namespace Catalog

variable {c : Catalog} {a b d e : IndexDefinition}

/-! ## Two changes in a row -/

/-- Two changes that were made take a catalog two versions further. -/
theorem Change.Succeeds.version_next {first second : Change} {ds ds' : List IndexDefinition}
    {counts counts' : Counters} (hfirst : first.Succeeds c ds counts)
    (hsecond : second.Succeeds first.catalog ds' counts') :
    second.catalog.version.number = c.version.number + 2 := by
  rw [hsecond.version, hfirst.version]
  show c.version.number + 1 + 1 = c.version.number + 2
  rw [UInt64.add_assoc]
  rfl

/-- A catalog is determined by its version and its indexes. -/
theorem eq_of_version_of_indexes {c c' : Catalog} (hversion : c.version = c'.version)
    (hindexes : c.indexes = c'.indexes) : c = c' := by
  cases c
  cases c'
  subst hversion hindexes
  rfl

/-- Which indexes are added. -/
theorem isOk_add_iff : (c.add d).outcome.isOk = true ↔
    d.keys ≠ [] ∧ ∀ i ∈ c.indexes, i.keys ≠ d.keys ∧ i.name ≠ d.name := by
  constructor
  · intro h
    refine Classical.byContradiction fun hp => ?_
    rw [(add_fails hp).isOk] at h
    exact Bool.false_ne_true h
  · rintro ⟨hne, hnew⟩
    exact (add_succeeds hne hnew).isOk

/-- An index that was added is dropped, and what was registered before is left. -/
theorem drop_add_succeeds (h : (c.add d).outcome.isOk = true) :
    ((c.add d).catalog.drop d.name).Succeeds (c.add d).catalog c.indexes
      { catalogDrops := 1 } := by
  have hadded : (c.add d).catalog.indexes = c.indexes ++ [d] := (add_succeeds_of_isOk h).indexes
  have hnew : d ∉ c.indexes := fun hmem => ((isOk_add_iff.1 h).2 d hmem).2 rfl
  have herase : (c.add d).catalog.indexes.erase d = c.indexes := by
    rw [hadded, List.erase_append_right _ hnew, List.erase_cons_head, List.append_nil]
  have hmem : d ∈ (c.add d).catalog.indexes := hadded ▸ List.mem_append_right _ List.mem_cons_self
  exact herase ▸ drop_succeeds hmem

/-- An index that was dropped is added, after all others. -/
theorem add_drop_succeeds (hd : d ∈ c.indexes) :
    ((c.drop d.name).catalog.add d).Succeeds (c.drop d.name).catalog (c.indexes.erase d ++ [d])
      { catalogAdds := 1 } := by
  have hdropped : (c.drop d.name).catalog.indexes = c.indexes.erase d := (drop_succeeds hd).indexes
  rw [← hdropped]
  refine add_succeeds (c.registrable.nonempty d hd) fun i hi => ?_
  exact c.registrable.ne_of_mem_erase hd (hdropped ▸ hi)

/-- Two indexes that were added in a row can be added in the other order as well. -/
theorem isOk_add_of_isOk_add_add (ha : (c.add a).outcome.isOk = true)
    (hb : ((c.add a).catalog.add b).outcome.isOk = true) :
    (c.add b).outcome.isOk = true ∧ ((c.add b).catalog.add a).outcome.isOk = true := by
  have hadded : (c.add a).catalog.indexes = c.indexes ++ [a] := (add_succeeds_of_isOk ha).indexes
  obtain ⟨hne, hnew⟩ := isOk_add_iff.1 ha
  obtain ⟨hne', hnew'⟩ := isOk_add_iff.1 hb
  rw [hadded, List.forall_mem_append, List.forall_mem_singleton] at hnew'
  obtain ⟨hnew', hab⟩ := hnew'
  have hb' : (c.add b).outcome.isOk = true := isOk_add_iff.2 ⟨hne', hnew'⟩
  refine ⟨hb', isOk_add_iff.2 ⟨hne, ?_⟩⟩
  rw [(add_succeeds_of_isOk hb').indexes, List.forall_mem_append, List.forall_mem_singleton]
  exact ⟨hnew, hab.1.symm, hab.2.symm⟩

/-- Two indexes that were added in a row stand at the end, in this order. -/
theorem indexes_add_add (ha : (c.add a).outcome.isOk = true)
    (hb : ((c.add a).catalog.add b).outcome.isOk = true) :
    ((c.add a).catalog.add b).catalog.indexes = c.indexes ++ [a, b] := by
  rw [(add_succeeds_of_isOk hb).indexes, (add_succeeds_of_isOk ha).indexes, List.append_assoc]
  rfl

/-- Two indexes with different names are dropped one after the other. -/
theorem drop_drop_succeeds (hd : d ∈ c.indexes) (he : e ∈ c.indexes) (hne : d.name ≠ e.name) :
    ((c.drop d.name).catalog.drop e.name).Succeeds (c.drop d.name).catalog
      ((c.indexes.erase d).erase e) { catalogDrops := 1 } := by
  have hdropped : (c.drop d.name).catalog.indexes = c.indexes.erase d := (drop_succeeds hd).indexes
  have hother : e ≠ d := by
    rintro rfl
    exact hne rfl
  have hmem : e ∈ c.indexes.erase d := (List.mem_erase_of_ne hother).2 he
  rw [← hdropped] at hmem ⊢
  exact drop_succeeds hmem

/-! ## Advice -/

/-- No advisor tells two catalogs apart by its candidates or by what it recommends. -/
def AdvisedAlike (c c' : Catalog) : Prop :=
  ∀ (advisor : Advisor) (shape : QueryShape) (stats? : Option CorpusStats),
    (advisor.adviceOn shape c stats?).candidates = (advisor.adviceOn shape c' stats?).candidates ∧
    (advisor.adviceOn shape c stats?).recommendation? =
      (advisor.adviceOn shape c' stats?).recommendation?

/-- Catalogs with the same indexes in any orders are advised alike. -/
theorem advisedAlike_of_perm {c c' : Catalog} (h : c.indexes.Perm c'.indexes) :
    AdvisedAlike c c' := by
  intro advisor shape stats?
  have hcandidates := advisor.candidates_adviceOn_eq_of_perm shape stats? h
  exact ⟨hcandidates, advisor.recommendation?_adviceOn_congr shape hcandidates⟩

/-! ## The laws -/

/-- **Changes undo each other, and their order does not matter.**  If an index was added, it can
be dropped by its name, and then the indexes are what they were, two versions later.  If an
index was dropped, it can be added again, and then it is the last one.  Two indexes that can be
added in a row can be added in the other order, with the same version and the same indexes in
another order as the result.  Two indexes can be dropped in either order with the same catalog
as the result.  Nowhere does the order change what is advised. -/
theorem changes_undo_and_commute (c : Catalog) :
    (∀ d, (c.add d).outcome.isOk = true →
      ((c.add d).catalog.drop d.name).outcome.isOk = true ∧
      ((c.add d).catalog.drop d.name).catalog.indexes = c.indexes ∧
      ((c.add d).catalog.drop d.name).catalog.version.number = c.version.number + 2) ∧
    (∀ name, (c.drop name).outcome.isOk = true → ∃ d ∈ c.indexes, d.name = name ∧
      (c.drop name).catalog.indexes = c.indexes.erase d ∧
      ((c.drop name).catalog.add d).outcome.isOk = true ∧
      ((c.drop name).catalog.add d).catalog.indexes = c.indexes.erase d ++ [d] ∧
      ((c.drop name).catalog.add d).catalog.version.number = c.version.number + 2) ∧
    (∀ a b, (c.add a).outcome.isOk = true → ((c.add a).catalog.add b).outcome.isOk = true →
      (c.add b).outcome.isOk = true ∧ ((c.add b).catalog.add a).outcome.isOk = true ∧
      ((c.add b).catalog.add a).catalog.version = ((c.add a).catalog.add b).catalog.version ∧
      ((c.add b).catalog.add a).catalog.indexes.Perm ((c.add a).catalog.add b).catalog.indexes ∧
      AdvisedAlike ((c.add b).catalog.add a).catalog ((c.add a).catalog.add b).catalog) ∧
    ∀ d ∈ c.indexes, ∀ e ∈ c.indexes, d.name ≠ e.name →
      ((c.drop d.name).catalog.drop e.name).outcome.isOk = true ∧
      ((c.drop e.name).catalog.drop d.name).outcome.isOk = true ∧
      ((c.drop d.name).catalog.drop e.name).catalog.indexes = (c.indexes.erase d).erase e ∧
      ((c.drop e.name).catalog.drop d.name).catalog =
        ((c.drop d.name).catalog.drop e.name).catalog ∧
      AdvisedAlike ((c.drop e.name).catalog.drop d.name).catalog
        ((c.drop d.name).catalog.drop e.name).catalog := by
  refine ⟨fun d h => ?_, fun name h => ?_, fun a b ha hb => ?_, fun d hd e he hne => ?_⟩
  · have hundone := drop_add_succeeds h
    exact ⟨hundone.isOk, hundone.indexes, (add_succeeds_of_isOk h).version_next hundone⟩
  · obtain ⟨d, hd, rfl, hdropped⟩ := drop_succeeds_of_isOk h
    have hundone := add_drop_succeeds hd
    exact ⟨d, hd, rfl, hdropped.indexes, hundone.isOk, hundone.indexes,
      hdropped.version_next hundone⟩
  · obtain ⟨hb', ha'⟩ := isOk_add_of_isOk_add_add ha hb
    have hperm : ((c.add b).catalog.add a).catalog.indexes.Perm
        ((c.add a).catalog.add b).catalog.indexes := by
      rw [indexes_add_add hb' ha', indexes_add_add ha hb]
      exact (List.Perm.swap a b []).append_left c.indexes
    refine ⟨hb', ha', ?_, hperm, advisedAlike_of_perm hperm⟩
    rw [(add_succeeds_of_isOk ha').version, (add_succeeds_of_isOk hb').version,
      (add_succeeds_of_isOk hb).version, (add_succeeds_of_isOk ha).version]
  · have hde := drop_drop_succeeds hd he hne
    have hed := drop_drop_succeeds he hd hne.symm
    have hsame : ((c.drop e.name).catalog.drop d.name).catalog =
        ((c.drop d.name).catalog.drop e.name).catalog := by
      refine eq_of_version_of_indexes ?_ ?_
      · rw [hed.version, hde.version, (drop_succeeds he).version, (drop_succeeds hd).version]
      · rw [hed.indexes, hde.indexes, List.erase_comm]
    exact ⟨hde.isOk, hed.isOk, hde.indexes, hsame, advisedAlike_of_perm (hsame ▸ .refl _)⟩

/-- The index that was registered first. -/
def firstIndex : IndexDefinition := oneLetter 'x'

/-- The index that was registered after it. -/
def secondIndex : IndexDefinition := oneLetter 'y'

/-- An index that is not registered yet. -/
def newIndex : IndexDefinition := oneLetter 'z'

/-- Another one that is not registered yet. -/
def otherNewIndex : IndexDefinition := oneLetter 'w'

/-- A catalog with two indexes, to which two more can be added. -/
def twoIndexes : Catalog := empty.after [.add firstIndex, .add secondIndex]

/-- An index is added to the two and dropped again, and one of the two is dropped and added
again; two more are added in either order, and the two are dropped in either order. -/
theorem changes_undo_and_commute_twoIndexes :
    (twoIndexes.add newIndex).outcome.isOk = true ∧
    ((twoIndexes.add newIndex).catalog.drop newIndex.name).catalog.indexes =
      twoIndexes.indexes ∧
    (twoIndexes.drop firstIndex.name).outcome.isOk = true ∧
    (∃ d ∈ twoIndexes.indexes, d.name = firstIndex.name ∧
      (twoIndexes.drop firstIndex.name).catalog.indexes = twoIndexes.indexes.erase d ∧
      ((twoIndexes.drop firstIndex.name).catalog.add d).outcome.isOk = true) ∧
    ((twoIndexes.add newIndex).catalog.add otherNewIndex).outcome.isOk = true ∧
    ((twoIndexes.add otherNewIndex).catalog.add newIndex).outcome.isOk = true ∧
    (firstIndex ∈ twoIndexes.indexes ∧ secondIndex ∈ twoIndexes.indexes ∧
      firstIndex.name ≠ secondIndex.name) ∧
    ((twoIndexes.drop secondIndex.name).catalog.drop firstIndex.name).catalog =
      ((twoIndexes.drop firstIndex.name).catalog.drop secondIndex.name).catalog := by
  have hadded : (twoIndexes.add newIndex).outcome.isOk = true := by decide +kernel
  have hboth : ((twoIndexes.add newIndex).catalog.add otherNewIndex).outcome.isOk = true := by
    decide +kernel
  have hdropped : (twoIndexes.drop firstIndex.name).outcome.isOk = true := by decide +kernel
  have hregistered : firstIndex ∈ twoIndexes.indexes ∧ secondIndex ∈ twoIndexes.indexes ∧
      firstIndex.name ≠ secondIndex.name := by decide +kernel
  obtain ⟨hundo, hredo, hadds, hdrops⟩ := changes_undo_and_commute twoIndexes
  obtain ⟨d, hd, hname, herased, hagain, -⟩ := hredo firstIndex.name hdropped
  have hsame := hdrops firstIndex hregistered.1 secondIndex hregistered.2.1 hregistered.2.2
  exact ⟨hadded, (hundo newIndex hadded).2.1, hdropped, ⟨d, hd, hname, herased, hagain⟩, hboth,
    (hadds newIndex otherNewIndex hadded hboth).2.1, hregistered, hsame.2.2.2.1⟩

end Catalog
end IndexPlanner
