import IndexPlanner.Proofs.Catalog.Runs

/-!
# A batch is registered like its members

A list of indexes can be registered as a batch, or one index after another.  The two ways
check the indexes by different means: a batch is walked with the indexes before and with the
set of their names beside it, and a single index is looked up in the catalog.  This file
shows that they accept the same lists, and that what they do not accept they refuse for the
same reason, however many faults a list has.

* `firstError?` is the reason of the first refusal among requests.
* `batchFault?_cons`: one step of the walk over a batch asks of an index what the catalog
  with the indexes before it asks.
* `batchFault?_eq_firstError?`: so the fault of a batch is the first refusal when its members
  are added.
* `ofDefinitions_agrees_with_adding`: a catalog that is made of definitions, or in which
  definitions take the place of all others, against one to which they are added.
-/

namespace IndexPlanner
namespace Catalog

variable {c : Catalog} {d : IndexDefinition} {ds : List IndexDefinition} {e : CatalogError}
  {names : FieldSet}

/-! ## The first refusal -/

/-- Why the first of the requests that were refused was refused. -/
def firstError? : List (Request × Change) → Option CatalogError
  | [] => none
  | s :: steps =>
    match s.2.outcome with
    | .error e => some e
    | .ok _ => firstError? steps

@[simp] theorem firstError?_nil : firstError? [] = none := rfl

theorem firstError?_cons_of_error {s : Request × Change} {steps : List (Request × Change)}
    (h : s.2.outcome = .error e) : firstError? (s :: steps) = some e := by
  simp only [firstError?, h]

theorem firstError?_cons_of_ok {s : Request × Change} {steps : List (Request × Change)}
    {v : CatalogVersion} (h : s.2.outcome = .ok v) :
    firstError? (s :: steps) = firstError? steps := by
  simp only [firstError?, h]

/-- There is no first refusal iff there is none. -/
theorem firstError?_eq_none_iff {steps : List (Request × Change)} :
    firstError? steps = none ↔ ∀ s ∈ steps, s.2.outcome.isOk = true := by
  induction steps with
  | nil => simp
  | cons s steps ih =>
    rw [List.forall_mem_cons]
    cases hs : s.2.outcome with
    | error e =>
      rw [firstError?_cons_of_error hs]
      simp [Except.isOk, Except.toBool]
    | ok v =>
      rw [firstError?_cons_of_ok hs, ih]
      exact (and_iff_right rfl).symm

/-! ## One step of a batch -/

/-- What is asked of the next index of a batch is what a catalog with the indexes before it
asks. -/
theorem batchFault?_cons (hnames : ∀ n, n ∈ names ↔ n ∈ c.indexes.map (·.name)) :
    batchFault? c.indexes names (d :: ds) =
      (c.fault? d).or (batchFault? (c.indexes ++ [d]) (names.insert d.name) ds) := by
  have hname : (c.get? d.name).isSome = true ↔ d.name ∈ names := by
    simp [get?, hnames]
  rw [batchFault?, fault?, findSameKey?]
  by_cases hempty : d.isEmpty = true
  · rw [if_pos hempty, if_pos hempty, Option.some_or]
  · rw [if_neg hempty, if_neg hempty]
    cases c.indexes.find? (·.sameKey d) with
    | some existing => rfl
    | none =>
      by_cases hmem : d.name ∈ names
      · simp only [if_pos hmem, if_pos (hname.2 hmem), Option.some_or]
      · simp only [if_neg hmem, if_neg (mt hname.1 hmem), Option.none_or]

/-- The names of the indexes before, once one more index is among them. -/
theorem mem_insert_name_iff (hnames : ∀ n, n ∈ names ↔ n ∈ c.indexes.map (·.name)) (n : String) :
    n ∈ names.insert d.name ↔ n ∈ (c.indexes ++ [d]).map (·.name) := by
  rw [FieldSet.mem_insert, hnames, List.map_append, List.mem_append, List.map_singleton,
    List.mem_singleton, or_comm]

/-- An index without a fault is registered after all others. -/
theorem add_succeeds_of_fault?_eq_none (h : c.fault? d = none) :
    (c.add d).Succeeds c (c.indexes ++ [d]) { catalogAdds := 1 } := by
  obtain ⟨hne, hkeys, hnames⟩ := fault?_eq_none_iff.1 h
  exact add_succeeds hne fun i hi => ⟨hkeys i hi, hnames i hi⟩

/-! ## The whole batch -/

/-- The fault of a batch is the first refusal when its members are added one after another
to the indexes before them. -/
theorem batchFault?_eq_firstError? (hnames : ∀ n, n ∈ names ↔ n ∈ c.indexes.map (·.name)) :
    batchFault? c.indexes names ds = firstError? (c.history (ds.map .add)) := by
  -- the catalog that the members have made so far has the indexes that the walk has passed
  induction ds generalizing c names with
  | nil => rfl
  | cons d ds ih =>
    rw [batchFault?_cons hnames, List.map_cons, history]
    cases hfault : c.fault? d with
    | some e =>
      have hrefused : (c.perform (.add d)).outcome = .error e := by
        rw [perform, add_of_fault? hfault, refuse]
      rw [firstError?_cons_of_error hrefused, Option.some_or]
    | none =>
      have hadded := add_succeeds_of_fault?_eq_none hfault
      have hnames' := mem_insert_name_iff (d := d) hnames
      rw [← hadded.indexes] at hnames' ⊢
      rw [firstError?_cons_of_ok hadded.outcome, Option.none_or]
      exact ih hnames'

/-- Indexes that are added without a refusal are registered in their order, after those that
were there. -/
theorem indexes_after_add (h : firstError? (c.history (ds.map .add)) = none) :
    (c.after (ds.map .add)).indexes = c.indexes ++ ds := by
  induction ds generalizing c with
  | nil => exact (List.append_nil _).symm
  | cons d ds ih =>
    have hall := firstError?_eq_none_iff.1 h
    have hadded : (c.add d).Succeeds c (c.indexes ++ [d]) { catalogAdds := 1 } :=
      add_succeeds_of_isOk (hall _ List.mem_cons_self)
    rw [List.map_cons, history, firstError?_cons_of_ok hadded.outcome] at h
    have hrest : ((c.add d).catalog.after (ds.map .add)).indexes =
        (c.add d).catalog.indexes ++ ds := ih h
    rw [List.map_cons, after, perform, hrest, hadded.indexes, List.append_assoc,
      List.singleton_append]

/-- The reason for which no catalog is made of definitions. -/
theorem ofDefinitions_eq_error_iff :
    ofDefinitions ds = .error e ↔ firstError? (empty.history (ds.map .add)) = some e := by
  have hfirst : batchFault? [] .empty ds = firstError? (empty.history (ds.map .add)) :=
    batchFault?_eq_firstError? (c := empty) fun n => by simp [empty]
  rw [← hfirst]
  unfold ofDefinitions
  split
  · next e' he' =>
    rw [he', Except.error.injEq, Option.some.injEq]
  · next hnone => simp [hnone]

/-- A catalog is made of definitions iff none of them is refused. -/
theorem exists_ofDefinitions_eq_ok_iff_firstError? :
    (∃ c, ofDefinitions ds = .ok c) ↔ firstError? (empty.history (ds.map .add)) = none := by
  cases hds : ofDefinitions ds with
  | error e =>
    rw [ofDefinitions_eq_error_iff.1 hds]
    simp
  | ok c =>
    cases hfirst : firstError? (empty.history (ds.map .add)) with
    | none => simp
    | some e =>
      rw [ofDefinitions_eq_error_iff.2 hfirst] at hds
      simp at hds

/-- What comes of a batch in the place of all indexes is what comes of it on its own. -/
theorem outcome_replaceAll (c : Catalog) (ds : List IndexDefinition) :
    (c.replaceAll ds).outcome = (ofDefinitions ds).map fun _ => c.version.next := by
  rw [replaceAll]
  cases ofDefinitions ds with
  | error e => rfl
  | ok fresh => rfl

/-- **A batch agrees with its members.**  A catalog is made of definitions iff all of them
are accepted when they are added to the empty catalog in their order, and then both catalogs
hold the same indexes.  If it is not made, the reason is that of the first refusal, the
index that was there before included.  And definitions take the place of all indexes of a
catalog, or are refused, exactly as a catalog is made of them, whatever it holds. -/
theorem ofDefinitions_agrees_with_adding (ds : List IndexDefinition) :
    ((∃ c, ofDefinitions ds = .ok c) ↔
      ∀ s ∈ empty.history (ds.map .add), s.2.outcome.isOk = true) ∧
    (∀ c, ofDefinitions ds = .ok c →
      c.indexes = (empty.after (ds.map .add)).indexes ∧ c.indexes = ds) ∧
    (∀ e, ofDefinitions ds = .error e ↔
      firstError? (empty.history (ds.map .add)) = some e) ∧
    ∀ c : Catalog,
      ((c.replaceAll ds).outcome = .ok c.version.next ↔ ∃ fresh, ofDefinitions ds = .ok fresh) ∧
      ∀ e, (c.replaceAll ds).outcome = .error e ↔ ofDefinitions ds = .error e := by
  refine ⟨?_, fun c hc => ?_, fun e => ofDefinitions_eq_error_iff, fun c => ?_⟩
  · rw [exists_ofDefinitions_eq_ok_iff_firstError?, firstError?_eq_none_iff]
  · have hnone := exists_ofDefinitions_eq_ok_iff_firstError?.1 ⟨c, hc⟩
    have hindexes := (of_ofDefinitions_eq_ok hc).2
    refine ⟨?_, hindexes⟩
    rw [hindexes, indexes_after_add hnone]
    exact (List.nil_append ds).symm
  · rw [outcome_replaceAll]
    cases ofDefinitions ds with
    | error e => simp [Except.map]
    | ok fresh => simp [Except.map]

/-- If the last of three indexes has the keys of the second and the name of the first, it is
refused for its keys. -/
example :
    let batch := [oneKey "a" "x" (by decide) (by decide), oneKey "b" "y" (by decide) (by decide),
      oneKey "a" "y" (by decide) (by decide)]
    firstError? (empty.history (batch.map .add)) = some (.duplicateIndex "a" "b") := by
  decide +kernel

end Catalog
end IndexPlanner
