import IndexPlanner.Catalog.Storage
import IndexPlanner.Proofs.Catalog.Changes

/-!
# Runs of changes

A catalog is made empty, from definitions or from a file, and from then on it is changed by
requests, some of which are refused.  This file says what holds after any number of
requests, whatever they were and in whatever order they came.

* `Request` is a request for one of the three changes, `after` is the catalog after a list
  of requests, and `history` has every request with what came of it.
* `succeeds_or_fails_perform`: a request is either made, with what it counts as, or refused.
* `version_after` and `counted_history`: the version counts the requests that were made, and
  the counters count them by their kinds, with one more counter for those refused.
* `laws_after`: the laws of a catalog that was made in one of the three ways and then
  changed in any way.
-/

namespace IndexPlanner
namespace Catalog

/-- A change that a catalog is asked for. -/
inductive Request where
  | add (index : IndexDefinition)
  | drop (name : String)
  | replaceAll (indexes : List IndexDefinition)

namespace Request

/-- Whether one index is to be registered. -/
def isAdd : Request → Bool
  | add _ => true
  | _ => false

/-- Whether one index is to be removed. -/
def isDrop : Request → Bool
  | drop _ => true
  | _ => false

/-- What a request counts as if it is not refused. -/
def counts : Request → Counters
  | add _ => { catalogAdds := 1 }
  | drop _ => { catalogDrops := 1 }
  | replaceAll _ => {}

end Request

/-- Does what is asked for, or refuses it. -/
def perform (c : Catalog) : Request → Change
  | .add d => c.add d
  | .drop name => c.drop name
  | .replaceAll ds => c.replaceAll ds

/-- The catalog after requests, from the first to the last. -/
def after (c : Catalog) : List Request → Catalog
  | [] => c
  | r :: rs => (c.perform r).catalog.after rs

/-- Requests with what came of each. -/
def history (c : Catalog) : List Request → List (Request × Change)
  | [] => []
  | r :: rs => (r, c.perform r) :: (c.perform r).catalog.history rs

/-- The number of requests of some kind that were not refused. -/
def made (kind : Request → Bool) (steps : List (Request × Change)) : Nat :=
  steps.countP fun s => kind s.1 && s.2.outcome.isOk

/-- The number of requests that were refused. -/
def refused (steps : List (Request × Change)) : Nat :=
  steps.countP fun s => !s.2.outcome.isOk

@[simp] theorem made_nil (kind : Request → Bool) : made kind [] = 0 := rfl

theorem made_cons (kind : Request → Bool) (s : Request × Change)
    (steps : List (Request × Change)) : made kind (s :: steps) =
      made kind steps + if (kind s.1 && s.2.outcome.isOk) = true then 1 else 0 :=
  List.countP_cons

@[simp] theorem refused_nil : refused [] = 0 := rfl

theorem refused_cons (s : Request × Change) (steps : List (Request × Change)) :
    refused (s :: steps) = refused steps + if (!s.2.outcome.isOk) = true then 1 else 0 :=
  List.countP_cons

/-- What was counted during requests. -/
def counted : List (Request × Change) → Counters
  | [] => .zero
  | s :: steps => s.2.activity.counts.add (counted steps)

/-- A catalog as it is when it has just been made. -/
inductive IsNew : Catalog → Prop where
  | empty : IsNew .empty
  | ofDefinitions {ds : List IndexDefinition} {c : Catalog} (h : ofDefinitions ds = .ok c) :
      IsNew c
  | load {files : FileTree} {path : String} {c : Catalog} {activity : Activity}
      (h : load files path = (.ok c, activity)) : IsNew c

/-! ## One request -/

/-- A request is either made, and then it counts as what it is, or refused. -/
theorem succeeds_or_fails_perform (c : Catalog) (r : Request) :
    (∃ ds, (c.perform r).Succeeds c ds r.counts) ∨ (c.perform r).Fails c := by
  cases r with
  | add d =>
    by_cases h : d.keys ≠ [] ∧ ∀ e ∈ c.indexes, e.keys ≠ d.keys ∧ e.name ≠ d.name
    · exact .inl ⟨_, add_succeeds h.1 h.2⟩
    · exact .inr (add_fails h)
  | drop name =>
    by_cases h : ∃ d ∈ c.indexes, d.name = name
    · obtain ⟨d, hd, rfl⟩ := h
      exact .inl ⟨_, drop_succeeds hd⟩
    · exact .inr (drop_fails fun d hd hname => h ⟨d, hd, hname⟩)
  | replaceAll ds =>
    by_cases h : Registrable ds
    · exact .inl ⟨_, replaceAll_succeeds h⟩
    · exact .inr (replaceAll_fails h)

/-- A catalog that has just been made has not been changed. -/
theorem IsNew.version_eq {c : Catalog} (h : c.IsNew) : c.version = .initial := by
  cases h with
  | empty => rfl
  | ofDefinitions h => exact (of_ofDefinitions_eq_ok h).1
  | load h =>
    rw [Catalog.load] at h
    split at h
    · simp at h
    · split at h
      · simp at h
      · next fresh hfresh =>
        simp only [Prod.mk.injEq, Except.ok.injEq] at h
        rw [← h.1]
        exact (of_ofDefinitions_eq_ok hfresh).1

/-! ## All requests -/

/-- The version counts the requests that were made. -/
theorem version_after (c : Catalog) (requests : List Request) :
    (c.after requests).version.number =
      c.version.number + UInt64.ofNat (made (fun _ => true) (c.history requests)) := by
  induction requests generalizing c with
  | nil =>
    rw [history, made_nil]
    exact (UInt64.add_zero _).symm
  | cons r rs ih =>
    rw [after, history, ih, made_cons, UInt64.ofNat_add]
    rcases succeeds_or_fails_perform c r with ⟨ds, h⟩ | h
    · rw [h.version, CatalogVersion.next, h.isOk, Bool.and_self, if_pos rfl, UInt64.add_assoc]
      congr 1
      exact UInt64.add_comm _ _
    · rw [h.isOk, Bool.and_false, if_neg (by simp), h.catalog]
      congr 1
      exact (UInt64.add_zero _).symm

/-- The counters count what was added, what was dropped and what was refused, and nothing
else. -/
theorem counted_history (c : Catalog) (requests : List Request) :
    counted (c.history requests) =
      { catalogAdds := UInt64.ofNat (made Request.isAdd (c.history requests))
        catalogDrops := UInt64.ofNat (made Request.isDrop (c.history requests))
        catalogRejections := UInt64.ofNat (refused (c.history requests)) } := by
  induction requests generalizing c with
  | nil => rfl
  | cons r rs ih =>
    rw [history, counted, ih, made_cons, made_cons, refused_cons, UInt64.ofNat_add,
      UInt64.ofNat_add, UInt64.ofNat_add]
    rcases succeeds_or_fails_perform c r with ⟨ds, h⟩ | h
    · rw [h.counts, h.isOk]
      cases r <;>
        simp [Request.counts, Request.isAdd, Request.isDrop, Counters.add, UInt64.add_comm]
    · rw [h.counts, h.isOk]
      simp [Counters.add, UInt64.add_comm]

/-- The rules that a catalog keeps: what is registered, and for each change exactly when it
is made and what it does. -/
structure Lawful (c : Catalog) : Prop where
  /-- Every index has keys, and no two have the same name or the same keys. -/
  registrable : Registrable c.indexes
  /-- An index is added, after all others, iff it has keys and its keys and its name are
  new. -/
  add : ∀ d : IndexDefinition,
    ((c.add d).Succeeds c (c.indexes ++ [d]) { catalogAdds := 1 } ↔
      d.keys ≠ [] ∧ ∀ e ∈ c.indexes, e.keys ≠ d.keys ∧ e.name ≠ d.name) ∧
    ((c.add d).Fails c ↔
      ¬ (d.keys ≠ [] ∧ ∀ e ∈ c.indexes, e.keys ≠ d.keys ∧ e.name ≠ d.name))
  /-- A registered index is dropped by its name, and the others keep their order. -/
  drop : ∀ d ∈ c.indexes,
    (c.drop d.name).Succeeds c (c.indexes.erase d) { catalogDrops := 1 }
  /-- Nothing else is dropped. -/
  drop_unregistered : ∀ name : String,
    (c.drop name).Fails c ↔ ¬ ∃ d ∈ c.indexes, d.name = name
  /-- Indexes take the place of all others iff they can be registered together. -/
  replaceAll : ∀ ds : List IndexDefinition,
    ((c.replaceAll ds).Succeeds c ds {} ↔ Registrable ds) ∧
    ((c.replaceAll ds).Fails c ↔ ¬ Registrable ds)

theorem lawful (c : Catalog) : c.Lawful where
  registrable := c.registrable
  add d := Change.succeeds_iff_and_fails_iff (fun h => add_succeeds h.1 h.2) add_fails
  drop d hd := drop_succeeds hd
  drop_unregistered name := by
    constructor
    · rintro h ⟨d, hd, rfl⟩
      exact (drop_succeeds hd).not_fails h
    · intro h
      exact drop_fails fun d hd hname => h ⟨d, hd, hname⟩
  replaceAll ds := Change.succeeds_iff_and_fails_iff replaceAll_succeeds replaceAll_fails

/-- **The laws of a catalog.**  A catalog is made empty, from definitions or from a file and
then changed by any requests, of which some may be refused.  Then it keeps its rules, so it
is known what each further request does.  Its version is the number of requests that were
made, and the counters tell how often something was added, dropped or refused. -/
theorem laws_after {start : Catalog} (hstart : start.IsNew) (requests : List Request) :
    (start.after requests).Lawful ∧
    (start.after requests).version.number =
      UInt64.ofNat (made (fun _ => true) (start.history requests)) ∧
    (made (fun _ => true) (start.history requests) < UInt64.size →
      (start.after requests).version.number.toNat =
        made (fun _ => true) (start.history requests)) ∧
    counted (start.history requests) =
      { catalogAdds := UInt64.ofNat (made Request.isAdd (start.history requests))
        catalogDrops := UInt64.ofNat (made Request.isDrop (start.history requests))
        catalogRejections := UInt64.ofNat (refused (start.history requests)) } := by
  have hversion : (start.after requests).version.number =
      UInt64.ofNat (made (fun _ => true) (start.history requests)) := by
    rw [version_after, hstart.version_eq]
    exact UInt64.zero_add _
  refine ⟨(start.after requests).lawful, hversion, fun hsize => ?_,
    counted_history start requests⟩
  rw [hversion]
  exact UInt64.toNat_ofNat_of_lt' hsize

/-- An ascending index with one key. -/
def oneKey (name field : String) (hname : name ≠ "") (hfield : field ≠ "") :
    IndexDefinition where
  name := name
  keys := [Key.asc field]
  named := hname
  nodup := by simp
  fieldsNamed := by simpa using hfield

/-- An ascending index on a field whose name is one letter, which is also its own name. -/
def oneLetter (c : Char) : IndexDefinition :=
  oneKey (String.singleton c) (String.singleton c) (by simp) (by simp)

/-- Requests of which two are refused while indexes are added, the one for its keys and the
other for its name, and one for a name that has been dropped before. -/
def sixRequests : List Request :=
  [.add (oneKey "a" "x" (by decide) (by decide)),
    .add (oneKey "b" "x" (by decide) (by decide)),
    .add (oneKey "a" "y" (by decide) (by decide)),
    .drop "a", .drop "a", .replaceAll [oneKey "b" "x" (by decide) (by decide)]]

/-- Three of the requests are made, so the version is three. -/
theorem laws_after_sixRequests :
    empty.IsNew ∧ (empty.after sixRequests).Lawful ∧
      made (fun _ => true) (empty.history sixRequests) < UInt64.size ∧
      (empty.after sixRequests).version.number.toNat = 3 ∧
      counted (empty.history sixRequests) =
        { catalogAdds := 1, catalogDrops := 1, catalogRejections := 3 } := by
  have hmade : made (fun _ => true) (empty.history sixRequests) = 3 := by decide +kernel
  have hadded : made Request.isAdd (empty.history sixRequests) = 1 := by decide +kernel
  have hdropped : made Request.isDrop (empty.history sixRequests) = 1 := by decide +kernel
  have hrefused : refused (empty.history sixRequests) = 3 := by decide +kernel
  have hsize : made (fun _ => true) (empty.history sixRequests) < UInt64.size := by
    rw [hmade]
    decide
  obtain ⟨hlawful, -, hversion, hcounted⟩ := laws_after IsNew.empty sixRequests
  rw [hadded, hdropped, hrefused] at hcounted
  exact ⟨IsNew.empty, hlawful, hsize, (hversion hsize).trans hmade, hcounted⟩

end Catalog
end IndexPlanner
