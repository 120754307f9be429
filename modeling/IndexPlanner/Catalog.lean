import IndexPlanner.Journal
import IndexPlanner.FieldSet
import IndexPlanner.IndexDefinition

/-!
# The catalog of indexes

The catalog is the list of the indexes that exist, in the order in which they were
registered.  No two of them have the same name or the same keys, and none is without
keys; the type says so.  Each change that succeeds gives the catalog the next version,
and a change that is refused changes nothing.

A catalog is a value.  Whoever holds an older one still has it as it was.

* `Catalog.add`, `Catalog.drop` and `Catalog.replaceAll` are the changes, and each gives
  back the catalog after it with its outcome and its activity;
* `Catalog.ofDefinitions` checks a whole list at once and makes a catalog of it.
-/

namespace IndexPlanner

/-- Why the catalog refuses a change. -/
inductive CatalogError where
  /-- An index with the same keys is registered under the name `existing`. -/
  | duplicateIndex (name existing : String)
  | nameInUse (name : String)
  | notFound (name : String)
  | emptyDefinition (name : String)
  deriving DecidableEq, Repr

namespace CatalogError

/-- The code of an error, which stays the same when its wording changes. -/
def code : CatalogError → String
  | duplicateIndex .. => "ESR_DUPLICATE_INDEX"
  | nameInUse _ => "ESR_INDEX_NAME_IN_USE"
  | notFound _ => "ESR_INDEX_NOT_FOUND"
  | emptyDefinition _ => "ESR_EMPTY_INDEX"

/-- The wording of an error. -/
def message : CatalogError → String
  | duplicateIndex name existing =>
    "index '" ++ name ++ "' duplicates the key of existing index '" ++ existing ++ "'"
  | nameInUse name => "index name '" ++ name ++ "' is already in use"
  | notFound name => "index '" ++ name ++ "' not found"
  | emptyDefinition name => "index '" ++ name ++ "' has no fields"

/-- The name of the index that an error is about. -/
def index : CatalogError → String
  | duplicateIndex name _ => name
  | nameInUse name => name
  | notFound name => name
  | emptyDefinition name => name

end CatalogError

/-- The version of a catalog: the number of changes since it was made, modulo `2 ^ 64`. -/
structure CatalogVersion where
  number : UInt64
  deriving DecidableEq, Repr, Inhabited

namespace CatalogVersion

/-- The version of a catalog that has not been changed. -/
def initial : CatalogVersion := ⟨0⟩

/-- The version after one more change. -/
def next (v : CatalogVersion) : CatalogVersion := ⟨v.number + 1⟩

/-- The text of a version. -/
def text (v : CatalogVersion) : String := "v" ++ Decimal.text v.number.toNat

end CatalogVersion

/-- What it takes for a list of indexes to be registered together. -/
structure Registrable (indexes : List IndexDefinition) : Prop where
  /-- No index is without keys. -/
  nonempty : ∀ d ∈ indexes, d.keys ≠ []
  /-- No two indexes have the same name. -/
  names : (indexes.map (·.name)).Nodup
  /-- No two indexes have the same keys. -/
  keys : (indexes.map (·.keys)).Nodup

theorem Registrable.append {indexes : List IndexDefinition} {d : IndexDefinition}
    (h : Registrable indexes) (hne : d.keys ≠ []) (hkeys : ∀ e ∈ indexes, e.keys ≠ d.keys)
    (hnames : ∀ e ∈ indexes, e.name ≠ d.name) : Registrable (indexes ++ [d]) where
  nonempty e he := by
    rcases List.mem_append.1 he with he | he
    · exact h.nonempty e he
    · exact List.mem_singleton.1 he ▸ hne
  names := by
    simp only [List.map_append, List.map_cons, List.map_nil]
    refine List.nodup_append.2 ⟨h.names, by simp, ?_⟩
    rintro n hn m hm rfl
    obtain ⟨e, he, rfl⟩ := List.mem_map.1 hn
    exact hnames e he (List.mem_singleton.1 hm)
  keys := by
    simp only [List.map_append, List.map_cons, List.map_nil]
    refine List.nodup_append.2 ⟨h.keys, by simp, ?_⟩
    rintro n hn m hm rfl
    obtain ⟨e, he, rfl⟩ := List.mem_map.1 hn
    exact hkeys e he (List.mem_singleton.1 hm)

theorem Registrable.sublist {xs ys : List IndexDefinition} (h : xs.Sublist ys)
    (hys : Registrable ys) : Registrable xs where
  nonempty d hd := hys.nonempty d (h.subset hd)
  names := (h.map _).nodup hys.names
  keys := (h.map _).nodup hys.keys

/-- The indexes that exist, in the order of their registration. -/
structure Catalog where
  version : CatalogVersion
  indexes : List IndexDefinition
  registrable : Registrable indexes

namespace Catalog

/-- The catalog in which nothing is registered yet. -/
def empty : Catalog where
  version := .initial
  indexes := []
  registrable := ⟨by simp, by simp, by simp⟩

instance : Inhabited Catalog := ⟨empty⟩

/-- The number of registered indexes. -/
def size (c : Catalog) : Nat := c.indexes.length

/-- The registered index with a name. -/
def get? (c : Catalog) (name : String) : Option IndexDefinition :=
  c.indexes.find? (·.name = name)

/-- The registered index with the keys of another one. -/
def findSameKey? (c : Catalog) (d : IndexDefinition) : Option IndexDefinition :=
  c.indexes.find? (·.sameKey d)

/-- The catalog in one line. -/
def summary (c : Catalog) : String :=
  "IndexCatalog \x7b version: CatalogVersion(" ++ Decimal.text c.version.number.toNat ++
    "), indexes: " ++ Decimal.text c.size ++ " \x7d"

/-! ## What may be registered -/

/-- What is wrong with registering one more index. -/
def fault? (c : Catalog) (d : IndexDefinition) : Option CatalogError :=
  if d.isEmpty then some (.emptyDefinition d.name)
  else
    match c.findSameKey? d with
    | some e => some (.duplicateIndex d.name e.name)
    | none => if (c.get? d.name).isSome then some (.nameInUse d.name) else none

theorem fault?_eq_none_iff {c : Catalog} {d : IndexDefinition} :
    c.fault? d = none ↔
      d.keys ≠ [] ∧ (∀ e ∈ c.indexes, e.keys ≠ d.keys) ∧ ∀ e ∈ c.indexes, e.name ≠ d.name := by
  unfold fault?
  split
  · next h => simp_all [IndexDefinition.isEmpty]
  · next h =>
    have hne : d.keys ≠ [] := by simpa [IndexDefinition.isEmpty] using h
    split
    · next e he =>
      have hmem := List.mem_of_find?_eq_some he
      have hkey := List.find?_some he
      simp only [reduceCtorEq, false_iff, not_and]
      exact fun _ hall => absurd (IndexDefinition.sameKey_iff.1 hkey) (hall e hmem)
    · next he =>
      have hkeys : ∀ e ∈ c.indexes, e.keys ≠ d.keys := fun e hm heq =>
        List.find?_eq_none.1 he e hm (IndexDefinition.sameKey_iff.2 heq)
      simpa [hne, get?] using fun _ => hkeys

/-- The first fault in a list of indexes that should be registered together.  `before` has
the indexes that were found in order, `names` their names. -/
def batchFault? (before : List IndexDefinition) (names : FieldSet) :
    List IndexDefinition → Option CatalogError
  | [] => none
  | d :: ds =>
    if d.isEmpty then some (.emptyDefinition d.name)
    else
      match before.find? (·.sameKey d) with
      | some e => some (.duplicateIndex d.name e.name)
      | none =>
        if d.name ∈ names then some (.nameInUse d.name)
        else batchFault? (before ++ [d]) (names.insert d.name) ds

theorem registrable_of_batchFault? {before ds : List IndexDefinition} {names : FieldSet}
    (hnames : ∀ e ∈ before, e.name ∈ names) (hbefore : Registrable before)
    (h : batchFault? before names ds = none) : Registrable (before ++ ds) := by
  induction ds generalizing before names with
  | nil => simpa using hbefore
  | cons d ds ih =>
    rw [batchFault?] at h
    split at h
    · simp at h
    · next hne =>
      split at h
      · simp at h
      · next hkey =>
        split at h
        · simp at h
        · next hname =>
          have hreg : Registrable (before ++ [d]) := by
            refine Registrable.append hbefore ?_ ?_ ?_
            · simpa [IndexDefinition.isEmpty] using hne
            · exact fun e hm heq =>
                List.find?_eq_none.1 hkey e hm (IndexDefinition.sameKey_iff.2 heq)
            · exact fun e hm heq => hname (heq ▸ hnames e hm)
          have hnames' : ∀ e ∈ before ++ [d], e.name ∈ names.insert d.name := fun e he => by
            rcases List.mem_append.1 he with he | he
            · exact FieldSet.mem_insert.2 (.inr (hnames e he))
            · exact FieldSet.mem_insert.2 (.inl (by rw [List.mem_singleton.1 he]))
          simpa using ih hnames' hreg h

theorem registrable_of_batchFault?_empty {ds : List IndexDefinition}
    (h : batchFault? [] .empty ds = none) : Registrable ds :=
  registrable_of_batchFault? (fun _ h => absurd h List.not_mem_nil) empty.registrable h

/-- Makes a catalog that holds the given indexes and has not been changed. -/
def ofDefinitions (ds : List IndexDefinition) : Except CatalogError Catalog :=
  match h : batchFault? [] .empty ds with
  | some e => .error e
  | none => .ok
      { version := .initial
        indexes := ds
        registrable := registrable_of_batchFault?_empty h }

/-! ## Changes -/

/-- What came of a change. -/
structure Change where
  /-- The version after the change, or why it was refused. -/
  outcome : Except CatalogError CatalogVersion
  /-- The catalog after the change. -/
  catalog : Catalog
  activity : Activity

/-- A change that is refused. -/
def refuse (c : Catalog) (operation : String) (e : CatalogError) : Change where
  outcome := .error e
  catalog := c
  activity :=
    { events := [
        { severity := .warn
          name := "CATALOG_MUTATION_REJECTED"
          fields := [("code", e.code), ("index", e.index), ("operation", operation)] }]
      counts := { catalogRejections := 1 } }

/-- Registers one more index, after the others. -/
def add (c : Catalog) (d : IndexDefinition) : Change :=
  match h : c.fault? d with
  | some e => c.refuse "add" e
  | none =>
    let next : Catalog :=
      { version := c.version.next
        indexes := c.indexes ++ [d]
        registrable :=
          have h := fault?_eq_none_iff.1 h
          Registrable.append c.registrable h.1 h.2.1 h.2.2 }
    { outcome := .ok next.version
      catalog := next
      activity :=
        { events := [
            { severity := .info
              name := "CATALOG_INDEX_ADDED"
              fields := [("hash", d.checksum.text), ("index", d.name),
                ("version", next.version.text)] }]
          counts := { catalogAdds := 1 } } }

/-- Removes the registered index with a name. -/
def drop (c : Catalog) (name : String) : Change :=
  if (c.get? name).isSome then
    let next : Catalog :=
      { version := c.version.next
        indexes := c.indexes.eraseP (·.name = name)
        registrable := Registrable.sublist List.eraseP_sublist c.registrable }
    { outcome := .ok next.version
      catalog := next
      activity :=
        { events := [
            { severity := .info
              name := "CATALOG_INDEX_DROPPED"
              fields := [("index", name), ("version", next.version.text)] }]
          counts := { catalogDrops := 1 } } }
  else c.refuse "drop" (.notFound name)

/-- Puts other indexes in the place of all that are registered. -/
def replaceAll (c : Catalog) (ds : List IndexDefinition) : Change :=
  match ofDefinitions ds with
  | .error e => c.refuse "replace_all" e
  | .ok fresh =>
    let next : Catalog := { fresh with version := c.version.next }
    { outcome := .ok next.version
      catalog := next
      activity :=
        { events := [
            { severity := .info
              name := "CATALOG_REPLACED"
              fields := [("indexes", Decimal.text ds.length),
                ("version", next.version.text)] }] } }

end Catalog

end IndexPlanner
