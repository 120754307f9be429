import IndexPlanner.IndexDefinition
import IndexPlanner.QueryShape

/-!
# The index that a query would like to have

Of all indexes that could serve a query one is singled out: first its equalities, then its
sort as it stands, then its ranges, with equalities and ranges ascending and in the order
of their names.  A query in which no field has a role would not be helped by any index, and
there is no recommendation for it.

* `recommendedKeys` is the list of keys, and `map_field_recommendedKeys` says that its
  fields are those of the shape, role by role;
* `recommend` makes a definition of it, named after its keys;
* `recommend_eq_ok_iff`, `exists_recommend_eq_ok`: a query in which some field has a role has
  a recommendation, and which one it is.
-/

namespace IndexPlanner

/-- Why no index is recommended. -/
inductive RecommendationError where
  /-- No field of the query has a role. -/
  | emptyShape
  | invalidDefinition (reason : DefinitionError)
  deriving DecidableEq, Repr

namespace RecommendationError

/-- The code of an error, which stays the same when its wording changes. -/
def code : RecommendationError → String
  | emptyShape => "ESR_EMPTY_SHAPE"
  | invalidDefinition reason => reason.code

/-- The wording of an error. -/
def message : RecommendationError → String
  | emptyShape => "cannot recommend an index for a query with no fields"
  | invalidDefinition reason => reason.message

end RecommendationError

/-- The keys of the recommended index. -/
def recommendedKeys (shape : QueryShape) : List Key :=
  shape.equality.toList.map Key.asc ++ shape.sort ++ shape.range.fields.map Key.asc

theorem map_field_recommendedKeys (shape : QueryShape) :
    (recommendedKeys shape).map (·.field) = shape.fields := by
  have hasc (fs : List String) : (fs.map Key.asc).map (·.field) = fs := by
    rw [List.map_map]
    exact List.map_id' fs
  simp [recommendedKeys, QueryShape.fields, fieldNames, hasc]

/-- The recommended keys are on all fields of the shape, each once. -/
theorem mem_fieldNames_recommendedKeys {shape : QueryShape} {f : String} :
    f ∈ fieldNames (recommendedKeys shape) ↔
      f ∈ shape.equality ∨ f ∈ fieldNames shape.sort ∨ f ∈ shape.range.fields := by
  rw [fieldNames, map_field_recommendedKeys, QueryShape.fields, List.mem_append,
    List.mem_append, FieldSet.mem_toList, or_assoc]

theorem nodup_fieldNames_recommendedKeys (shape : QueryShape) :
    (fieldNames (recommendedKeys shape)).Nodup := by
  rw [fieldNames, map_field_recommendedKeys]
  exact shape.nodup

/-- The recommended keys are on fields that have a name. -/
theorem field_ne_empty_of_mem_recommendedKeys {shape : QueryShape} :
    ∀ k ∈ recommendedKeys shape, k.field ≠ "" := by
  intro k hk hempty
  refine shape.named ?_
  rw [← QueryShape.fields, ← map_field_recommendedKeys, ← hempty]
  exact List.mem_map_of_mem hk

theorem recommendedKeys_ne_nil {shape : QueryShape} (h : shape.isEmpty = false) :
    recommendedKeys shape ≠ [] := by
  intro hnil
  have hfields : shape.fields = [] := by
    rw [← map_field_recommendedKeys, hnil, List.map_nil]
  have hcount : shape.fieldCount = 0 := by
    rw [← QueryShape.length_fields, hfields, List.length_nil]
  simp [QueryShape.isEmpty, hcount] at h

/-- The index that is recommended for a query shape. -/
def recommend (shape : QueryShape) : Except RecommendationError IndexDefinition :=
  if shape.isEmpty then .error .emptyShape
  else
    match IndexDefinition.defineGenerated (recommendedKeys shape) with
    | .error e => .error (.invalidDefinition e)
    | .ok d => .ok d

/-- A piece of a generated name is there for every key, so keys have a name. -/
theorem IndexDefinition.generatedName_ne_empty {keys : List Key} (h : keys ≠ []) :
    generatedName keys ≠ "" := by
  obtain ⟨k, ks, rfl⟩ := List.exists_cons_of_ne_nil h
  intro hempty
  rw [generatedName, List.map_cons] at hempty
  cases ks with
  | nil =>
    rw [List.map_nil, String.intercalate_singleton] at hempty
    simp at hempty
  | cons l ls =>
    rw [List.map_cons, String.intercalate_cons_cons] at hempty
    simp at hempty

/-- An index is recommended iff some field has a role and it is the one that is named after
the recommended keys. -/
theorem recommend_eq_ok_iff {shape : QueryShape} {d : IndexDefinition} :
    recommend shape = .ok d ↔ shape.isEmpty = false ∧
      d.name = IndexDefinition.generatedName (recommendedKeys shape) ∧
      d.keys = recommendedKeys shape := by
  cases hempty : shape.isEmpty with
  | true =>
    rw [recommend, if_pos hempty]
    simp
  | false =>
    rw [recommend, if_neg (by simp [hempty]), ← IndexDefinition.define_eq_ok_iff,
      ← IndexDefinition.defineGenerated]
    cases IndexDefinition.defineGenerated (recommendedKeys shape) <;> simp

/-- A query in which some field has a role has a recommendation: its fields are distinct
and have names, so the definition cannot be refused. -/
theorem exists_recommend_eq_ok {shape : QueryShape} (h : shape.isEmpty = false) :
    ∃ d, recommend shape = .ok d ∧ d.keys = recommendedKeys shape := by
  let d : IndexDefinition :=
    { name := IndexDefinition.generatedName (recommendedKeys shape)
      keys := recommendedKeys shape
      named := IndexDefinition.generatedName_ne_empty (recommendedKeys_ne_nil h)
      nodup := nodup_fieldNames_recommendedKeys shape
      fieldsNamed := field_ne_empty_of_mem_recommendedKeys }
  exact ⟨d, recommend_eq_ok_iff.2 ⟨h, rfl, rfl⟩, rfl⟩

end IndexPlanner
