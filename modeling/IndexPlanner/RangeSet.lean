import IndexPlanner.FieldSet
import IndexPlanner.Predicate

/-!
# Ranges by field

The range conditions of a query are kept one for each field, in ascending order of the
fields, so that, as with `FieldSet`, equal collections are equal lists.

* `absorbInto` lets one more condition take effect on its field;
* `map_field_absorbInto` says that on the fields it acts as `insertAscending`;
* `RangeSet` is the type of such lists.
-/

namespace IndexPlanner

/-- What a query asks of a field that it does not pin to a single value. -/
structure RangeCondition where
  field : String
  lower : Bound
  upper : Bound
  deriving DecidableEq, Repr, Inhabited

namespace RangeCondition

/-- A range on a field with no bound on either side. -/
def unbounded (field : String) : RangeCondition := ⟨field, .unbounded, .unbounded⟩

/-- Whether at least one side has a bound. -/
def isBounded (r : RangeCondition) : Bool :=
  r.lower ≠ .unbounded || r.upper ≠ .unbounded

/-- The range narrowed by one more condition on its field. -/
def absorb (r : RangeCondition) (c : Condition) : RangeCondition :=
  { r with lower := r.lower.merge c.lower, upper := r.upper.merge c.upper }

@[simp] theorem field_unbounded (f : String) : (unbounded f).field = f := rfl

@[simp] theorem field_absorb (r : RangeCondition) (c : Condition) :
    (r.absorb c).field = r.field := rfl

end RangeCondition

/-- Narrows the range of a field in an ascending list, or adds a range for it. -/
def absorbInto (f : String) (c : Condition) : List RangeCondition → List RangeCondition
  | [] => [(RangeCondition.unbounded f).absorb c]
  | r :: rs =>
    if Text.Before f r.field then (RangeCondition.unbounded f).absorb c :: r :: rs
    else if f = r.field then r.absorb c :: rs
    else r :: absorbInto f c rs

theorem map_field_absorbInto (f : String) (c : Condition) (rs : List RangeCondition) :
    (absorbInto f c rs).map (·.field) = insertAscending f (rs.map (·.field)) := by
  induction rs with
  | nil => rfl
  | cons r rs ih =>
    rw [absorbInto, List.map_cons, insertAscending]
    split
    · rfl
    · split
      · rfl
      · rw [List.map_cons, ih]

/-- Range conditions, at most one for each field, in ascending order of the fields. -/
structure RangeSet where
  toList : List RangeCondition
  ascending : Ascending (toList.map (·.field))
  deriving DecidableEq

namespace RangeSet

/-- No range at all. -/
def empty : RangeSet := ⟨[], ascending_nil⟩

instance : Inhabited RangeSet := ⟨empty⟩

/-- The fields with a range, in ascending order. -/
def fields (s : RangeSet) : List String := s.toList.map (·.field)

/-- The number of fields with a range. -/
def size (s : RangeSet) : Nat := s.toList.length

/-- The collection after one more condition on a field. -/
def absorb (s : RangeSet) (f : String) (c : Condition) : RangeSet where
  toList := absorbInto f c s.toList
  ascending := by
    rw [map_field_absorbInto]
    exact ascending_insertAscending s.ascending

@[simp] theorem fields_empty : empty.fields = [] := rfl

@[simp] theorem length_fields (s : RangeSet) : s.fields.length = s.size :=
  List.length_map _

theorem fields_absorb (s : RangeSet) (f : String) (c : Condition) :
    (s.absorb f c).fields = insertAscending f s.fields :=
  map_field_absorbInto f c s.toList

@[simp] theorem mem_fields_absorb {s : RangeSet} {f g : String} {c : Condition} :
    g ∈ (s.absorb f c).fields ↔ g = f ∨ g ∈ s.fields := by
  rw [fields_absorb, mem_insertAscending]

theorem nodup_fields (s : RangeSet) : s.fields.Nodup := s.ascending.nodup

end RangeSet

end IndexPlanner
