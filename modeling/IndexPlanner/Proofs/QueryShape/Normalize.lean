import IndexPlanner.QueryShape

/-!
# What is known of a query that has a shape

A shape is read off a query in two steps, and if it is read at all then both steps have
succeeded.  The second step is the one that changes something: it leaves the sort keys out
that are on fields with a single value.

* `exists_roles_of_normalize_eq_ok`: the two steps behind a shape.
* `normalize_of_orderKeys_eq_ok`, `normalize_of_orderKeys_eq_error`: what becomes of a query
  of which the first step has succeeded.
* `sort_eq_filter_of_normalize_eq_ok`: the sort of a shape is the sort of the query without
  the keys on fields with an equality.
* `QueryShape.disjoint_roles`: no field has two roles.
-/

namespace IndexPlanner

/-- Behind every shape stand the roles that the predicates give and the sort keys that were
kept beside them. -/
theorem exists_roles_of_normalize_eq_ok {predicates : List Predicate} {sort : List Key}
    {shape : QueryShape} (h : normalize predicates sort = .ok shape) :
    ∃ roles, Roles.empty.addAll predicates = .ok roles ∧
      roles.orderKeys .empty sort = .ok shape.sort ∧
      shape.equality = roles.equality ∧ shape.range = roles.range := by
  rw [normalize] at h
  split at h
  · simp at h
  · next roles hroles =>
    split at h
    · simp at h
    · next kept hkept =>
      have hshape : roles.toShape sort kept hkept = shape := Except.ok.inj h
      subst hshape
      exact ⟨roles, hroles, hkept, rfl, rfl⟩

/-- If both steps succeed, the shape is made of their results. -/
theorem normalize_of_orderKeys_eq_ok {predicates : List Predicate} {sort kept : List Key}
    {roles : Roles} (hroles : Roles.empty.addAll predicates = .ok roles)
    (hkept : roles.orderKeys .empty sort = .ok kept) :
    normalize predicates sort = .ok (roles.toShape sort kept hkept) := by
  simp only [normalize, hroles]
  split
  · next e he =>
    rw [hkept] at he
    simp at he
  · next kept' hkept' =>
    obtain rfl : kept = kept' := Except.ok.inj (hkept.symm.trans hkept')
    rfl

/-- A query is refused for what the second step is refused for. -/
theorem normalize_of_orderKeys_eq_error {predicates : List Predicate} {sort : List Key}
    {roles : Roles} {e : ShapeError} (hroles : Roles.empty.addAll predicates = .ok roles)
    (herror : roles.orderKeys .empty sort = .error e) :
    normalize predicates sort = .error e := by
  simp only [normalize, hroles]
  split
  · next e' he' => exact congrArg _ (Except.error.inj (he'.symm.trans herror))
  · next kept hkept =>
    rw [herror] at hkept
    simp at hkept

/-- The sort of a shape is the sort of the query without the keys on fields that have a
single value. -/
theorem sort_eq_filter_of_normalize_eq_ok {predicates : List Predicate} {sort : List Key}
    {shape : QueryShape} (h : normalize predicates sort = .ok shape) :
    shape.sort = sort.filter (fun k => k.field ∉ shape.equality) := by
  obtain ⟨roles, -, hkept, hequality, -⟩ := exists_roles_of_normalize_eq_ok h
  rw [hequality]
  exact (Roles.orderKeys_eq_ok hkept).1

/-- The roles of a shape share no field, and the sort names none twice. -/
theorem QueryShape.disjoint_roles (shape : QueryShape) :
    (∀ f ∈ shape.equality, f ∉ fieldNames shape.sort ∧ f ∉ shape.range.fields) ∧
      (∀ f ∈ fieldNames shape.sort, f ∉ shape.range.fields) ∧
      (fieldNames shape.sort).Nodup := by
  obtain ⟨hfront, -, hrange⟩ := List.nodup_append.1 shape.nodup
  obtain ⟨-, hsort, hequality⟩ := List.nodup_append.1 hfront
  refine ⟨fun f hf => ⟨fun hf' => ?_, fun hf' => ?_⟩, fun f hf hf' => ?_, hsort⟩
  · exact hequality f hf f hf' rfl
  · exact hrange f (List.mem_append_left _ hf) f hf' rfl
  · exact hrange f (List.mem_append_right _ hf) f hf' rfl

end IndexPlanner
