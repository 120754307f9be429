import IndexPlanner.Json.Value

/-!
# Predicates and the bounds they set

A filter is a conjunction of *predicates*, each a condition on one field.  For planning
only one distinction matters: an equality pins its field to a single value, and nothing
else does.  Negations, memberships and tests for presence leave many values, so they count
as ranges although they bound nothing.

A range is described by one *bound* for each of its two sides.  The values of the bounds
are not compared, so two conditions on one side combine by kind alone: a strict bound
wins over an inclusive one, and either wins over none.

* `Condition.isEquality`, `Condition.lower`, `Condition.upper` are what planning sees of
  a condition;
* `Bound.merge` combines two bounds of one side.  It is commutative, associative and
  idempotent, so the order and number of conditions do not matter.
-/

namespace IndexPlanner

/-- One side of a range. -/
inductive Bound where
  /-- Beyond some value, which is left out. -/
  | strict
  /-- Beyond some value, which is included. -/
  | inclusive
  | unbounded
  deriving DecidableEq, Repr, Inhabited

namespace Bound

/-- The word for a bound. -/
def name : Bound → String
  | strict => "open"
  | inclusive => "closed"
  | unbounded => "unbounded"

/-- The bound that two conditions on one side of a range set together. -/
def merge : Bound → Bound → Bound
  | unbounded, b => b
  | a, unbounded => a
  | inclusive, inclusive => inclusive
  | _, _ => strict

theorem merge_comm (a b : Bound) : a.merge b = b.merge a := by
  cases a <;> cases b <;> rfl

theorem merge_assoc (a b c : Bound) : (a.merge b).merge c = a.merge (b.merge c) := by
  cases a <;> cases b <;> cases c <;> rfl

@[simp] theorem merge_self (a : Bound) : a.merge a = a := by cases a <;> rfl

@[simp] theorem merge_unbounded (a : Bound) : a.merge unbounded = a := by cases a <;> rfl

@[simp] theorem unbounded_merge (a : Bound) : unbounded.merge a = a := by cases a <;> rfl

end Bound

/-- What a predicate asks of a field. -/
inductive Condition where
  | eq (value : Json)
  | gt (value : Json)
  | gte (value : Json)
  | lt (value : Json)
  | lte (value : Json)
  | ne (value : Json)
  | oneOf (values : List Json)
  | noneOf (values : List Json)
  | present (yes : Bool)
  deriving Inhabited

namespace Condition

/-- Whether the condition pins its field to a single value. -/
def isEquality : Condition → Bool
  | eq _ => true
  | _ => false

/-- Whether the condition leaves many values of its field. -/
def isRange (c : Condition) : Bool := !c.isEquality

/-- The bound that the condition sets from below. -/
def lower : Condition → Bound
  | gt _ => .strict
  | gte _ => .inclusive
  | _ => .unbounded

/-- The bound that the condition sets from above. -/
def upper : Condition → Bound
  | lt _ => .strict
  | lte _ => .inclusive
  | _ => .unbounded

end Condition

/-- A condition on one field. -/
structure Predicate where
  field : String
  condition : Condition
  deriving Inhabited

namespace Predicate

/-- Whether the predicate pins its field to a single value. -/
def isEquality (p : Predicate) : Bool := p.condition.isEquality

/-- Whether the predicate leaves many values of its field. -/
def isRange (p : Predicate) : Bool := p.condition.isRange

end Predicate

end IndexPlanner
