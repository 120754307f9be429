import IndexPlanner.Key.Record
import IndexPlanner.QueryShape

/-!
# Query documents

A query may come as two documents.  The *filter* has a member for each restricted field:
either the value that the field is pinned to, or an object of operators, whose names
begin with a dollar sign.  An object without such names is a value like any other, and
one that mixes both kinds of names is refused.  The *sort* has a member for each key.
Either document may be `null`, which asks for nothing.

The filter is read to its end before the sort, and both before the shape is normalized.

* `predicatesOfFilter` and `keysOfSort` read the two documents;
* `QueryShape.ofDocuments` is the shape of the query.
-/

namespace IndexPlanner

/-- Whether a name is that of an operator and not that of a field. -/
def isOperatorName (name : String) : Bool := name.toList.head? = some '$'

/-- The condition that an operator and its operand stand for. -/
def conditionOfOperator (field operator : String) (operand : Json) :
    Except ShapeError Condition :=
  match operator with
  | "$eq" => .ok (.eq operand)
  | "$gt" => .ok (.gt operand)
  | "$gte" => .ok (.gte operand)
  | "$lt" => .ok (.lt operand)
  | "$lte" => .ok (.lte operand)
  | "$ne" => .ok (.ne operand)
  | "$in" =>
    match operand with
    | .array values => .ok (.oneOf values)
    | _ => .error (.invalidDocument (operator ++ " on field '" ++ field ++
        "' requires an array"))
  | "$nin" =>
    match operand with
    | .array values => .ok (.noneOf values)
    | _ => .error (.invalidDocument (operator ++ " on field '" ++ field ++
        "' requires an array"))
  | "$exists" =>
    match operand with
    | .bool yes => .ok (.present yes)
    | _ => .error (.invalidDocument (operator ++ " on field '" ++ field ++
        "' requires a boolean"))
  | _ => .error (.unsupportedOperator field operator)

/-- The predicates that the operators on a field stand for, in order. -/
def predicatesOfOperators (field : String) :
    List (String × Json) → Except ShapeError (List Predicate)
  | [] => .ok []
  | (operator, operand) :: rest =>
    match conditionOfOperator field operator operand with
    | .error e => .error e
    | .ok c =>
      match predicatesOfOperators field rest with
      | .error e => .error e
      | .ok ps => .ok (⟨field, c⟩ :: ps)

/-- The predicates that the value of a filter's member stands for. -/
def predicatesOfValue (field : String) (value : Json) : Except ShapeError (List Predicate) :=
  match value with
  | .object ops =>
    if ops.any (isOperatorName ·.1) then
      if ops.all (isOperatorName ·.1) then predicatesOfOperators field ops
      else .error (.invalidDocument ("field '" ++ field ++
        "' mixes operators and plain keys"))
    else .ok [⟨field, .eq value⟩]
  | _ => .ok [⟨field, .eq value⟩]

/-- The predicates that the members of a filter stand for, in order.  The filter itself
has no operators. -/
def predicatesOfMembers : List (String × Json) → Except ShapeError (List Predicate)
  | [] => .ok []
  | (field, value) :: rest =>
    if isOperatorName field then .error (.unsupportedOperator "<root>" field)
    else
      match predicatesOfValue field value with
      | .error e => .error e
      | .ok ps =>
        match predicatesOfMembers rest with
        | .error e => .error e
        | .ok qs => .ok (ps ++ qs)

/-- The predicates that a filter stands for. -/
def predicatesOfFilter : Json → Except ShapeError (List Predicate)
  | .null => .ok []
  | .object members => predicatesOfMembers members
  | other => .error (.invalidDocument ("filter must be an object, got " ++ other.typeName))

/-- The keys that a sort document stands for. -/
def keysOfSort : Json → Except ShapeError (List Key)
  | .null => .ok []
  | .object members => (Key.ofMembers members).mapError .invalidSortDirection
  | other => .error (.invalidDocument ("sort must be an object, got " ++ other.typeName))

/-- The shape of the query that a filter and a sort document stand for. -/
def QueryShape.ofDocuments (filter sort : Json) : Except ShapeError QueryShape :=
  match predicatesOfFilter filter with
  | .error e => .error e
  | .ok predicates =>
    match keysOfSort sort with
    | .error e => .error e
    | .ok keys => normalize predicates keys

end IndexPlanner
