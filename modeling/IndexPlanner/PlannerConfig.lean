import IndexPlanner.Journal
import IndexPlanner.FileTree
import IndexPlanner.Json.Record

/-!
# Configuration of the planner

Two numbers steer the estimates: by how much each field that is pinned to a value is
expected to narrow a scan, and how many bytes a sort in memory may take.  Neither is
checked where it is written down; `PlannerConfig.validate` checks both, and an advisor
exists only for a configuration that passes.

* `PlannerConfig.validate` asks for a finite factor above one and a budget above zero;
* `PlannerConfig.parse` reads a document, in which members may be missing, and
  `PlannerConfig.load` a file with such a document.
-/

namespace IndexPlanner

/-- What steers the estimates. -/
structure PlannerConfig where
  /-- By how much a field that is pinned to a value narrows a scan. -/
  selectivityFactor : Float := 10
  /-- How many bytes a sort in memory may take. -/
  sortBudget : UInt64 := 33554432
  deriving Inhabited

/-- Why there is no such configuration. -/
inductive ConfigError where
  | invalidSelectivityFactor (factor : Float)
  | invalidSortBudget
  | unreadable (path : String) (reason : FileError)
  | unparsable (reason : Json.ReadError)

namespace ConfigError

/-- The code of an error, which stays the same when its wording changes. -/
def code : ConfigError → String
  | invalidSelectivityFactor _ => "ESR_INVALID_SELECTIVITY_FACTOR"
  | invalidSortBudget => "ESR_INVALID_SORT_BUDGET"
  | unreadable .. => "ESR_CONFIG_IO"
  | unparsable _ => "ESR_CONFIG_PARSE"

/-- The wording of an error. -/
def message : ConfigError → String
  | invalidSelectivityFactor factor =>
    "equality_selectivity_factor must be a finite number > 1, got " ++
      Decimal.Layout.plain.text factor
  | invalidSortBudget => "in_memory_sort_budget_bytes must be > 0"
  | unreadable path reason => "failed to read config " ++ path ++ ": " ++ reason.message
  | unparsable reason => "failed to parse config: " ++ reason.message

end ConfigError

namespace PlannerConfig

/-- The configuration that is used if nothing else is asked for. -/
def default : PlannerConfig := {}

/-- Whether estimates make sense with a configuration: each pinned field narrows a scan,
by a finite factor, and a sort in memory may take some space. -/
def isValid (c : PlannerConfig) : Bool :=
  c.selectivityFactor.isFinite && !(c.selectivityFactor ≤ 1) && c.sortBudget ≠ 0

/-- Checks the factor and then the budget. -/
def validate (c : PlannerConfig) : Except ConfigError Unit :=
  if !c.selectivityFactor.isFinite || c.selectivityFactor ≤ 1 then
    .error (.invalidSelectivityFactor c.selectivityFactor)
  else if c.sortBudget = 0 then .error .invalidSortBudget
  else .ok ()

theorem validate_eq_ok_iff {c : PlannerConfig} :
    c.validate = .ok () ↔ c.isValid = true := by
  unfold validate isValid
  by_cases h : c.selectivityFactor.isFinite <;> by_cases h' : c.selectivityFactor ≤ 1 <;>
    by_cases h'' : c.sortBudget = 0 <;> simp [h, h', h'']

/-- A configuration that has been checked. -/
def ofParts (selectivityFactor : Float) (sortBudget : UInt64) :
    Except ConfigError PlannerConfig :=
  let c : PlannerConfig := ⟨selectivityFactor, sortBudget⟩
  c.validate.map fun _ => c

/-- The document for a configuration. -/
def toJson (c : PlannerConfig) : Json :=
  .object [("equality_selectivity_factor", .number (.real c.selectivityFactor)),
    ("in_memory_sort_budget_bytes", .ofNat c.sortBudget.toNat)]

/-- A configuration of which some members have been read. -/
structure Partial where
  selectivityFactor : Option Float := none
  sortBudget : Option UInt64 := none

/-- How a configuration is read.  Members that are missing have their defaults, and there
may be no others. -/
def record : Json.Record Partial PlannerConfig where
  name := "PlannerConfig"
  members := [
    .of "equality_selectivity_factor" (·.selectivityFactor)
      (fun s x => { s with selectivityFactor := some x }) Json.takeDouble,
    .of "in_memory_sort_budget_bytes" (·.sortBudget)
      (fun s n => { s with sortBudget := some n }) Json.takeUInt64]
  start := {}
  finish s := .ok
    { selectivityFactor := s.selectivityFactor.getD default.selectivityFactor
      sortBudget := s.sortBudget.getD default.sortBudget }
  closed := true
  defaults := true

/-- Reads the text of a document for a configuration, and checks the configuration. -/
def parse (text : String) : Except ConfigError PlannerConfig :=
  match Json.readText record.take text with
  | .error e => .error (.unparsable e)
  | .ok c => c.validate.map fun _ => c

/-- Reads a configuration from a file. -/
def load (files : FileTree) (path : String) :
    Except ConfigError PlannerConfig × Activity :=
  match files.readText path with
  | .error e => (.error (.unreadable path e), {})
  | .ok text =>
    match parse text with
    | .error e => (.error e, {})
    | .ok c => (.ok c,
        { events := [
            { severity := .info
              name := "PLANNER_CONFIG_LOADED"
              fields := [
                ("equality_selectivity_factor", Decimal.Layout.plain.text c.selectivityFactor),
                ("in_memory_sort_budget_bytes", Decimal.text c.sortBudget.toNat),
                ("path", path)] }] })

end PlannerConfig

end IndexPlanner
