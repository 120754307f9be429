import IndexPlanner.Advice

/-!
# Advice as text

An explanation says line by line what a report or an advice says.  It has two steps: first
the facts to be shown are picked out of the report, and then they are written down.  The
lines come in a fixed order, and a line that has nothing to say is left out.

* `CandidateExplanation.of` and `AdviceExplanation.of` pick out the facts;
* `CandidateExplanation.lines` and `AdviceExplanation.lines` are the lines;
* `textOfLines` is the text of lines, each of which is ended.
-/

namespace IndexPlanner

/-- The text of lines, each with its end. -/
def textOfLines (lines : List String) : String := String.join (lines.map (· ++ "\n"))

/-- What has to be done for the sort of a query. -/
inductive SortExplanation where
  /-- The query has no sort. -/
  | nothing
  /-- The results have to be sorted in memory. -/
  | inMemory
  /-- A number of keys of the index give the order. -/
  | served (keys : Nat) (scan : ScanDirection)
  deriving DecidableEq, Repr

namespace SortExplanation

/-- What a match says about the sort. -/
def of (m : IndexMatch) : SortExplanation :=
  if m.inMemorySort then inMemory
  else if m.sortConsumed = 0 then nothing
  else served m.sortConsumed m.scan

/-- The wording for the sort. -/
def text : SortExplanation → String
  | nothing => "NONE"
  | inMemory => "IN_MEMORY"
  | served keys scan => "INDEX (" ++ Decimal.text keys ++ " keys, " ++ scan.name ++ ")"

end SortExplanation

/-- A filter that is left to be done after the scan. -/
structure ResidualFilter where
  field : String
  role : Role
  deriving DecidableEq, Repr

/-- The wording for a filter. -/
def ResidualFilter.text (f : ResidualFilter) : String :=
  f.field ++ " (" ++ f.role.name ++ ")"

/-- What is shown about one candidate. -/
structure CandidateExplanation where
  index : String
  /-- The key pattern of the index. -/
  key : String
  fullyCovered : Bool
  equalityConsumed : Nat
  sort : SortExplanation
  boundedRange? : Option String
  residualFilters : List ResidualFilter
  unusedSuffix : List String
  scanCost : UInt64
  sortBytes : UInt64
  sortRisk : Bool
  deriving DecidableEq, Repr

namespace CandidateExplanation

/-- Picks out what is shown of a report. -/
def of (c : CandidateReport) : CandidateExplanation where
  index := c.index.name
  key := c.index.keyPattern.compact
  fullyCovered := c.isFullyCovered
  equalityConsumed := c.usage.equalityConsumed
  sort := .of c.usage
  boundedRange? := c.usage.boundedRange?
  residualFilters := c.usage.residualEquality.map (⟨·, .equality⟩) ++
    c.usage.residualRange.map (⟨·, .range⟩)
  unusedSuffix := c.usage.unusedSuffix.map Key.text
  scanCost := c.cost.scanCost
  sortBytes := c.cost.sortBytes
  sortRisk := c.cost.sortRisk

/-- The lines for the filters that are left, with a line that announces them. -/
def filterLines (filters : List ResidualFilter) : List String :=
  if filters.isEmpty then []
  else "  Residual Filters:" :: filters.map fun f => "    - " ++ f.text

/-- The lines for a candidate after its first line. -/
def details (c : CandidateExplanation) : List String :=
  [ "  Coverage: " ++ (if c.fullyCovered then "FULL" else "PARTIAL"),
    "  Equality Prefix: " ++ Decimal.text c.equalityConsumed,
    "  Sort: " ++ c.sort.text,
    "  Bounded Range: " ++ c.boundedRange?.getD "none" ] ++
  filterLines c.residualFilters ++
  (if c.unusedSuffix.isEmpty then []
    else ["  Unused Suffix: " ++ ", ".intercalate c.unusedSuffix]) ++
  ["  Scan Cost: " ++ Decimal.text c.scanCost.toNat ++ " documents"] ++
  (if c.sortBytes = 0 then []
    else ["  Sort Memory: " ++ Decimal.text c.sortBytes.toNat ++ " bytes"]) ++
  (if c.sortRisk then ["  WARNING: in-memory sort exceeds budget"] else [])

/-- The first line for a candidate. -/
def heading (c : CandidateExplanation) : String := "Index: " ++ c.index ++ " " ++ c.key

/-- The lines for a candidate. -/
def lines (c : CandidateExplanation) : List String := c.heading :: c.details

/-- The text for a candidate. -/
def text (c : CandidateExplanation) : String := textOfLines c.lines

end CandidateExplanation

/-- What is shown about advice. -/
structure AdviceExplanation where
  catalogVersion : String
  statsKnown : Bool
  candidates : List CandidateExplanation
  recommendation? : Option String
  deriving DecidableEq, Repr

namespace AdviceExplanation

/-- Picks out what is shown of advice. -/
def of (a : Advice) : AdviceExplanation where
  catalogVersion := a.catalogVersion.text
  statsKnown := a.stats?.isSome
  candidates := a.candidates.map .of
  recommendation? := a.recommendation?.map (·.text)

/-- Whether the best candidate serves the query in full. -/
def isCovered (a : AdviceExplanation) : Bool := a.candidates.head?.any (·.fullyCovered)

/-- The lines for candidates that are numbered from `rank` on. -/
def candidateLines (rank : Nat) : List CandidateExplanation → List String
  | [] => []
  | c :: cs =>
    ("#" ++ Decimal.text rank ++ " " ++ c.heading) :: c.details ++
      candidateLines (rank + 1) cs

/-- The lines for advice. -/
def lines (a : AdviceExplanation) : List String :=
  ["=== INDEX ADVICE ===", "Catalog: " ++ a.catalogVersion] ++
  (if a.statsKnown then [] else ["Statistics: unknown (sort risk not assessed)"]) ++
  ["Status: " ++ (if a.isCovered then "COVERED" else "NOT COVERED")] ++
  (if a.candidates.isEmpty then ["Candidates: none"] else []) ++
  candidateLines 1 a.candidates ++
  (a.recommendation?.map ("Recommended Index: " ++ ·)).toList

/-- The text for advice. -/
def text (a : AdviceExplanation) : String := textOfLines a.lines

end AdviceExplanation

end IndexPlanner
