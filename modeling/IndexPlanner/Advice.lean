import IndexPlanner.Catalog
import IndexPlanner.CostEstimate
import IndexPlanner.Recommendation

/-!
# Advice about a query

Every index of a catalog is a candidate for serving a query.  Its report has the match and
the estimate, and the reports are ranked by what they say: an index that serves the query
in full comes before one that does not, then one without the risk of a sort that is too
large, then one without any sort, then the cheaper scan, then the match that uses more
keys.  Names settle what is left, so different indexes never have the same rank.

An advisor is a configuration that has been checked.  For a query shape, a catalog and the
statistics of a collection it gives *advice*: the reports of all indexes of the catalog,
ranked, and the index that the query would like to have, if none of them serves it in full.

If the statistics are not known the costs are those of an empty collection.  The advice
then says so, because an estimate without documents never sees a risk.

Advice is computed first and recorded afterwards, one candidate after the other, in the
journal that the advisor is given.  Candidates are told about at the least severity of all,
and that loop is left out where nothing of it would be written.  What has been counted and
told follows from the advice alone, and is its activity.

* `CandidateReport.compare` is the order of the ranks, and `CandidateReport.ranked` puts
  reports into this order, the best first;
* `Advisor.adviceOn` computes advice;
* `Advice.record` records it, and `Advice.activity` is what is recorded of it;
* `Advisor.advise` and `Advisor.adviseCollection` do both, for statistics that are given
  and for statistics that are looked up.
-/

namespace IndexPlanner

/-! ## Candidates -/

/-- What is known about an index as a candidate for a query. -/
structure CandidateReport where
  index : IndexDefinition
  usage : IndexMatch
  cost : CostEstimate

namespace CandidateReport

/-- Whether the index serves the query in full. -/
def isFullyCovered (c : CandidateReport) : Bool := c.usage.isFullyCovered

/-- The order of the ranks: the less comes first. -/
def compare : CandidateReport → CandidateReport → Ordering :=
  compareLex (compareOn fun c => !c.isFullyCovered) <|
  compareLex (compareOn fun c => c.cost.sortRisk) <|
  compareLex (compareOn fun c => c.usage.inMemorySort) <|
  compareLex (compareOn fun c => c.cost.scanCost) <|
  compareLex (fun a b => compareOn (fun c => c.usage.consumed) b a) <|
  fun a b => Text.compare a.index.name b.index.name

/-- Whether a report may stand before another one. -/
def precedes (a b : CandidateReport) : Bool := (a.compare b).isLE

/-- Reports in the order of their ranks. -/
def ranked (cs : List CandidateReport) : List CandidateReport := cs.mergeSort precedes

/-- Ranking loses no report and adds none. -/
theorem ranked_perm (cs : List CandidateReport) : (ranked cs).Perm cs :=
  List.mergeSort_perm cs precedes

@[simp] theorem length_ranked (cs : List CandidateReport) :
    (ranked cs).length = cs.length := (ranked_perm cs).length_eq

end CandidateReport

/-! ## Advice -/

/-- Ranked candidates for a query, and an index that would serve it. -/
structure Advice where
  /-- The version of the catalog that was looked at. -/
  catalogVersion : CatalogVersion
  /-- The statistics, if they were known. -/
  stats? : Option CorpusStats
  /-- The reports of the candidates, the best first. -/
  candidates : List CandidateReport
  /-- An index that would serve the query, if none of the candidates serves it in full. -/
  recommendation? : Option IndexDefinition

namespace Advice

/-- The best candidate. -/
def best? (a : Advice) : Option CandidateReport := a.candidates.head?

/-- Whether the best candidate serves the query in full. -/
def hasFullCoverage (a : Advice) : Bool := a.best?.any (·.isFullyCovered)

/-- The candidates with a sort that takes more than the budget. -/
def risky (a : Advice) : List CandidateReport := a.candidates.filter (·.cost.sortRisk)

/-- What is told about a candidate. -/
def evaluated (c : CandidateReport) : Event where
  severity := .trace
  name := "CANDIDATE_EVALUATED"
  fields := [("consumed_prefix", Decimal.text c.usage.consumed),
    ("covered", Json.boolText c.isFullyCovered),
    ("index", c.index.name),
    ("scan_cost", Decimal.text c.cost.scanCost.toNat)]

/-- What is told about a candidate with a sort that takes more than the budget. -/
def warned (c : CandidateReport) : Event where
  severity := .warn
  name := "IN_MEMORY_SORT_RISK"
  fields := [("budget_bytes", Decimal.text c.cost.sortBudget.toNat),
    ("estimated_sort_bytes", Decimal.text c.cost.sortBytes.toNat),
    ("index", c.index.name)]

/-- What is told about advice as a whole. -/
def completed (a : Advice) : Event where
  severity := .info
  name := "ADVICE_COMPLETE"
  fields := [("best", (a.best?.map (·.index.name)).getD ""),
    ("candidates", Decimal.text a.candidates.length),
    ("covered", Json.boolText a.hasFullCoverage),
    ("recommendation", (a.recommendation?.map (·.name)).getD ""),
    ("version", a.catalogVersion.text)]

/-- By how much advice raises the counters. -/
def counts (a : Advice) : Counters where
  advisories := 1
  candidatesEvaluated := UInt64.ofNat a.candidates.length
  sortRisksFlagged := UInt64.ofNat a.risky.length
  recommendationsIssued := if a.recommendation?.isSome then 1 else 0

/-- What is told about advice: every candidate, every risk, and the outcome. -/
def activity (a : Advice) : Activity where
  events := a.candidates.map evaluated ++ a.risky.map warned ++ [a.completed]
  counts := a.counts

/-- Records advice: counts it and tells about it, one candidate after the other. -/
def record (a : Advice) (j : Journal) : Journal :=
  let j := j.count { advisories := 1 }
  let j := j.count { candidatesEvaluated := UInt64.ofNat a.candidates.length }
  let j :=
    if j.enabled .trace then a.candidates.foldl (fun j c => j.write (evaluated c)) j else j
  let j := a.risky.foldl (fun j c => (j.count { sortRisksFlagged := 1 }).write (warned c)) j
  let j := if a.recommendation?.isSome then j.count { recommendationsIssued := 1 } else j
  j.write a.completed

end Advice

/-- What is told if the statistics of a collection are not known. -/
def statsUnavailable (collection : String) : Event where
  severity := .warn
  name := "CORPUS_STATS_UNAVAILABLE"
  fields := [("collection", collection)]

/-- Gives advice about queries, with a configuration that has been checked. -/
structure Advisor where
  config : PlannerConfig
  valid : config.isValid = true

namespace Advisor

/-- The advisor with a configuration, if it is a valid one. -/
def ofConfig (config : PlannerConfig) : Except ConfigError Advisor :=
  match h : config.validate with
  | .error e => .error e
  | .ok () => .ok ⟨config, PlannerConfig.validate_eq_ok_iff.1 h⟩

/-- The advisor with the configuration that is used if nothing else is asked for. -/
def standard : Advisor := ⟨.default, by decide⟩

/-- The report of one index. -/
def report (advisor : Advisor) (shape : QueryShape) (stats : CorpusStats)
    (index : IndexDefinition) : CandidateReport :=
  let usage := IndexMatch.of shape index
  { index, usage, cost := .of shape usage stats advisor.config }

/-- Computes advice. -/
def adviceOn (advisor : Advisor) (shape : QueryShape) (catalog : Catalog)
    (stats? : Option CorpusStats) : Advice :=
  let candidates :=
    CandidateReport.ranked (catalog.indexes.map (advisor.report shape (stats?.getD .zero)))
  { catalogVersion := catalog.version
    stats?
    candidates
    recommendation? :=
      if candidates.any (·.isFullyCovered) then none else (recommend shape).toOption }

/-- Computes advice and records it. -/
def adviseWith (advisor : Advisor) (shape : QueryShape) (catalog : Catalog)
    (stats? : Option CorpusStats) (j : Journal) : Advice × Journal :=
  let advice := advisor.adviceOn shape catalog stats?
  (advice, advice.record j)

/-- Gives advice for statistics that are known. -/
def advise (advisor : Advisor) (shape : QueryShape) (catalog : Catalog)
    (stats : CorpusStats) (j : Journal) : Advice × Journal :=
  advisor.adviseWith shape catalog (some stats) j

/-- Gives advice for the statistics of a collection, which may not be known. -/
def adviseCollection (advisor : Advisor) (shape : QueryShape) (catalog : Catalog)
    (table : StatsTable) (collection : String) (j : Journal) : Advice × Journal :=
  let stats? := table.get? collection
  let j := if stats?.isNone then j.write (statsUnavailable collection) else j
  advisor.adviseWith shape catalog stats? j

theorem length_candidates_adviceOn (advisor : Advisor) (shape : QueryShape)
    (catalog : Catalog) (stats? : Option CorpusStats) :
    (advisor.adviceOn shape catalog stats?).candidates.length = catalog.size := by
  simp [adviceOn, Catalog.size]

end Advisor

end IndexPlanner
