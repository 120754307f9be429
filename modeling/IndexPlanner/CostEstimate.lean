import IndexPlanner.Decimal.Binary64
import IndexPlanner.IndexMatch
import IndexPlanner.PlannerConfig

/-!
# What it costs to serve a query with an index

The cost of a scan depends on how many documents a collection has and how large they are
on average.  Both numbers are given by whoever keeps the collection; they may be out of
date, and for some collections they may not be known at all.

An estimate answers two questions about a match: how many documents the scan reads, and
how many bytes the sort after it takes, if there has to be one.

Each equality that the index serves narrows the scan by the same factor, and nothing else
narrows it.  The quotient is computed with doubles and rounded up.  The sort has to hold
every document that was read, and it is a risk if that takes more than the budget.

* `CorpusStats.toJson` and `CorpusStats.record` are the written form of statistics, and
  `StatsTable` holds those of some collections;
* `CostEstimate.narrowing` is the number of equalities that count;
* `CostEstimate.scanCost_eq` and its neighbours read an estimate off its parts.
-/

namespace IndexPlanner

/-! ## Statistics of collections -/

/-- How many documents a collection has, and how many bytes one has on average. -/
structure CorpusStats where
  documents : UInt64
  documentBytes : UInt64
  deriving DecidableEq, Repr, Inhabited

namespace CorpusStats

/-- An empty collection. -/
def zero : CorpusStats := ⟨0, 0⟩

/-- The document for statistics. -/
def toJson (s : CorpusStats) : Json :=
  .object [("total_document_count", .ofNat s.documents.toNat),
    ("average_document_size_bytes", .ofNat s.documentBytes.toNat)]

/-- Statistics of which some members have been read. -/
structure Partial where
  documents : Option UInt64 := none
  documentBytes : Option UInt64 := none

/-- How statistics are read. -/
def record : Json.Record Partial CorpusStats where
  name := "CorpusStats"
  members := [
    .of "total_document_count" (·.documents) (fun s n => { s with documents := some n })
      Json.takeUInt64,
    .of "average_document_size_bytes" (·.documentBytes)
      (fun s n => { s with documentBytes := some n }) Json.takeUInt64]
  start := {}
  finish s :=
    match Json.required "total_document_count" s.documents with
    | .error e => .error e
    | .ok documents =>
      match Json.required "average_document_size_bytes" s.documentBytes with
      | .error e => .error e
      | .ok documentBytes => .ok ⟨documents, documentBytes⟩

/-- Reads the text of a document for statistics. -/
def parse (text : String) : Except Json.ReadError CorpusStats :=
  Json.readText record.take text

end CorpusStats

/-- The statistics of collections, by the names of the collections. -/
structure StatsTable where
  entries : List (String × CorpusStats) := []

namespace StatsTable

/-- The statistics of a collection, if they are known. -/
def get? (t : StatsTable) (collection : String) : Option CorpusStats :=
  member? t.entries collection

/-- Gives a collection statistics, instead of those it had. -/
def insert (t : StatsTable) (collection : String) (s : CorpusStats) : StatsTable :=
  ⟨putMember t.entries collection s⟩

end StatsTable

/-! ## Estimates -/

/-- What it is expected to cost to serve a query with an index. -/
structure CostEstimate where
  /-- By how much the equalities narrow the scan together. -/
  selectivity : Float
  /-- The number of documents that the scan reads. -/
  scanCost : UInt64
  /-- The number of bytes that the sort after the scan takes; zero if there is none. -/
  sortBytes : UInt64
  /-- Whether the sort takes more than the budget. -/
  sortRisk : Bool
  /-- The number of bytes that a sort may take. -/
  sortBudget : UInt64

namespace CostEstimate

/-- The number of equalities that narrow the scan: never more than the query has, however
the match came about, and never more than an exponent can be. -/
def narrowing (shape : QueryShape) (m : IndexMatch) : Nat :=
  min (min m.equalityConsumed shape.equality.size) (Nat.pow 2 31 - 1)

/-- The number of documents left of a collection that is narrowed by a factor. -/
def scanned (documents : UInt64) (selectivity : Float) : UInt64 :=
  Binary64.ceil (documents.toFloat / Binary64.atLeastOne selectivity)

/-- The number of bytes of some documents, or the greatest number if there are more. -/
def bytes (documents documentBytes : UInt64) : UInt64 :=
  Binary64.saturate (documents.toNat * documentBytes.toNat)

/-- The estimate for a match of a query shape. -/
def of (shape : QueryShape) (m : IndexMatch) (stats : CorpusStats) (config : PlannerConfig) :
    CostEstimate :=
  let selectivity := Binary64.power config.selectivityFactor (narrowing shape m)
  let scanCost := scanned stats.documents selectivity
  let sortBytes := bytes scanCost stats.documentBytes
  { selectivity
    scanCost
    sortBytes := if m.inMemorySort then sortBytes else 0
    sortRisk := m.inMemorySort && config.sortBudget < sortBytes
    sortBudget := config.sortBudget }

/-- The part of the budget that the sort takes; a budget of zero counts as one. -/
def budgetUse (c : CostEstimate) : Float :=
  c.sortBytes.toFloat / (max c.sortBudget 1).toFloat

variable (shape : QueryShape) (m : IndexMatch) (stats : CorpusStats)
  (config : PlannerConfig)

theorem selectivity_eq : (of shape m stats config).selectivity =
    Binary64.power config.selectivityFactor (narrowing shape m) := rfl

theorem scanCost_eq : (of shape m stats config).scanCost =
    scanned stats.documents (of shape m stats config).selectivity := rfl

theorem sortBytes_eq : (of shape m stats config).sortBytes =
    if m.inMemorySort then bytes (of shape m stats config).scanCost stats.documentBytes
    else 0 := rfl

theorem sortBudget_eq : (of shape m stats config).sortBudget = config.sortBudget := rfl

theorem sortRisk_eq : (of shape m stats config).sortRisk =
    (m.inMemorySort && decide ((of shape m stats config).sortBudget <
      (of shape m stats config).sortBytes)) := by
  cases h : m.inMemorySort <;> simp [of, h]

end CostEstimate

end IndexPlanner
