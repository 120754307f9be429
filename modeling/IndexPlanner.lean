import IndexPlanner.QueryShape.Document
import IndexPlanner.Explanation
import IndexPlanner.Session
import IndexPlanner.Proofs.IndexMatch.Blocks
import IndexPlanner.Proofs.IndexMatch.Accounting
import IndexPlanner.Proofs.Recommendation.Optimality
import IndexPlanner.Proofs.IndexMatch.FullCoverage
import IndexPlanner.Proofs.IndexMatch.Extension
import IndexPlanner.Proofs.IndexMatch.Reversal
import IndexPlanner.Proofs.IndexMatch.Rearrangement
import IndexPlanner.Proofs.IndexMatch.SortOrder
import IndexPlanner.Proofs.Catalog.Changes
import IndexPlanner.Proofs.Catalog.Runs
import IndexPlanner.Proofs.Catalog.Batch
import IndexPlanner.Proofs.Advice.Ranking
import IndexPlanner.Proofs.Advice.Coverage
import IndexPlanner.Proofs.Text.Bytes
import IndexPlanner.Proofs.Advice.CoveredFirst
import IndexPlanner.Proofs.Advice.Bookkeeping
import IndexPlanner.Proofs.Json.Distinct
import IndexPlanner.Proofs.QueryShape.Meaning
import IndexPlanner.Proofs.QueryShape.FirstFault
import IndexPlanner.Proofs.QueryShape.Grammar
import IndexPlanner.Proofs.Json.Tokens
import IndexPlanner.Proofs.Json.Reading
import IndexPlanner.Proofs.Json.Records
import IndexPlanner.Proofs.Timestamp.Reading
import IndexPlanner.Proofs.Catalog.RoundTrip
import IndexPlanner.Proofs.IndexDefinition.Defining
import IndexPlanner.Proofs.Checksum.Division
import IndexPlanner.Proofs.Catalog.Exchange
import IndexPlanner.Proofs.Catalog.Saving
import IndexPlanner.Proofs.CostEstimate.SortRisk
import IndexPlanner.Proofs.CostEstimate.ScanCost
import IndexPlanner.Proofs.Catalog.GeneratedNames
import IndexPlanner.Proofs.Event.Line
import IndexPlanner.Proofs.Explanation.Agreement
