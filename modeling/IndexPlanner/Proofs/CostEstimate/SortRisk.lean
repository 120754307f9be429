import IndexPlanner.CostEstimate
import IndexPlanner.Proofs.IndexMatch.Blocks

/-!
# When a sort is a risk

The number of bytes that a sort takes is a product of two 64-bit numbers, and where the product
is too large for 64 bits the greatest 64-bit number stands for it.  A budget is a 64-bit number
too, so it is exceeded by the product iff it is exceeded by what stands for it.  The one
exception is the greatest budget of all, which is never exceeded.

Nothing else of a match has a part in this: the documents that are read depend on the number of
equalities alone, and whether they are sorted on a single flag.

* `exactBytes` is the product, without a bound.
* `toNat_sortBytes` and `sortRisk_iff_sortBudget_lt` read the bytes and the risk off it.
* `sortRisk_iff_exactBytes`: below the greatest budget the bound makes no difference.
* `selectivity_congr`, `scanCost_congr`: what the number of documents depends on.
* `sortRisk_arithmetic`: all this together.
-/

namespace IndexPlanner
namespace CostEstimate

/-- The number of bytes of the documents that are read, however large it is. -/
def exactBytes (c : CostEstimate) (stats : CorpusStats) : Nat :=
  c.scanCost.toNat * stats.documentBytes.toNat

variable (shape : QueryShape) (m : IndexMatch) (stats : CorpusStats) (config : PlannerConfig)

theorem toNat_bytes (documents documentBytes : UInt64) :
    (bytes documents documentBytes).toNat =
      min (documents.toNat * documentBytes.toNat) (UInt64.size - 1) :=
  Binary64.toNat_saturate _

/-- A sort takes the bytes of what is read, or the greatest number if they are more. -/
theorem toNat_sortBytes : (of shape m stats config).sortBytes.toNat =
    if m.inMemorySort then
      min ((of shape m stats config).exactBytes stats) (UInt64.size - 1)
    else 0 := by
  rw [sortBytes_eq]
  split
  · exact toNat_bytes _ _
  · rfl

/-- The risk is that a sort takes more than its budget; no sort takes nothing. -/
theorem sortRisk_iff_sortBudget_lt : (of shape m stats config).sortRisk = true ↔
    (of shape m stats config).sortBudget < (of shape m stats config).sortBytes := by
  rw [sortRisk_eq, Bool.and_eq_true, decide_eq_true_eq, and_iff_right_iff_imp]
  intro hlt
  cases hsort : m.inMemorySort with
  | true => rfl
  | false =>
    rw [sortBytes_eq, hsort] at hlt
    exact absurd hlt UInt64.not_lt_zero

variable {config}

/-- Below the greatest budget, there is a risk iff a sort is left and the bytes of what it
sorts are more than the budget. -/
theorem sortRisk_iff_exactBytes (hbudget : config.sortBudget.toNat < UInt64.size - 1) :
    (of shape m stats config).sortRisk = true ↔
      m.inMemorySort = true ∧
        config.sortBudget.toNat < (of shape m stats config).exactBytes stats := by
  rw [sortRisk_iff_sortBudget_lt, UInt64.lt_iff_toNat_lt, toNat_sortBytes, sortBudget_eq]
  split
  · next hsort =>
    rw [and_iff_right hsort, Nat.lt_min]
    exact and_iff_left hbudget
  · next hsort => simp [hsort]

/-- The greatest budget is never exceeded. -/
theorem sortRisk_eq_false_of_greatest (hbudget : config.sortBudget.toNat = UInt64.size - 1) :
    (of shape m stats config).sortRisk = false := by
  rw [← Bool.not_eq_true, sortRisk_iff_sortBudget_lt, UInt64.lt_iff_toNat_lt, sortBudget_eq,
    hbudget]
  have hlt := (of shape m stats config).sortBytes.toNat_lt_size
  omega

variable {m} (config)

/-- A match narrows a scan by the number of equalities that it uses, and by nothing else. -/
theorem selectivity_congr {n : IndexMatch}
    (h : min m.equalityConsumed shape.equality.size =
      min n.equalityConsumed shape.equality.size) :
    (of shape m stats config).selectivity = (of shape n stats config).selectivity := by
  rw [selectivity_eq, selectivity_eq, narrowing, narrowing, h]

theorem scanCost_congr {n : IndexMatch}
    (h : min m.equalityConsumed shape.equality.size =
      min n.equalityConsumed shape.equality.size) :
    (of shape m stats config).scanCost = (of shape n stats config).scanCost := by
  rw [scanCost_eq, scanCost_eq, selectivity_congr shape stats config h]

/-- **The arithmetic of the sort risk.**  A sort takes the bytes of the documents that are
read, or the greatest 64-bit number if they are more; without a sort it is nothing.  There is a
risk iff that is more than the budget.  So below the greatest budget there is a risk iff there
is a sort and the exact number of bytes is more than the budget, and at the greatest budget
there never is.  The narrowing and the documents that are read are the same for all matches
that use equally many equalities of the query; the match of an index uses no more than there
are. -/
theorem sortRisk_arithmetic (shape : QueryShape) (m : IndexMatch) (stats : CorpusStats)
    (config : PlannerConfig) :
    (of shape m stats config).sortBytes.toNat =
      (if m.inMemorySort then
        min ((of shape m stats config).exactBytes stats) (UInt64.size - 1)
      else 0) ∧
    ((of shape m stats config).sortRisk = true ↔
      (of shape m stats config).sortBudget < (of shape m stats config).sortBytes) ∧
    (config.sortBudget.toNat < UInt64.size - 1 →
      ((of shape m stats config).sortRisk = true ↔
        m.inMemorySort = true ∧
          config.sortBudget.toNat < (of shape m stats config).exactBytes stats)) ∧
    (config.sortBudget.toNat = UInt64.size - 1 →
      (of shape m stats config).sortRisk = false) ∧
    (∀ n : IndexMatch,
      min m.equalityConsumed shape.equality.size =
          min n.equalityConsumed shape.equality.size →
        (of shape m stats config).selectivity = (of shape n stats config).selectivity ∧
          (of shape m stats config).scanCost = (of shape n stats config).scanCost) ∧
    ∀ d, min (IndexMatch.of shape d).equalityConsumed shape.equality.size =
      (IndexMatch.of shape d).equalityConsumed := by
  refine ⟨toNat_sortBytes shape m stats config, sortRisk_iff_sortBudget_lt shape m stats config,
    sortRisk_iff_exactBytes shape m stats, sortRisk_eq_false_of_greatest shape m stats,
    fun n hn => ?_, fun d => ?_⟩
  · exact ⟨selectivity_congr shape stats config hn, scanCost_congr shape stats config hn⟩
  · exact Nat.min_eq_left (IndexMatch.equalityConsumed_of_le shape d)

end CostEstimate
end IndexPlanner
