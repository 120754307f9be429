import IndexPlanner.Proofs.Advice.Coverage
import IndexPlanner.Proofs.IndexMatch.FullCoverage
import IndexPlanner.Proofs.Text.Bytes

/-!
# The candidates that serve a query in full

A rank has six components, and the first one puts the indexes that serve a query in full
before all others.  Among these the next four decide nothing.  A full match has all
equalities in front, so the scan is narrowed as far as the query allows; it leaves nothing to
be sorted; and it uses as many keys as a query can use.  All this is said by the query, so it
is the same for all full matches, and what is left to rank them by is their names.

* `Advice.covering` and `Advice.lacking` are the two parts of the candidates.
* `of_eq_of_isFullyCovered`: full matches have the same estimate, whatever it comes to.
* `ranksBefore_iff_of_isFullyCovered`: full matches are ranked by name.
* `eq_covering_append_lacking`: in a ranking the full matches come first.
* `eq_or_ranksBefore_of_best?`: the best candidate ranks before all others.
* `candidates_adviceOn_covered_first`: what follows for the candidates of a catalog.
-/

namespace IndexPlanner

/-! ## What full matches have in common -/

namespace IndexMatch

variable {shape : QueryShape} {d : IndexDefinition}

theorem equalityConsumed_of_isFullyCovered (h : (of shape d).isFullyCovered = true) :
    (of shape d).equalityConsumed = shape.equality.size := by
  obtain ⟨hlead, -, -⟩ := isFullyCovered_iff.1 h
  exact perm_equalityBlock_iff.1 hlead

theorem inMemorySort_of_isFullyCovered (h : (of shape d).isFullyCovered = true) :
    (of shape d).inMemorySort = false := by
  obtain ⟨-, hserved, -⟩ := isFullyCovered_iff.1 h
  exact inMemorySort_eq_false_iff.2 hserved

end IndexMatch

namespace CostEstimate

variable (shape : QueryShape) {m n : IndexMatch} (stats : CorpusStats) (config : PlannerConfig)

/-- An estimate looks at two things in a match: how many equalities narrow the scan, and
whether a sort is left. -/
theorem of_congr (hnarrowing : narrowing shape m = narrowing shape n)
    (hsort : m.inMemorySort = n.inMemorySort) :
    of shape m stats config = of shape n stats config := by
  simp only [of, hnarrowing, hsort]

theorem sortRisk_of_inMemorySort_eq_false (h : m.inMemorySort = false) :
    (of shape m stats config).sortRisk = false := by
  rw [sortRisk_eq, h, Bool.false_and]

variable {shape} {d e : IndexDefinition}

/-- Full matches have the same estimate. -/
theorem of_eq_of_isFullyCovered (hd : (IndexMatch.of shape d).isFullyCovered = true)
    (he : (IndexMatch.of shape e).isFullyCovered = true) :
    of shape (.of shape d) stats config = of shape (.of shape e) stats config := by
  refine of_congr shape stats config ?_ ?_
  · rw [narrowing, narrowing, IndexMatch.equalityConsumed_of_isFullyCovered hd,
      IndexMatch.equalityConsumed_of_isFullyCovered he]
  · rw [IndexMatch.inMemorySort_of_isFullyCovered hd, IndexMatch.inMemorySort_of_isFullyCovered he]

end CostEstimate

/-! ## Full matches in a ranking -/

namespace CandidateReport

variable {a b : CandidateReport} {cs : List CandidateReport}

/-- Where the components before it do not differ, the name decides. -/
theorem compare_eq_of_same (hcovered : a.isFullyCovered = b.isFullyCovered)
    (hcost : a.cost = b.cost) (hsort : a.usage.inMemorySort = b.usage.inMemorySort)
    (hconsumed : a.usage.consumed = b.usage.consumed) :
    a.compare b = Text.compare a.index.name b.index.name := by
  simp only [CandidateReport.compare, compareLex, compareOn, hcovered, hcost, hsort, hconsumed,
    Std.ReflCmp.compare_self, Ordering.eq_then]

/-- A ranking is its full matches and then all others. -/
theorem eq_covering_append_lacking (h : cs.Pairwise RanksBefore) :
    cs = cs.filter (·.isFullyCovered) ++ cs.filter (!·.isFullyCovered) := by
  have hparts : (cs.filter (·.isFullyCovered) ++ cs.filter (!·.isFullyCovered)).Pairwise
      RanksBefore := by
    refine List.pairwise_append.2 ⟨h.filter _, h.filter _, ?_⟩
    intro a ha b hb
    have hcovered : a.isFullyCovered = true := (List.mem_filter.1 ha).2
    have hother : b.isFullyCovered = false := by simpa using (List.mem_filter.1 hb).2
    exact ranksBefore_of_isFullyCovered hcovered hother
  exact eq_of_perm_of_pairwise (List.filter_append_perm _ cs).symm h hparts

end CandidateReport

namespace Advice

/-- The candidates that serve the query in full. -/
def covering (a : Advice) : List CandidateReport := a.candidates.filter (·.isFullyCovered)

/-- The candidates that leave something to be done. -/
def lacking (a : Advice) : List CandidateReport := a.candidates.filter (!·.isFullyCovered)

end Advice

namespace Advisor

open CandidateReport (RanksBefore)

variable {advisor : Advisor} {shape : QueryShape} {catalog : Catalog} {stats : CorpusStats}
  {stats? : Option CorpusStats} {d e : IndexDefinition}

/-- They are the reports of the indexes that serve the query in full. -/
theorem mem_covering_adviceOn_iff {c : CandidateReport} :
    c ∈ (advisor.adviceOn shape catalog stats?).covering ↔
      ∃ d ∈ catalog.indexes, (IndexMatch.of shape d).isFullyCovered = true ∧
        advisor.report shape (stats?.getD .zero) d = c := by
  rw [Advice.covering, List.mem_filter, mem_candidates_adviceOn_iff]
  constructor
  · rintro ⟨⟨d, hd, rfl⟩, hcovered⟩
    exact ⟨d, hd, hcovered, rfl⟩
  · rintro ⟨d, hd, hcovered, rfl⟩
    exact ⟨⟨d, hd, rfl⟩, hcovered⟩

/-- Of two full matches the one with the lesser name has the better rank. -/
theorem ranksBefore_iff_of_isFullyCovered
    (hd : (IndexMatch.of shape d).isFullyCovered = true)
    (he : (IndexMatch.of shape e).isFullyCovered = true) :
    (advisor.report shape stats d).RanksBefore (advisor.report shape stats e) ↔
      Text.BytesBefore d.name e.name := by
  have hcompare : (advisor.report shape stats d).compare (advisor.report shape stats e) =
      Text.compare d.name e.name := by
    refine CandidateReport.compare_eq_of_same (hd.trans he.symm) ?_ ?_ ?_
    · exact CostEstimate.of_eq_of_isFullyCovered stats advisor.config hd he
    · exact (IndexMatch.inMemorySort_of_isFullyCovered hd).trans
        (IndexMatch.inMemorySort_of_isFullyCovered he).symm
    · exact (IndexMatch.isFullyCovered_iff_consumed_eq.1 hd).trans
        (IndexMatch.isFullyCovered_iff_consumed_eq.1 he).symm
  rw [RanksBefore, hcompare, Text.compare_eq_lt_iff, Text.before_iff_bytesBefore]

/-- The best candidate ranks before all others. -/
theorem eq_or_ranksBefore_of_best? {best c : CandidateReport}
    (hbest : (advisor.adviceOn shape catalog stats?).best? = some best)
    (hc : c ∈ (advisor.adviceOn shape catalog stats?).candidates) :
    c = best ∨ best.RanksBefore c := by
  obtain ⟨others, hcs⟩ := List.head?_eq_some_iff.1 hbest
  have hranked := pairwise_candidates_adviceOn advisor shape catalog stats?
  rw [hcs] at hc hranked
  exact (List.mem_cons.1 hc).imp_right fun hmem => (List.pairwise_cons.1 hranked).1 c hmem

/-- **Full matches come first, in the order of their names.**  Candidates that serve the query
in full use the same number of keys and read the same number of documents, and they have no
sort and so no risk of one.  The candidates begin with all of these, in strictly ascending
order of the bytes of their names, and then come all others.  If there is one at all, the best
candidate is the one with the least name. -/
theorem candidates_adviceOn_covered_first (advisor : Advisor) (shape : QueryShape)
    (catalog : Catalog) (stats? : Option CorpusStats) :
    (∀ a ∈ (advisor.adviceOn shape catalog stats?).covering,
      ∀ b ∈ (advisor.adviceOn shape catalog stats?).covering,
        a.usage.consumed = b.usage.consumed ∧ a.cost.scanCost = b.cost.scanCost) ∧
    (∀ a ∈ (advisor.adviceOn shape catalog stats?).covering,
      a.usage.inMemorySort = false ∧ a.cost.sortRisk = false) ∧
    (advisor.adviceOn shape catalog stats?).candidates =
      (advisor.adviceOn shape catalog stats?).covering ++
        (advisor.adviceOn shape catalog stats?).lacking ∧
    (advisor.adviceOn shape catalog stats?).covering.Pairwise
      (fun a b => Text.BytesBefore a.index.name b.index.name) ∧
    ((∃ d ∈ catalog.indexes, (IndexMatch.of shape d).isFullyCovered = true) →
      ∃ d ∈ catalog.indexes, (IndexMatch.of shape d).isFullyCovered = true ∧
        (advisor.adviceOn shape catalog stats?).best? =
          some (advisor.report shape (stats?.getD .zero) d) ∧
        ∀ e ∈ catalog.indexes, (IndexMatch.of shape e).isFullyCovered = true →
          e = d ∨ Text.BytesBefore d.name e.name) := by
  have hranked := pairwise_candidates_adviceOn advisor shape catalog stats?
  refine ⟨?_, ?_, CandidateReport.eq_covering_append_lacking hranked, ?_, ?_⟩
  · intro a ha b hb
    obtain ⟨d, -, hd, rfl⟩ := mem_covering_adviceOn_iff.1 ha
    obtain ⟨e, -, he, rfl⟩ := mem_covering_adviceOn_iff.1 hb
    have hconsumed := (IndexMatch.isFullyCovered_iff_consumed_eq.1 hd).trans
      (IndexMatch.isFullyCovered_iff_consumed_eq.1 he).symm
    have hcost := CostEstimate.of_eq_of_isFullyCovered (stats?.getD .zero) advisor.config hd he
    exact ⟨hconsumed, congrArg CostEstimate.scanCost hcost⟩
  · intro a ha
    obtain ⟨d, -, hd, rfl⟩ := mem_covering_adviceOn_iff.1 ha
    have hsort := IndexMatch.inMemorySort_of_isFullyCovered hd
    exact ⟨hsort, CostEstimate.sortRisk_of_inMemorySort_eq_false shape _ _ hsort⟩
  · refine (hranked.filter _).imp_of_mem fun {a b} ha hb hab => ?_
    obtain ⟨d, -, hd, rfl⟩ := mem_covering_adviceOn_iff.1 ha
    obtain ⟨e, -, he, rfl⟩ := mem_covering_adviceOn_iff.1 hb
    exact (ranksBefore_iff_of_isFullyCovered hd he).1 hab
  · intro hsome
    have hcovers : catalog.covers shape = true := List.any_eq_true.2 hsome
    obtain ⟨d, hd, hcovered, hbest⟩ := exists_best?_adviceOn advisor stats? hcovers
    refine ⟨d, hd, hcovered, hbest, ?_⟩
    intro e he hecovered
    rcases eq_or_ranksBefore_of_best? hbest (mem_candidates_adviceOn_iff.2 ⟨e, he, rfl⟩)
      with hsame | hbefore
    · exact .inl (congrArg CandidateReport.index hsame)
    · exact .inr ((ranksBefore_iff_of_isFullyCovered hcovered hecovered).1 hbefore)

/-- An index on the orders of a customer in a state, with the latest ones first. -/
def latestOrders : IndexDefinition where
  name := "latest_orders"
  keys := [Key.asc "customer", Key.asc "status", ⟨"placed", .desc⟩, Key.asc "amount"]
  named := by decide
  nodup := by decide
  fieldsNamed := by decide

/-- A catalog with two indexes that serve a query for paid orders in full. -/
def ordersTwice : Catalog where
  version := .initial
  indexes := [IndexMatch.ordersByCustomer, latestOrders]
  registrable := ⟨by decide, by decide, by decide⟩

/-- Both indexes cost the same, and so the lesser one of their names decides, although its
index was registered last and has fewer keys. -/
theorem candidates_adviceOn_covered_first_paidOrders :
    (standard.adviceOn paidOrders ordersTwice (some ⟨1000, 200⟩)).best? =
      some (standard.report paidOrders ⟨1000, 200⟩ latestOrders) := by
  obtain ⟨-, -, -, -, hleast⟩ :=
    candidates_adviceOn_covered_first standard paidOrders ordersTwice (some ⟨1000, 200⟩)
  have hlatest : latestOrders ∈ ordersTwice.indexes := List.mem_cons_of_mem _ List.mem_cons_self
  have hcovered : (IndexMatch.of paidOrders latestOrders).isFullyCovered = true := by decide
  obtain ⟨d, hd, -, hbest, hothers⟩ := hleast ⟨latestOrders, hlatest, hcovered⟩
  rcases List.mem_cons.1 hd with rfl | hd
  · rcases hothers latestOrders hlatest hcovered with hsame | hbefore
    · exact absurd (congrArg IndexDefinition.name hsame) (by decide)
    · exact absurd (Text.before_iff_bytesBefore.2 hbefore) (by decide)
  · rw [hbest, List.mem_singleton.1 hd]
    rfl

end Advisor

end IndexPlanner
