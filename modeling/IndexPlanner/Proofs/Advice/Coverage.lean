import IndexPlanner.Proofs.Advice.Ranking
import IndexPlanner.Proofs.Recommendation.Optimality

/-!
# Advice that is followed

Advice looks for an index that serves a query in full, and if there is none it recommends
one.  Both answers depend on the query and the indexes of the catalog and on nothing else,
neither on the statistics nor on the configuration, because costs take no part in them.  So
following the advice ends the matter: the recommended index is new to the catalog, and once
it is registered it is the best candidate, and nothing more is recommended.

* `Catalog.covers` says whether an index of a catalog serves a query in full.
* `hasFullCoverage_adviceOn` and `recommendation?_adviceOn_eq_some_iff` express both answers
  with it; the first one needs that a full match ranks before all others.
* `keys_ne_of_not_covers`: a catalog that does not serve a query in full has no index with
  the recommended keys.
* `best?_adviceOn_of_append`: the recommended index is the best one, once it is registered.
* `adviceOn_closes_loop`: all this for the advice about a catalog.
-/

namespace IndexPlanner

/-! ## Full matches come first -/

namespace CandidateReport

variable {a b : CandidateReport}

/-- A candidate that serves the query in full ranks before one that does not. -/
theorem ranksBefore_of_isFullyCovered (ha : a.isFullyCovered = true)
    (hb : b.isFullyCovered = false) : a.RanksBefore b := by
  have hfirst : compareOn (fun c : CandidateReport => !c.isFullyCovered) a b = .lt := by
    rw [compareOn, ha, hb]
    rfl
  rw [RanksBefore, CandidateReport.compare, compareLex, hfirst]
  rfl

/-- If some candidate of a ranking serves the query in full, then so does the first. -/
theorem any_head?_of_pairwise {cs : List CandidateReport} (h : cs.Pairwise RanksBefore) :
    cs.head?.any (·.isFullyCovered) = cs.any (·.isFullyCovered) := by
  cases cs with
  | nil => rfl
  | cons c cs =>
    obtain ⟨hc, -⟩ := List.pairwise_cons.1 h
    rw [List.head?_cons, Option.any_some, List.any_cons]
    cases hcovered : c.isFullyCovered with
    | true => rfl
    | false =>
      -- a full match further back would rank before the first candidate
      rw [Bool.false_or, eq_comm, List.any_eq_false]
      intro d hd hdcovered
      exact (hc d hd).asymm (ranksBefore_of_isFullyCovered hdcovered hcovered)

end CandidateReport

/-! ## Catalogs that serve a query -/

namespace Catalog

/-- Whether some index of a catalog serves a query in full. -/
def covers (catalog : Catalog) (shape : QueryShape) : Bool :=
  catalog.indexes.any fun d => (IndexMatch.of shape d).isFullyCovered

variable {catalog : Catalog} {shape : QueryShape}

theorem covers_eq_false_iff :
    catalog.covers shape = false ↔
      ∀ d ∈ catalog.indexes, (IndexMatch.of shape d).isFullyCovered = false := by
  simp only [covers, List.any_eq_false, Bool.not_eq_true]

/-- A catalog that does not serve a query in full has no index with the recommended
keys, for that would serve it. -/
theorem keys_ne_of_not_covers (h : catalog.covers shape = false) :
    ∀ d ∈ catalog.indexes, d.keys ≠ recommendedKeys shape := by
  intro d hd hkeys
  have hcovered := (IndexMatch.serves_of_keys_eq_recommendedKeys hkeys).isFullyCovered
  rw [covers_eq_false_iff.1 h d hd] at hcovered
  simp at hcovered

end Catalog

namespace Advisor

variable (advisor : Advisor) (shape : QueryShape) (catalog : Catalog)
  (stats? : Option CorpusStats)

/-- Whether a candidate serves the query in full does not depend on any costs. -/
theorem any_candidates_adviceOn :
    (advisor.adviceOn shape catalog stats?).candidates.any (·.isFullyCovered) =
      catalog.covers shape := by
  have hperm := CandidateReport.ranked_perm
    (catalog.indexes.map (advisor.report shape (stats?.getD .zero)))
  exact hperm.any_eq.trans List.any_map

/-- It is enough to look at the best candidate. -/
theorem hasFullCoverage_adviceOn :
    (advisor.adviceOn shape catalog stats?).hasFullCoverage = catalog.covers shape := by
  rw [← any_candidates_adviceOn advisor shape catalog stats?]
  exact CandidateReport.any_head?_of_pairwise
    (pairwise_candidates_adviceOn advisor shape catalog stats?)

theorem recommendation?_adviceOn :
    (advisor.adviceOn shape catalog stats?).recommendation? =
      if catalog.covers shape then none else (recommend shape).toOption := by
  rw [← any_candidates_adviceOn advisor shape catalog stats?]
  rfl

variable {advisor shape catalog stats?} {r : IndexDefinition}

theorem recommendation?_adviceOn_eq_some_iff :
    (advisor.adviceOn shape catalog stats?).recommendation? = some r ↔
      catalog.covers shape = false ∧ recommend shape = .ok r := by
  rw [recommendation?_adviceOn]
  cases catalog.covers shape with
  | true => simp
  | false => cases recommend shape <;> simp [Except.toOption]

/-- Something is recommended iff nothing registered is good enough and there is something
to be served. -/
theorem isSome_recommendation?_adviceOn :
    (advisor.adviceOn shape catalog stats?).recommendation?.isSome = true ↔
      catalog.covers shape = false ∧ shape.isEmpty = false := by
  rw [Option.isSome_iff_exists]
  constructor
  · rintro ⟨r, hr⟩
    obtain ⟨hcovers, hrecommend⟩ := recommendation?_adviceOn_eq_some_iff.1 hr
    exact ⟨hcovers, (recommend_eq_ok_iff.1 hrecommend).1⟩
  · rintro ⟨hcovers, hne⟩
    obtain ⟨r, hrecommend, -⟩ := exists_recommend_eq_ok hne
    exact ⟨r, recommendation?_adviceOn_eq_some_iff.2 ⟨hcovers, hrecommend⟩⟩

variable (advisor stats?)

/-- The best candidate of a catalog that serves the query in full is the report of one of
its indexes that does. -/
theorem exists_best?_adviceOn (h : catalog.covers shape = true) :
    ∃ d ∈ catalog.indexes, (IndexMatch.of shape d).isFullyCovered = true ∧
      (advisor.adviceOn shape catalog stats?).best? =
        some (advisor.report shape (stats?.getD .zero) d) := by
  rw [← hasFullCoverage_adviceOn advisor shape catalog stats?] at h
  cases hbest : (advisor.adviceOn shape catalog stats?).best? with
  | none =>
    rw [Advice.hasFullCoverage, hbest] at h
    simp at h
  | some best =>
    rw [Advice.hasFullCoverage, hbest, Option.any_some] at h
    have hmem : best ∈ (advisor.adviceOn shape catalog stats?).candidates :=
      List.mem_of_head? hbest
    obtain ⟨d, hd, rfl⟩ := mem_candidates_adviceOn_iff.1 hmem
    exact ⟨d, hd, h, rfl⟩

/-- With the recommended index beside indexes of which none serves the query in full, that
index is the best candidate. -/
theorem best?_adviceOn_of_append {more : Catalog} (hcovers : catalog.covers shape = false)
    (hkeys : r.keys = recommendedKeys shape) (hmore : more.indexes = catalog.indexes ++ [r]) :
    more.covers shape = true ∧ (advisor.adviceOn shape more stats?).best? =
      some (advisor.report shape (stats?.getD .zero) r) := by
  have hmem : r ∈ more.indexes := by
    rw [hmore]
    exact List.mem_append_right _ List.mem_cons_self
  have hfull : more.covers shape = true := by
    rw [Catalog.covers, List.any_eq_true]
    exact ⟨r, hmem, (IndexMatch.serves_of_keys_eq_recommendedKeys hkeys).isFullyCovered⟩
  obtain ⟨d, hd, hcovered, hbest⟩ := exists_best?_adviceOn advisor stats? hfull
  rw [hmore, List.mem_append, List.mem_singleton] at hd
  rcases hd with hd | rfl
  · rw [Catalog.covers_eq_false_iff.1 hcovers d hd] at hcovered
    simp at hcovered
  · exact ⟨hfull, hbest⟩

/-- **Advice closes the loop.**  Advice reports full coverage iff some candidate serves the
query in full, and it recommends an index iff none does and some field of the query has a
role.  No registered index has the keys of the recommended one, so it can be registered
unless its name is taken.  Once it is registered, any advice for the same query has it in
front, reports full coverage and recommends nothing. -/
theorem adviceOn_closes_loop (advisor : Advisor) (shape : QueryShape) (catalog : Catalog)
    (stats? : Option CorpusStats) :
    ((advisor.adviceOn shape catalog stats?).hasFullCoverage = true ↔
      ∃ c ∈ (advisor.adviceOn shape catalog stats?).candidates, c.isFullyCovered = true) ∧
    ((advisor.adviceOn shape catalog stats?).recommendation?.isSome = true ↔
      (∀ c ∈ (advisor.adviceOn shape catalog stats?).candidates, c.isFullyCovered = false) ∧
        shape.isEmpty = false) ∧
    ∀ r, (advisor.adviceOn shape catalog stats?).recommendation? = some r →
      (∀ d ∈ catalog.indexes, d.keys ≠ r.keys) ∧
      (∀ e, (catalog.add r).outcome = .error e ↔
        e = .nameInUse r.name ∧ ∃ d ∈ catalog.indexes, d.name = r.name) ∧
      ((catalog.add r).outcome.isOk = true →
        ∀ (other : Advisor) (otherStats? : Option CorpusStats),
          (other.adviceOn shape (catalog.add r).catalog otherStats?).best? =
            some (other.report shape (otherStats?.getD .zero) r) ∧
          (other.adviceOn shape (catalog.add r).catalog otherStats?).hasFullCoverage = true ∧
          (other.adviceOn shape (catalog.add r).catalog otherStats?).recommendation? =
            none) := by
  have hany := any_candidates_adviceOn advisor shape catalog stats?
  refine ⟨?_, ?_, fun r hr => ?_⟩
  · rw [hasFullCoverage_adviceOn, ← hany, List.any_eq_true]
  · rw [isSome_recommendation?_adviceOn, ← hany]
    simp only [List.any_eq_false, Bool.not_eq_true]
  · obtain ⟨hcovers, hrecommend⟩ := recommendation?_adviceOn_eq_some_iff.1 hr
    obtain ⟨hne, -, hkeys⟩ := recommend_eq_ok_iff.1 hrecommend
    have hfresh : ∀ d ∈ catalog.indexes, d.keys ≠ r.keys := by
      rw [hkeys]
      exact Catalog.keys_ne_of_not_covers hcovers
    have hnonempty : r.keys ≠ [] := by
      rw [hkeys]
      exact recommendedKeys_ne_nil hne
    refine ⟨hfresh, fun e => Catalog.outcome_add_eq_error_iff hnonempty hfresh, ?_⟩
    intro hok other otherStats?
    have hadded := (Catalog.add_succeeds_of_isOk hok).indexes
    obtain ⟨hfull, hbest⟩ :=
      best?_adviceOn_of_append other otherStats? hcovers hkeys hadded
    refine ⟨hbest, ?_, ?_⟩
    · rw [hasFullCoverage_adviceOn, hfull]
    · rw [recommendation?_adviceOn, if_pos hfull]

/-- A catalog with one index, which is of no use to a query for paid orders. -/
def ordersByNote : Catalog where
  version := .initial
  indexes := [
    { name := "by_note"
      keys := [Key.asc "note"]
      named := by decide
      nodup := by decide
      fieldsNamed := by decide }]
  registrable := ⟨by decide, by decide, by decide⟩

/-- The index that paid orders would like to have is recommended beside `ordersByNote`, can
be registered there and is then in front. -/
theorem adviceOn_closes_loop_paidOrders :
    ∃ r, (standard.adviceOn paidOrders ordersByNote none).recommendation? = some r ∧
      (ordersByNote.add r).outcome.isOk = true ∧
      (standard.adviceOn paidOrders (ordersByNote.add r).catalog none).best?.map
        (·.index.name) = some "customer_1_status_1_placed_-1_amount_1_day_1" ∧
      (standard.adviceOn paidOrders (ordersByNote.add r).catalog none).recommendation? =
        none := by
  have hsome : (standard.adviceOn paidOrders ordersByNote none).recommendation?.isSome = true :=
    isSome_recommendation?_adviceOn.2 ⟨by decide, by decide⟩
  obtain ⟨r, hr⟩ := Option.isSome_iff_exists.1 hsome
  obtain ⟨-, -, hloop⟩ := adviceOn_closes_loop standard paidOrders ordersByNote none
  obtain ⟨-, herror, hadded⟩ := hloop r hr
  have hname : r.name = "customer_1_status_1_placed_-1_amount_1_day_1" := by
    have hrecommend := (recommendation?_adviceOn_eq_some_iff.1 hr).2
    exact (recommend_eq_ok_iff.1 hrecommend).2.1
  have hok : (ordersByNote.add r).outcome.isOk = true := by
    cases houtcome : (ordersByNote.add r).outcome with
    | ok version => rfl
    | error e =>
      obtain ⟨-, d, hd, hd'⟩ := (herror e).1 houtcome
      rw [hname, List.mem_singleton.1 hd] at hd'
      exact absurd hd' (by decide)
  obtain ⟨hbest, -, hnone⟩ := hadded hok standard none
  refine ⟨r, hr, hok, ?_, hnone⟩
  rw [hbest, Option.map_some]
  exact congrArg some hname

end Advisor

end IndexPlanner
