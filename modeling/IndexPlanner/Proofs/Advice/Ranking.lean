import IndexPlanner.Advice
import IndexPlanner.Proofs.Catalog.Changes

/-!
# The ranking of candidates

Candidates are sorted by a comparison of five components and, after these, of the names of
the indexes.  The indexes of a catalog have different names, so no two candidates are ever
equal in rank, and the ranking of a catalog is one list that depends on nothing but the set
of its indexes.  In particular the order in which they were registered is not seen in it.

* `RanksBefore` is the strict order of the ranks: `RanksBefore.trans`, `not_ranksBefore_self`
  and `ranksBefore_or_of_name_ne` make it a strict total order on candidates with different
  names.
* `pairwise_ranksBefore_ranked`: the ranking of reports with different names is strictly
  increasing.
* `ranked_eq_of_perm`: it does not depend on the order in which the reports come.
* `exists_split_ranked_cons`: one more report is put somewhere into it, and the others stay
  as they are.
* `candidates_adviceOn_laws`: all this for the candidates of a catalog.
-/

namespace IndexPlanner

/-! ## The order of the ranks -/

namespace CandidateReport

/-- The comparison of two texts carries over to that of two names, and the five components
before it are compared as numbers and truth values are. -/
instance : Std.TransCmp CandidateReport.compare :=
  have : Std.TransCmp fun a b : CandidateReport =>
      Text.compare a.index.name b.index.name :=
    { eq_swap := Text.compare_eq_swap _ _
      isLE_trans := fun {_ _ _} hab hbc => Std.TransCmp.isLE_trans hab hbc }
  inferInstanceAs (Std.TransCmp (compareLex _ _))

/-- A candidate has a better rank than another one. -/
def RanksBefore (a b : CandidateReport) : Prop := a.compare b = .lt

variable {a b c : CandidateReport}

theorem not_ranksBefore_self (a : CandidateReport) : ¬ a.RanksBefore a := by
  have hself : a.compare a = .eq := Std.ReflCmp.compare_self
  rw [RanksBefore, hself]
  simp

theorem RanksBefore.trans (hab : a.RanksBefore b) (hbc : b.RanksBefore c) :
    a.RanksBefore c := Std.TransCmp.lt_trans hab hbc

theorem RanksBefore.asymm (hab : a.RanksBefore b) : ¬ b.RanksBefore a :=
  fun hba => not_ranksBefore_self a (hab.trans hba)

/-- Candidates of equal rank have the same name. -/
theorem name_eq_of_compare_eq (h : a.compare b = .eq) : a.index.name = b.index.name := by
  rw [CandidateReport.compare] at h
  simp only [compareLex_eq_eq] at h
  exact Text.compare_eq_eq_iff.1 h.2.2.2.2.2

/-- Of two candidates with different names one ranks before the other. -/
theorem ranksBefore_or_of_name_ne (h : a.index.name ≠ b.index.name) :
    a.RanksBefore b ∨ b.RanksBefore a := by
  cases hab : a.compare b with
  | lt => exact .inl hab
  | eq => exact absurd (name_eq_of_compare_eq hab) h
  | gt => exact .inr (Std.OrientedCmp.lt_of_gt hab)

/-! ## Rankings -/

theorem pairwise_precedes_ranked (cs : List CandidateReport) :
    (ranked cs).Pairwise fun a b => a.precedes b = true := by
  refine List.pairwise_mergeSort (fun a b c hab hbc => ?_) (fun a b => ?_) cs
  · exact Std.TransCmp.isLE_trans hab hbc
  · rw [Bool.or_eq_true]
    cases hab : a.compare b with
    | lt => exact .inl (by rw [precedes, hab]; rfl)
    | eq => exact .inl (by rw [precedes, hab]; rfl)
    | gt => exact .inr (by rw [precedes, Std.OrientedCmp.lt_of_gt hab]; rfl)

/-- If no two reports are on indexes with the same name, each ranks before all that follow
it. -/
theorem pairwise_ranksBefore_ranked {cs : List CandidateReport}
    (h : (cs.map (·.index.name)).Nodup) : (ranked cs).Pairwise RanksBefore := by
  have hnames : (ranked cs).Pairwise fun a b => a.index.name ≠ b.index.name := by
    have hnodup := ((ranked_perm cs).map (·.index.name)).nodup_iff.2 h
    exact List.pairwise_map.1 hnodup
  -- the sort leaves no pair the wrong way round, and different names leave no tie
  refine (hnames.and (pairwise_precedes_ranked cs)).imp ?_
  rintro a b ⟨hne, hle⟩
  rcases ranksBefore_or_of_name_ne hne with hab | hba
  · exact hab
  · rw [precedes, Std.OrientedCmp.gt_of_lt hba] at hle
    simp at hle

/-- Two rankings of the same candidates are the same list. -/
theorem eq_of_perm_of_pairwise {l l' : List CandidateReport} (h : l.Perm l')
    (hl : l.Pairwise RanksBefore) (hl' : l'.Pairwise RanksBefore) : l = l' :=
  List.Perm.eq_of_pairwise (fun _ _ _ _ hab hba => absurd hba hab.asymm) hl hl' h

/-- The ranking does not depend on the order in which the reports come. -/
theorem ranked_eq_of_perm {cs cs' : List CandidateReport} (h : cs.Perm cs')
    (hnames : (cs.map (·.index.name)).Nodup) : ranked cs = ranked cs' := by
  have hnames' : (cs'.map (·.index.name)).Nodup := (h.map _).nodup_iff.1 hnames
  refine eq_of_perm_of_pairwise ?_ (pairwise_ranksBefore_ranked hnames)
    (pairwise_ranksBefore_ranked hnames')
  exact (ranked_perm cs).trans (h.trans (ranked_perm cs').symm)

/-- The ranking with one more report is the ranking without it, with the report put in at
some place. -/
theorem exists_split_ranked_cons {cs cs' : List CandidateReport} {a : CandidateReport}
    (h : cs'.Perm (a :: cs)) (hnames : (cs'.map (·.index.name)).Nodup) :
    ∃ before after, ranked cs = before ++ after ∧ ranked cs' = before ++ a :: after := by
  have hmem : a ∈ ranked cs' :=
    (ranked_perm cs').symm.subset (h.symm.subset List.mem_cons_self)
  obtain ⟨before, after, hsplit⟩ := List.append_of_mem hmem
  refine ⟨before, after, ?_, hsplit⟩
  -- without `a` the list is still increasing, so it is the ranking of what it has
  have hranked : (before ++ a :: after).Pairwise RanksBefore :=
    hsplit ▸ pairwise_ranksBefore_ranked hnames
  have hrest : (before ++ after).Pairwise RanksBefore :=
    hranked.sublist ((List.sublist_cons_self a after).append_left before)
  have hnames' : (cs.map (·.index.name)).Nodup :=
    (List.nodup_cons.1 ((h.map (·.index.name)).nodup_iff.1 hnames)).2
  have hperm : (a :: (before ++ after)).Perm (a :: cs) :=
    List.perm_middle.symm.trans (hsplit ▸ (ranked_perm cs').trans h)
  exact eq_of_perm_of_pairwise ((ranked_perm cs).trans hperm.cons_inv.symm)
    (pairwise_ranksBefore_ranked hnames') hrest

end CandidateReport

/-! ## The candidates of a catalog -/

namespace Advisor

open CandidateReport (RanksBefore ranked)

variable (advisor : Advisor) (shape : QueryShape)

/-- The reports on the indexes of a catalog have different names. -/
theorem nodup_names_reports (stats : CorpusStats) (catalog : Catalog) :
    ((catalog.indexes.map (advisor.report shape stats)).map (·.index.name)).Nodup := by
  rw [List.map_map]
  exact catalog.registrable.names

variable {advisor shape} in
/-- The candidates are the reports of the indexes of the catalog. -/
theorem mem_candidates_adviceOn_iff {catalog : Catalog} {stats? : Option CorpusStats}
    {c : CandidateReport} : c ∈ (advisor.adviceOn shape catalog stats?).candidates ↔
      ∃ d ∈ catalog.indexes, advisor.report shape (stats?.getD .zero) d = c :=
  (CandidateReport.ranked_perm _).mem_iff.trans List.mem_map

/-- Each candidate ranks before all that follow it. -/
theorem pairwise_candidates_adviceOn (catalog : Catalog) (stats? : Option CorpusStats) :
    (advisor.adviceOn shape catalog stats?).candidates.Pairwise RanksBefore :=
  CandidateReport.pairwise_ranksBefore_ranked (nodup_names_reports advisor shape _ catalog)

/-- Catalogs with the same indexes have the same candidates. -/
theorem candidates_adviceOn_eq_of_perm {catalog other : Catalog} (stats? : Option CorpusStats)
    (h : catalog.indexes.Perm other.indexes) :
    (advisor.adviceOn shape catalog stats?).candidates =
      (advisor.adviceOn shape other stats?).candidates :=
  CandidateReport.ranked_eq_of_perm (h.map _) (nodup_names_reports advisor shape _ catalog)

/-- What is recommended depends on the shape and the candidates alone. -/
theorem recommendation?_adviceOn_congr {catalog other : Catalog} {stats? : Option CorpusStats}
    (h : (advisor.adviceOn shape catalog stats?).candidates =
      (advisor.adviceOn shape other stats?).candidates) :
    (advisor.adviceOn shape catalog stats?).recommendation? =
      (advisor.adviceOn shape other stats?).recommendation? := by
  show (if (advisor.adviceOn shape catalog stats?).candidates.any (·.isFullyCovered) then _
    else _) = _
  rw [h]
  rfl

/-- A catalog with one more index has one more candidate, and the others keep their
order. -/
theorem exists_split_candidates_adviceOn {catalog more : Catalog} {d : IndexDefinition}
    (stats? : Option CorpusStats) (h : more.indexes.Perm (d :: catalog.indexes)) :
    ∃ before after,
      (advisor.adviceOn shape catalog stats?).candidates = before ++ after ∧
      (advisor.adviceOn shape more stats?).candidates =
        before ++ advisor.report shape (stats?.getD .zero) d :: after :=
  CandidateReport.exists_split_ranked_cons
    (h.map (advisor.report shape (stats?.getD .zero))) (nodup_names_reports advisor shape _ more)

/-- **The ranking of a catalog.**  The candidates of advice are the reports on the indexes
of the catalog, none lost and none twice, and each ranks before all that follow it.  Ranks
are a strict total order on candidates with different names.  So catalogs with the same
indexes in any orders get the same candidates and the same recommendation, and a change of
one index changes its own report and nothing else in the ranking. -/
theorem candidates_adviceOn_laws (catalog : Catalog) (stats? : Option CorpusStats) :
    (advisor.adviceOn shape catalog stats?).candidates.Perm
      (catalog.indexes.map (advisor.report shape (stats?.getD .zero))) ∧
    (advisor.adviceOn shape catalog stats?).candidates.Pairwise RanksBefore ∧
    ((∀ a : CandidateReport, ¬ a.RanksBefore a) ∧
      (∀ a b c : CandidateReport, a.RanksBefore b → b.RanksBefore c → a.RanksBefore c) ∧
      ∀ a b : CandidateReport, a.index.name ≠ b.index.name →
        a.RanksBefore b ∨ b.RanksBefore a) ∧
    (∀ other : Catalog, other.indexes.Perm catalog.indexes →
      (advisor.adviceOn shape other stats?).candidates =
        (advisor.adviceOn shape catalog stats?).candidates ∧
      (advisor.adviceOn shape other stats?).recommendation? =
        (advisor.adviceOn shape catalog stats?).recommendation?) ∧
    (∀ d : IndexDefinition, (catalog.add d).outcome.isOk = true → ∃ before after,
      (advisor.adviceOn shape catalog stats?).candidates = before ++ after ∧
      (advisor.adviceOn shape (catalog.add d).catalog stats?).candidates =
        before ++ advisor.report shape (stats?.getD .zero) d :: after) ∧
    (∀ name : String, (catalog.drop name).outcome.isOk = true →
      ∃ d ∈ catalog.indexes, d.name = name ∧ ∃ before after,
        (advisor.adviceOn shape catalog stats?).candidates =
          before ++ advisor.report shape (stats?.getD .zero) d :: after ∧
        (advisor.adviceOn shape (catalog.drop name).catalog stats?).candidates =
          before ++ after) := by
  refine ⟨CandidateReport.ranked_perm _,
    CandidateReport.pairwise_ranksBefore_ranked (nodup_names_reports advisor shape _ catalog),
    ⟨CandidateReport.not_ranksBefore_self, fun _ _ _ => RanksBefore.trans,
      fun _ _ => CandidateReport.ranksBefore_or_of_name_ne⟩, ?_, ?_, ?_⟩
  · intro other hperm
    have hsame := candidates_adviceOn_eq_of_perm advisor shape stats? hperm
    exact ⟨hsame, recommendation?_adviceOn_congr advisor shape hsame⟩
  · intro d hok
    have hadded : (catalog.add d).catalog.indexes = catalog.indexes ++ [d] :=
      (Catalog.add_succeeds_of_isOk hok).indexes
    refine exists_split_candidates_adviceOn advisor shape stats? ?_
    rw [hadded]
    exact List.perm_append_singleton d catalog.indexes
  · intro name hok
    obtain ⟨d, hd, hname, hdropped⟩ := Catalog.drop_succeeds_of_isOk hok
    have hperm : catalog.indexes.Perm (d :: (catalog.drop name).catalog.indexes) := by
      rw [hdropped.indexes]
      exact List.perm_cons_erase hd
    obtain ⟨before, after, hnew, hold⟩ :=
      exists_split_candidates_adviceOn advisor shape stats? hperm
    exact ⟨d, hd, hname, before, after, hold, hnew⟩

end Advisor

end IndexPlanner
