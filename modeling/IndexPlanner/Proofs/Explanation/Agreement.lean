import IndexPlanner.Proofs.Explanation.Lines
import Mathlib.Data.List.Nodup

/-!
# An explanation agrees with the match

An explanation never sees the query.  It takes a sort that no keys were used for, and that need not
be done in memory, for no sort at all, and it looks for full coverage at the first candidate only.
Both are right, the former because a sort with keys is either served by as many keys as it has or
left to be done, and the latter because an index that serves a query in full ranks before all that
do not.

* `IndexMatch.sort_cases`: which of the three words for the sort is shown.
* `CandidateExplanation.Agrees` says what is shown of a candidate in terms of the query and the keys
  of the index, and `agrees_report` that this is so.
* `lines_cases`: what a line of an explanation can be.
* `explanation_agrees` has all of it.
-/

namespace IndexPlanner

open Text (Opens)

/-! ## The words for a sort -/

namespace SortExplanation

/-- How many keys are shown to give the order. -/
def servedKeys : SortExplanation → Nat
  | served keys _ => keys
  | _ => 0

variable {s : SortExplanation} {n : Nat} {scan other : ScanDirection}

theorem opens_text_served : Opens "INDEX (" (served n scan).text := by
  rw [text, String.append_assoc, String.append_assoc, String.append_assoc]
  exact Text.opens_append _ _

theorem text_eq_nothing_iff : s.text = "NONE" ↔ s = nothing := by
  refine ⟨fun h => ?_, fun h => h ▸ rfl⟩
  cases s with
  | nothing => rfl
  | inMemory => exact absurd h (by decide)
  | served keys scan => exact absurd (h ▸ opens_text_served) (by decide)

theorem text_eq_inMemory_iff : s.text = "IN_MEMORY" ↔ s = inMemory := by
  refine ⟨fun h => ?_, fun h => h ▸ rfl⟩
  cases s with
  | nothing => exact absurd h (by decide)
  | inMemory => rfl
  | served keys scan => exact absurd (h ▸ opens_text_served) (by decide)

/-- Of two scans over as many keys the words tell which one it is. -/
theorem text_served_inj : (served n scan).text = (served n other).text ↔ scan = other := by
  refine ⟨fun h => ?_, fun h => h ▸ rfl⟩
  rw [text, text, String.append_left_inj, String.append_right_inj] at h
  cases scan <;> cases other <;> first | rfl | exact absurd h (by decide)

end SortExplanation

/-- The words for a filter tell which one it is. -/
theorem ResidualFilter.text_inj {f g : ResidualFilter} : f.text = g.text ↔ f = g := by
  refine ⟨fun h => ?_, fun h => h ▸ rfl⟩
  rw [text, text, String.append_left_inj] at h
  have hsuffix (f : ResidualFilter) :
      f.role.name.toList <:+ (f.field ++ " (" ++ f.role.name).toList := by
    rw [String.toList_append]
    exact List.suffix_append _ _
  -- no role ends with the word for another one
  have hroles : ∀ r s : Role, r.name.toList <:+ s.name.toList → r = s := by
    intro r s
    cases r <;> cases s <;> decide
  have hrole : f.role = g.role := by
    rcases List.suffix_or_suffix_of_suffix (h ▸ hsuffix f) (hsuffix g) with hfg | hgf
    · exact hroles _ _ hfg
    · exact (hroles _ _ hgf).symm
  rw [hrole, String.append_left_inj, String.append_left_inj] at h
  cases f
  cases g
  exact congr (congrArg ResidualFilter.mk h) hrole

namespace IndexMatch

variable (shape : QueryShape) (d : IndexDefinition)

/-- There is no sort, or it is served by as many keys as it has, or it is done in memory. -/
theorem sort_cases :
    shape.sort = [] ∧ SortExplanation.of (of shape d) = .nothing ∨
    (shape.sort ≠ [] ∧ (of shape d).sortServed = true ∧
      SortExplanation.of (of shape d) = .served shape.sort.length (of shape d).scan) ∨
    (shape.sort ≠ [] ∧ (of shape d).sortServed = false ∧
      SortExplanation.of (of shape d) = .inMemory) := by
  rw [SortExplanation.of]
  cases hserved : (of shape d).sortServed with
  | true =>
    rw [inMemorySort_eq_false_iff.2 hserved, sortConsumed_of_sortServed hserved,
      if_neg Bool.false_ne_true]
    by_cases hnil : shape.sort = []
    · rw [hnil]
      exact .inl ⟨rfl, rfl⟩
    · rw [if_neg (mt List.length_eq_zero_iff.1 hnil)]
      exact .inr (.inl ⟨hnil, rfl, rfl⟩)
  | false =>
    have hnil : shape.sort ≠ [] := by
      intro hnil
      rw [sortServed_of_sort_eq_nil hnil] at hserved
      exact absurd hserved (by decide)
    rw [sortServed_eq_not_inMemorySort, Bool.not_eq_false'] at hserved
    rw [if_pos hserved]
    exact .inr (.inr ⟨hnil, rfl, rfl⟩)

theorem text_sort_eq_none_iff :
    (SortExplanation.of (of shape d)).text = "NONE" ↔ shape.sort = [] := by
  rw [SortExplanation.text_eq_nothing_iff]
  rcases sort_cases shape d with ⟨hnil, hsort⟩ | ⟨hne, -, hsort⟩ | ⟨hne, -, hsort⟩
  · exact iff_of_true hsort hnil
  · rw [hsort]
    exact iff_of_false (by simp) hne
  · rw [hsort]
    exact iff_of_false (by simp) hne

theorem text_sort_eq_inMemory_iff : (SortExplanation.of (of shape d)).text = "IN_MEMORY" ↔
    shape.sort ≠ [] ∧ (of shape d).sortServed = false := by
  rw [SortExplanation.text_eq_inMemory_iff]
  rcases sort_cases shape d with ⟨hnil, hsort⟩ | ⟨-, hserved, hsort⟩ | ⟨hne, hserved, hsort⟩
  · rw [hsort]
    exact iff_of_false (by simp) fun h => h.1 hnil
  · rw [hsort, hserved]
    exact iff_of_false (by simp) (by simp)
  · exact iff_of_true hsort ⟨hne, hserved⟩

/-- As many keys as the sort has are shown with a direction iff the next keys give the sort in this
direction. -/
theorem text_sort_eq_served_iff (scan : ScanDirection) :
    (SortExplanation.of (of shape d)).text =
        (SortExplanation.served shape.sort.length scan).text ↔
      shape.sort ≠ [] ∧
        scan.Gives ((afterEquality shape d).take shape.sort.length) shape.sort := by
  rcases sort_cases shape d with ⟨hnil, hsort⟩ | ⟨hne, hserved, hsort⟩ | ⟨hne, hserved, hsort⟩
  · rw [hsort, eq_comm, SortExplanation.text, SortExplanation.text_eq_nothing_iff]
    exact iff_of_false (by simp) fun h => h.1 hnil
  · have hgives := gives_sortBlock hserved
    rw [sortBlock_of_sortServed hserved] at hgives
    rw [hsort, SortExplanation.text_served_inj, and_iff_right hne]
    exact ⟨fun h => h ▸ hgives, fun h => hgives.scan_eq h hne⟩
  · rw [hsort, eq_comm, SortExplanation.text, SortExplanation.text_eq_inMemory_iff]
    refine iff_of_false (by simp) fun h => ?_
    rw [(sortServed_iff hne).2 ⟨scan, h.2⟩] at hserved
    exact absurd hserved (by decide)

/-- Without the keys for equalities and for the sort, the next key is the one that bounds the scan,
and the others are of no use. -/
theorem rangeBlock_append_unusedSuffix :
    d.keys.drop ((of shape d).equalityConsumed + (of shape d).sortConsumed) =
      rangeBlock shape d ++ (of shape d).unusedSuffix := by
  rw [← List.drop_drop, drop_equalityConsumed]
  exact afterSort_eq_rangeBlock_append shape d

end IndexMatch

/-! ## What is shown of a candidate -/

namespace CandidateExplanation

/-- How many keys are shown to be used. -/
def usedKeys (m : CandidateExplanation) : Nat :=
  m.equalityConsumed + m.sort.servedKeys + m.boundedRange?.toList.length

/-- What is shown of an index agrees with its keys and with the query. -/
structure Agrees (m : CandidateExplanation) (shape : QueryShape) (d : IndexDefinition) : Prop where
  sort_none_iff : m.sort.text = "NONE" ↔ shape.sort = []
  /-- A sort is done in memory iff the keys after those for equalities give it in no direction. -/
  sort_inMemory_iff : m.sort.text = "IN_MEMORY" ↔ shape.sort ≠ [] ∧ ∀ scan : ScanDirection,
    ¬ scan.Gives ((d.keys.drop m.equalityConsumed).take shape.sort.length) shape.sort
  /-- It is served by as many keys as it has, in the direction in which they give it. -/
  sort_served_iff : ∀ scan : ScanDirection,
    m.sort.text = "INDEX (" ++ Decimal.text shape.sort.length ++ " keys, " ++ scan.name ++ ")" ↔
      shape.sort ≠ [] ∧
        scan.Gives ((d.keys.drop m.equalityConsumed).take shape.sort.length) shape.sort
  servedKeys_eq : m.sort.servedKeys = if m.sort.text = "IN_MEMORY" then 0 else shape.sort.length
  /-- Each equality is on a key that is used for it or an entry of its own, and each range bounds
  the scan or is an entry of its own. -/
  filters : ∃ equalities ranges : List String,
    m.residualFilters.map ResidualFilter.text =
      equalities.map (· ++ " (equality)") ++ ranges.map (· ++ " (range)") ∧
    Ascending equalities ∧ Ascending ranges ∧
    (fieldNames (d.keys.take m.equalityConsumed) ++ equalities).Perm shape.equality.toList ∧
    (m.boundedRange?.toList ++ ranges).Perm shape.range.fields
  /-- No filter is accounted for twice. -/
  nodup_filters : (fieldNames (d.keys.take m.equalityConsumed) ++ m.boundedRange?.toList ++
    m.residualFilters.map (·.field)).Nodup
  nodup_entries : (m.residualFilters.map ResidualFilter.text).Nodup
  /-- The range that bounds the scan is that of the next key after those for the sort. -/
  bounding : m.boundedRange?.toList = fieldNames
    ((d.keys.drop (m.equalityConsumed + m.sort.servedKeys)).take m.boundedRange?.toList.length)
  unusedSuffix_eq : m.unusedSuffix = (d.keys.drop m.usedKeys).map Key.text

end CandidateExplanation

namespace Advisor

variable (advisor : Advisor) (shape : QueryShape) (stats : CorpusStats) (d : IndexDefinition)

theorem toList_boundedRange?_of :
    (IndexMatch.of shape d).boundedRange?.toList = fieldNames (IndexMatch.rangeBlock shape d) := by
  rw [IndexMatch.boundedRange?, IndexMatch.coveredRange_of]
  rcases IndexMatch.rangeBlock_cases shape d with ⟨k, hk, -⟩ | ⟨hnil, -⟩
  · rw [hk]
    rfl
  · rw [hnil]
    rfl

theorem servedKeys_sort_of : (SortExplanation.of (IndexMatch.of shape d)).servedKeys =
    (IndexMatch.of shape d).sortConsumed := by
  rcases IndexMatch.sort_cases shape d with ⟨hnil, hsort⟩ | ⟨-, hserved, hsort⟩ |
    ⟨-, hserved, hsort⟩
  · have hserved : (IndexMatch.of shape d).sortServed = true :=
      IndexMatch.sortServed_of_sort_eq_nil hnil
    rw [hsort, IndexMatch.sortConsumed_of_sortServed hserved, hnil]
    rfl
  · rw [hsort, IndexMatch.sortConsumed_of_sortServed hserved]
    rfl
  · rw [hsort, IndexMatch.sortConsumed_of_not_sortServed hserved]
    rfl

/-- The entries for filters are the equalities that are left, and then the ranges. -/
theorem texts_residualFilters_of :
    (CandidateExplanation.of (advisor.report shape stats d)).residualFilters.map
        ResidualFilter.text =
      (IndexMatch.of shape d).residualEquality.map (· ++ " (equality)") ++
        (IndexMatch.of shape d).residualRange.map (· ++ " (range)") := by
  have htext (role : Role) (f : String) :
      (ResidualFilter.mk f role).text = f ++ (" (" ++ role.name ++ ")") := by
    rw [ResidualFilter.text, String.append_assoc, String.append_assoc, String.append_assoc]
  rw [CandidateExplanation.of, List.map_append, List.map_map, List.map_map]
  exact congr (congrArg _ (List.map_congr_left fun f _ => htext .equality f))
    (List.map_congr_left fun f _ => htext .range f)

theorem fields_residualFilters_of :
    (CandidateExplanation.of (advisor.report shape stats d)).residualFilters.map (·.field) =
      (IndexMatch.of shape d).residualEquality ++ (IndexMatch.of shape d).residualRange := by
  rw [CandidateExplanation.of, List.map_append, List.map_map, List.map_map]
  exact congr (congrArg _ (List.map_id _)) (List.map_id _)

/-- The fields of filters are on keys that are used or entries, and none is both. -/
theorem nodup_filters_of : (fieldNames (IndexMatch.equalityBlock shape d) ++
    fieldNames (IndexMatch.rangeBlock shape d) ++ ((IndexMatch.of shape d).residualEquality ++
      (IndexMatch.of shape d).residualRange)).Nodup := by
  have hfilters : (shape.equality.toList ++ shape.range.fields).Nodup := by
    refine List.Nodup.sublist ?_ shape.nodup
    rw [List.append_assoc]
    exact (List.sublist_append_right _ _).append_left _
  have hperm := (IndexMatch.perm_equality shape d).append (IndexMatch.perm_range shape d)
  refine (List.Perm.trans ?_ hperm).nodup_iff.2 hfilters
  rw [List.append_assoc, List.append_assoc]
  exact (List.perm_append_comm_assoc _ _ _).append_left _

theorem servedKeys_sort_eq_ite : (SortExplanation.of (IndexMatch.of shape d)).servedKeys =
    if (SortExplanation.of (IndexMatch.of shape d)).text = "IN_MEMORY" then 0
      else shape.sort.length := by
  rcases IndexMatch.sort_cases shape d with ⟨hnil, hsort⟩ | ⟨-, -, hsort⟩ | ⟨-, -, hsort⟩
  · rw [hsort, hnil]
    decide
  · have htext : (SortExplanation.served shape.sort.length (IndexMatch.of shape d).scan).text ≠
        "IN_MEMORY" := mt SortExplanation.text_eq_inMemory_iff.1 (by simp)
    rw [hsort, if_neg htext]
    rfl
  · rw [hsort]
    exact (if_pos rfl).symm

/-- What is shown of an index agrees with its keys and with the query. -/
theorem agrees_report :
    (CandidateExplanation.of (advisor.report shape stats d)).Agrees shape d := by
  have hfront : d.keys.take (IndexMatch.of shape d).equalityConsumed =
      IndexMatch.equalityBlock shape d := IndexMatch.take_equalityConsumed shape d
  have hback : d.keys.drop (IndexMatch.of shape d).equalityConsumed =
      IndexMatch.afterEquality shape d := IndexMatch.drop_equalityConsumed shape d
  have hrange := toList_boundedRange?_of shape d
  have hlength : (IndexMatch.of shape d).boundedRange?.toList.length =
      (IndexMatch.rangeBlock shape d).length := by
    rw [hrange, length_fieldNames]
  have hserved := servedKeys_sort_of shape d
  have hrest := IndexMatch.rangeBlock_append_unusedSuffix shape d
  have hfields := fields_residualFilters_of advisor shape stats d
  have hnodup := nodup_filters_of shape d
  refine
    { sort_none_iff := IndexMatch.text_sort_eq_none_iff shape d
      sort_inMemory_iff := ?_
      sort_served_iff := fun scan => ?_
      servedKeys_eq := servedKeys_sort_eq_ite shape d
      filters := ⟨_, _, texts_residualFilters_of advisor shape stats d,
        IndexMatch.ascending_residualEquality shape d,
        IndexMatch.ascending_residualRange shape d, ?_, ?_⟩
      nodup_filters := ?_
      nodup_entries := ?_
      bounding := ?_
      unusedSuffix_eq := ?_ }
  · refine (IndexMatch.text_sort_eq_inMemory_iff shape d).trans (and_congr_right fun hne => ?_)
    rw [← Bool.not_eq_true, IndexMatch.sortServed_iff hne, not_exists, ← hback]
    rfl
  · refine (IndexMatch.text_sort_eq_served_iff shape d scan).trans ?_
    rw [← hback]
    rfl
  · show (fieldNames (d.keys.take (IndexMatch.of shape d).equalityConsumed) ++ _).Perm _
    rw [hfront]
    exact IndexMatch.perm_equality shape d
  · show ((IndexMatch.of shape d).boundedRange?.toList ++ _).Perm _
    rw [hrange]
    exact IndexMatch.perm_range shape d
  · show (fieldNames (d.keys.take (IndexMatch.of shape d).equalityConsumed) ++
      (IndexMatch.of shape d).boundedRange?.toList ++ _).Nodup
    rw [hfront, hrange, hfields]
    exact hnodup
  · refine List.Nodup.map (fun f g h => ResidualFilter.text_inj.1 h) ?_
    refine List.Nodup.of_map (·.field) ?_
    rw [hfields]
    exact (List.nodup_append.1 hnodup).2.1
  · show (IndexMatch.of shape d).boundedRange?.toList = fieldNames
      ((d.keys.drop ((IndexMatch.of shape d).equalityConsumed +
        (SortExplanation.of (IndexMatch.of shape d)).servedKeys)).take
          (IndexMatch.of shape d).boundedRange?.toList.length)
    rw [hlength, hserved, hrest, List.take_left, hrange]
  · show (IndexMatch.of shape d).unusedSuffix.map Key.text =
      (d.keys.drop ((IndexMatch.of shape d).equalityConsumed +
        (SortExplanation.of (IndexMatch.of shape d)).servedKeys +
          (IndexMatch.of shape d).boundedRange?.toList.length)).map Key.text
    rw [hlength, hserved, ← List.drop_drop, hrest, List.drop_left]

end Advisor

/-! ## What is shown of all of the advice -/

/-- Of two beginnings of which none begins with the other a line has at most one. -/
theorem Text.not_opens_of_opens {words others line : String} (h : Opens words line)
    (hapart : ¬ (Opens words others ∨ Opens others words)) : ¬ Opens others line :=
  fun h' => hapart (h.opens_or_opens h')

/-- What holds of words holds of lines that begin with them, if it is about their beginning. -/
theorem forall_mem_of_forall₂_opens {P : String → Prop} {words ls : List String}
    (h : List.Forall₂ Opens words ls) (hP : ∀ w l, Opens w l → P w → P l)
    (hwords : ∀ w ∈ words, P w) : ∀ l ∈ ls, P l := by
  induction h with
  | nil => exact fun l hl => absurd hl List.not_mem_nil
  | cons hopens _ ih =>
    obtain ⟨hw, hws⟩ := List.forall_mem_cons.1 hwords
    exact List.forall_mem_cons.2 ⟨hP _ _ hopens hw, ih hws⟩

/-- The lines for a candidate begin with the mark of a rank or with blanks. -/
theorem CandidateReport.opens_of_mem_opening {rank : Nat} {c : CandidateReport} :
    ∀ w ∈ c.opening rank, Opens "#" w ∨ Opens "  " w := by
  have hrank : Opens "#" ("#" ++ Decimal.text rank ++ " Index: " ++ c.index.text) := by
    rw [String.append_assoc, String.append_assoc]
    exact Text.opens_append _ _
  have hcoverage :
      Opens "  " ("  Coverage: " ++ (if c.isFullyCovered then "FULL" else "PARTIAL")) :=
    Text.Opens.trans (by decide) (Text.opens_append _ _)
  have hfilter : Opens "  " "    - " := by decide
  simp only [opening, List.forall_mem_append, List.forall_mem_cons]
  refine ⟨⟨⟨⟨⟨⟨.inl hrank, .inr hcoverage, by decide⟩, ?_⟩, ?_⟩, by decide⟩, ?_⟩, ?_⟩
  · split
    · simp
    · exact List.forall_mem_cons.2
        ⟨by decide, fun w hw => .inr (List.eq_of_mem_replicate hw ▸ hfilter)⟩
  · split <;> decide
  · split <;> decide
  · split <;> decide

theorem CandidateExplanation.opens_of_mem_numberedLines {rank : Nat} {c : CandidateReport} :
    ∀ l ∈ numberedLines rank (of c), Opens "#" l ∨ Opens "  " l :=
  forall_mem_of_forall₂_opens (c.forall₂_opens_opening rank)
    (fun _ _ hopens => Or.imp (·.trans hopens) (·.trans hopens))
    CandidateReport.opens_of_mem_opening

namespace AdviceExplanation

variable {a : Advice} {l : String}

/-- The words that lines begin with which tell neither the status nor what is recommended. -/
def otherWords : List String :=
  ["=== INDEX ADVICE ===", "Catalog: ", "Statistics: unknown", "Candidates: none", "#", "  "]

/-- A line tells the status, or what is recommended, or it begins with other words. -/
theorem lines_cases (h : l ∈ (of a).lines) :
    l = "Status: " ++ (if a.hasFullCoverage then "COVERED" else "NOT COVERED") ∨
    (∃ d, a.recommendation? = some d ∧ l = "Recommended Index: " ++ d.text) ∨
    ∃ w ∈ otherWords, Opens w l := by
  simp only [lines_of, List.mem_append] at h
  rcases h with ((((hhead | hunknown) | hstatus) | hnone) | hblock) | hrecommendation
  · refine .inr (.inr ?_)
    rw [List.mem_cons, List.mem_singleton] at hhead
    rcases hhead with rfl | rfl
    · exact ⟨_, by decide, Text.opens_self "=== INDEX ADVICE ==="⟩
    · exact ⟨_, by decide, Text.opens_append "Catalog: " _⟩
  · split at hunknown
    · exact absurd hunknown List.not_mem_nil
    · rw [List.mem_singleton.1 hunknown]
      exact .inr (.inr ⟨"Statistics: unknown", by decide, by decide⟩)
  · exact .inl (List.mem_singleton.1 hstatus)
  · split at hnone
    · rw [List.mem_singleton.1 hnone]
      exact .inr (.inr ⟨_, by decide, Text.opens_self "Candidates: none"⟩)
    · exact absurd hnone List.not_mem_nil
  · obtain ⟨block, hmem, hl⟩ := List.mem_flatten.1 hblock
    obtain ⟨c, -, rfl⟩ := List.mem_map.1 hmem
    rcases CandidateExplanation.opens_of_mem_numberedLines l hl with hrank | hblank
    · exact .inr (.inr ⟨"#", by decide, hrank⟩)
    · exact .inr (.inr ⟨"  ", by decide, hblank⟩)
  · rw [Option.mem_toList, Option.map_eq_some_iff] at hrecommendation
    obtain ⟨d, hd, rfl⟩ := hrecommendation
    exact .inr (.inl ⟨d, hd, rfl⟩)

/-- The only line that begins as that of the status does is this line. -/
theorem opens_status_iff (h : l ∈ (of a).lines) : Opens "Status: " l ↔
    l = "Status: " ++ (if a.hasFullCoverage then "COVERED" else "NOT COVERED") := by
  have hapart : ∀ w ∈ otherWords, ¬ (Opens w "Status: " ∨ Opens "Status: " w) := by decide
  refine ⟨fun hopens => ?_, fun heq => heq ▸ Text.opens_append _ _⟩
  rcases lines_cases h with heq | ⟨d, -, rfl⟩ | ⟨w, hw, hother⟩
  · exact heq
  · exact absurd hopens (Text.not_opens_of_opens (Text.opens_append _ _) (by decide))
  · exact absurd hopens (Text.not_opens_of_opens hother (hapart w hw))

/-- The only line that begins as that of a recommendation does is this line. -/
theorem opens_recommended_iff (h : l ∈ (of a).lines) : Opens "Recommended Index: " l ↔
    ∃ d, a.recommendation? = some d ∧ l = "Recommended Index: " ++ d.text := by
  have hapart : ∀ w ∈ otherWords,
      ¬ (Opens w "Recommended Index: " ∨ Opens "Recommended Index: " w) := by decide
  refine ⟨fun hopens => ?_, fun ⟨d, _, heq⟩ => heq ▸ Text.opens_append _ _⟩
  rcases lines_cases h with rfl | hrecommended | ⟨w, hw, hother⟩
  · exact absurd hopens (Text.not_opens_of_opens (Text.opens_append _ _) (by decide))
  · exact hrecommended
  · exact absurd hopens (Text.not_opens_of_opens hother (hapart w hw))

/-- Which of the two statuses is shown. -/
theorem status_mem_lines_iff (a : Advice) (covered : Bool) :
    "Status: " ++ (if covered then "COVERED" else "NOT COVERED") ∈ (of a).lines ↔
      a.hasFullCoverage = covered := by
  constructor
  · intro h
    have heq := (opens_status_iff h).1 (Text.opens_append _ _)
    cases covered <;> cases hfull : a.hasFullCoverage <;> rw [hfull] at heq <;>
      first | rfl | exact absurd heq (by decide)
  · rintro rfl
    rw [lines_of]
    simp

theorem exists_recommended_iff (a : Advice) :
    (∃ l ∈ (of a).lines, Opens "Recommended Index: " l) ↔ a.recommendation?.isSome = true := by
  constructor
  · rintro ⟨l, hl, hopens⟩
    obtain ⟨d, hd, -⟩ := (opens_recommended_iff hl).1 hopens
    rw [hd]
    rfl
  · intro h
    obtain ⟨d, hd⟩ := Option.isSome_iff_exists.1 h
    refine ⟨"Recommended Index: " ++ d.text, ?_, Text.opens_append _ _⟩
    rw [lines_of, hd]
    exact List.mem_append_right _ List.mem_cons_self

end AdviceExplanation

/-- **An explanation agrees with the match and the advice it is about.**  What is shown of an index
for its sort, for the filters of the query and for its keys is what the query and the keys say.  The
status of advice about a catalog is that of a covered query iff some candidate serves the query in
full, and a line recommends an index iff none does and some field of the query has a role.  Lines
are here what is written as one, whatever names they show. -/
theorem Advisor.explanation_agrees (advisor : Advisor) (shape : QueryShape) :
    (∀ (stats : CorpusStats) (d : IndexDefinition),
      (CandidateExplanation.of (advisor.report shape stats d)).Agrees shape d) ∧
    ∀ (catalog : Catalog) (stats? : Option CorpusStats),
      ("Status: COVERED" ∈ (AdviceExplanation.of (advisor.adviceOn shape catalog stats?)).lines ↔
        ∃ c ∈ (advisor.adviceOn shape catalog stats?).candidates, c.isFullyCovered = true) ∧
      ("Status: NOT COVERED" ∈
          (AdviceExplanation.of (advisor.adviceOn shape catalog stats?)).lines ↔
        ∀ c ∈ (advisor.adviceOn shape catalog stats?).candidates, c.isFullyCovered = false) ∧
      ((∃ l ∈ (AdviceExplanation.of (advisor.adviceOn shape catalog stats?)).lines,
          Opens "Recommended Index: " l) ↔
        (∀ c ∈ (advisor.adviceOn shape catalog stats?).candidates, c.isFullyCovered = false) ∧
          shape.isEmpty = false) := by
  refine ⟨fun stats d => advisor.agrees_report shape stats d, fun catalog stats? => ?_⟩
  have hany := any_candidates_adviceOn advisor shape catalog stats?
  have hfull := hasFullCoverage_adviceOn advisor shape catalog stats?
  have hnone : catalog.covers shape = false ↔
      ∀ c ∈ (advisor.adviceOn shape catalog stats?).candidates, c.isFullyCovered = false := by
    rw [← hany, List.any_eq_false]
    simp only [Bool.not_eq_true]
  refine ⟨?_, ?_, ?_⟩
  · rw [← List.any_eq_true, hany, ← hfull]
    exact AdviceExplanation.status_mem_lines_iff _ true
  · rw [← hnone, ← hfull]
    exact AdviceExplanation.status_mem_lines_iff _ false
  · rw [AdviceExplanation.exists_recommended_iff, isSome_recommendation?_adviceOn, hnone]

end IndexPlanner
