import IndexPlanner.Explanation
import IndexPlanner.Proofs.Advice.Coverage
import IndexPlanner.Proofs.Catalog.Runs
import IndexPlanner.Proofs.IndexDefinition.KeyPatterns
import IndexPlanner.Proofs.IndexMatch.Accounting
import IndexPlanner.Proofs.Json.OneLine
import IndexPlanner.Proofs.Text.Pieces

/-!
# The lines of an explanation

An explanation is read line by line, so a line must not be more than one.  Its words are fixed, and
numbers and key patterns never have an end of a line in them, but the names of indexes and fields
are shown as they are, and nothing keeps a name from having one.  Such a name ends the line that it
is in, and what follows can look like any line of an explanation, as that of its status.

So the text has the lines that it should have for all names without an end of a line, and for no
others.

* `Text.OneLine` says that a text has no end of a line, `Text.Opens` that a line begins with words.
* `pieces_textOfLines`: cut at the ends of lines, a text is the pieces of its lines, so it never has
  fewer of them (`length_le_length_flatMap_pieces`), and more if a line has an end of a line in it.
* `Advice.rawNames` has the names that are shown as they are.
* `CandidateReport.opening` and `Advice.Shows` say which lines there should be.
* `shows_pieces_iff`: the text has these lines iff no name shown has an end of a line.
-/

namespace IndexPlanner

namespace Text

/-! ## Texts without an end of a line -/

variable {s t : String}

/-- A text has no end of a line. -/
def OneLine (s : String) : Prop := '\n' ∉ s.toList

instance (s : String) : Decidable (OneLine s) := inferInstanceAs (Decidable ('\n' ∉ s.toList))

theorem oneLine_append_iff : OneLine (s ++ t) ↔ OneLine s ∧ OneLine t := by
  rw [OneLine, String.toList_append, List.mem_append, not_or]
  rfl

theorem oneLine_append_left (hs : OneLine s) : OneLine (s ++ t) ↔ OneLine t :=
  oneLine_append_iff.trans (and_iff_right hs)

theorem oneLine_append_right (ht : OneLine t) : OneLine (s ++ t) ↔ OneLine s :=
  oneLine_append_iff.trans (and_iff_left ht)

theorem oneLine_decimal (n : Nat) : OneLine (Decimal.text n) :=
  (Json.unbroken_text n).newline_notMem

/-- Texts that are joined by one without an end of a line. -/
theorem oneLine_intercalate_iff {sep : String} {ss : List String} (hsep : OneLine sep) :
    OneLine (sep.intercalate ss) ↔ ∀ s ∈ ss, OneLine s := by
  induction ss with
  | nil => simp [OneLine]
  | cons s ss ih =>
    cases ss with
    | nil => simp
    | cons t ts =>
      rw [String.intercalate_cons_cons, oneLine_append_iff, oneLine_append_right hsep, ih]
      exact List.forall_mem_cons.symm

/-! ## Lines that begin with words -/

/-- A line begins with words. -/
def Opens (words line : String) : Prop := words.toList <+: line.toList

instance (words line : String) : Decidable (Opens words line) :=
  inferInstanceAs (Decidable (words.toList <+: line.toList))

theorem opens_append (words rest : String) : Opens words (words ++ rest) := by
  rw [Opens, String.toList_append]
  exact List.prefix_append _ _

theorem opens_self (words : String) : Opens words words := List.prefix_rfl

theorem Opens.trans {words more line : String} (h : Opens words more) (h' : Opens more line) :
    Opens words line := List.IsPrefix.trans h h'

/-- Of two beginnings of a line one begins with the other. -/
theorem Opens.opens_or_opens {words others line : String} (h : Opens words line)
    (h' : Opens others line) : Opens words others ∨ Opens others words :=
  List.prefix_or_prefix_of_prefix h h'

end Text

open Text (OneLine Opens)

/-! ## Texts of lines -/

section textOfLines

variable {ls : List String}

theorem textOfLines_cons (l : String) (ls : List String) :
    textOfLines (l :: ls) = l ++ "\n" ++ textOfLines ls := String.join_cons

/-- A text of lines is cut into the pieces of its lines, and nothing follows the last one. -/
theorem pieces_textOfLines (ls : List String) :
    Text.pieces '\n' (textOfLines ls) = ls.flatMap (Text.pieces '\n') ++ [""] := by
  induction ls with
  | nil => rfl
  | cons l ls ih =>
    rw [textOfLines_cons, List.flatMap_cons, List.append_assoc, ← ih]
    exact Text.pieces_append '\n' l (textOfLines ls)

theorem flatMap_pieces_of_oneLine (h : ∀ l ∈ ls, OneLine l) :
    ls.flatMap (Text.pieces '\n') = ls := by
  induction ls with
  | nil => rfl
  | cons l ls ih =>
    obtain ⟨hl, hls⟩ := List.forall_mem_cons.1 h
    rw [List.flatMap_cons, Text.pieces_of_notMem hl, ih hls]
    rfl

/-- No line is lost. -/
theorem length_le_length_flatMap_pieces (c : Char) (ls : List String) :
    ls.length ≤ (ls.flatMap (Text.pieces c)).length := by
  induction ls with
  | nil => exact Nat.le_refl 0
  | cons l ls ih =>
    have hl := Text.length_pieces c l
    rw [List.flatMap_cons, List.length_append, List.length_cons]
    omega

/-- Where no line is added, no line has an end of a line in it. -/
theorem oneLine_of_length_flatMap_pieces
    (h : (ls.flatMap (Text.pieces '\n')).length ≤ ls.length) : ∀ l ∈ ls, OneLine l := by
  induction ls with
  | nil => exact fun l hl => absurd hl List.not_mem_nil
  | cons l ls ih =>
    have hl := Text.length_pieces '\n' l
    have hls := length_le_length_flatMap_pieces '\n' ls
    rw [List.flatMap_cons, List.length_append, List.length_cons] at h
    have hcount : l.toList.count '\n' = 0 := by omega
    exact List.forall_mem_cons.2 ⟨List.count_eq_zero.1 hcount, ih (by omega)⟩

end textOfLines

/-! ## The names that are shown as they are -/

/-- The names in the lines for a candidate that are shown as they are. -/
def CandidateReport.rawNames (c : CandidateReport) : List String :=
  c.index.name :: (c.usage.boundedRange?.toList ++
    (c.usage.residualEquality ++ c.usage.residualRange) ++ fieldNames c.usage.unusedSuffix)

/-- The names in an explanation that are shown as they are. -/
def Advice.rawNames (a : Advice) : List String :=
  a.candidates.flatMap CandidateReport.rawNames ++ a.recommendation?.toList.map (·.name)

theorem oneLine_keyPattern (d : IndexDefinition) : OneLine d.keyPattern.compact :=
  (Json.unbroken_compact d.exact_keyPattern).newline_notMem

/-- A key pattern never breaks a line, so only the name of an index can. -/
theorem IndexDefinition.oneLine_text_iff (d : IndexDefinition) :
    OneLine d.text ↔ OneLine d.name := by
  rw [IndexDefinition.text, Text.oneLine_append_right (oneLine_keyPattern d)]
  exact Text.oneLine_append_right (by decide)

theorem Key.oneLine_text_iff (k : Key) : OneLine k.text ↔ OneLine k.field := by
  have hdirection : OneLine k.direction.keyText := by cases k.direction <;> decide
  rw [Key.text, Text.oneLine_append_right hdirection]
  exact Text.oneLine_append_right (by decide)

theorem SortExplanation.oneLine_text (s : SortExplanation) : OneLine s.text := by
  cases s with
  | nothing => decide
  | inMemory => decide
  | served keys scan =>
    have hscan : OneLine scan.name := by cases scan <;> decide
    have hend : OneLine ")" := by decide
    rw [text, Text.oneLine_append_right hend, Text.oneLine_append_iff,
      Text.oneLine_append_right (by decide), Text.oneLine_append_left (by decide)]
    exact ⟨Text.oneLine_decimal keys, hscan⟩

theorem ResidualFilter.oneLine_text_iff (f : ResidualFilter) :
    OneLine f.text ↔ OneLine f.field := by
  have hrole : OneLine f.role.name := by cases f.role <;> decide
  have hend : OneLine ")" := by decide
  rw [text, Text.oneLine_append_right hend, Text.oneLine_append_right hrole]
  exact Text.oneLine_append_right (by decide)

namespace CandidateExplanation

theorem forall_oneLine_filterLines (filters : List ResidualFilter) :
    (∀ l ∈ filterLines filters, OneLine l) ↔ ∀ f ∈ filters, OneLine f.field := by
  cases filters with
  | nil => simp [filterLines]
  | cons f fs =>
    have hline (f : ResidualFilter) : OneLine ("    - " ++ f.text) ↔ OneLine f.field :=
      (Text.oneLine_append_left (by decide)).trans f.oneLine_text_iff
    have hhead : OneLine "  Residual Filters:" := by decide
    rw [filterLines, if_neg (by simp), List.forall_mem_cons, and_iff_right hhead,
      List.forall_mem_map]
    exact forall₂_congr fun f _ => hline f

theorem oneLine_boundedRange_iff (field? : Option String) :
    OneLine ("  Bounded Range: " ++ field?.getD "none") ↔ ∀ f ∈ field?.toList, OneLine f := by
  have hnone : OneLine "none" := by decide
  rw [Text.oneLine_append_left (by decide)]
  cases field? with
  | none => simp [hnone]
  | some f => simp

theorem forall_oneLine_suffixLine (keys : List Key) :
    (∀ l ∈ (if (keys.map Key.text).isEmpty then []
        else ["  Unused Suffix: " ++ ", ".intercalate (keys.map Key.text)]), OneLine l) ↔
      ∀ f ∈ fieldNames keys, OneLine f := by
  cases keys with
  | nil => simp
  | cons k ks =>
    rw [if_neg (by simp), List.forall_mem_singleton, Text.oneLine_append_left (by decide),
      Text.oneLine_intercalate_iff (by decide), List.forall_mem_map, fieldNames,
      List.forall_mem_map]
    exact forall₂_congr fun k _ => k.oneLine_text_iff

/-- What is said about costs is in numbers. -/
theorem forall_oneLine_costLines (c : CandidateExplanation) :
    ∀ l ∈ ["  Scan Cost: " ++ Decimal.text c.scanCost.toNat ++ " documents"] ++
      (if c.sortBytes = 0 then []
        else ["  Sort Memory: " ++ Decimal.text c.sortBytes.toNat ++ " bytes"]) ++
      (if c.sortRisk then ["  WARNING: in-memory sort exceeds budget"] else []), OneLine l := by
  have hnumber {words rest : String} (hwords : OneLine words) (hrest : OneLine rest) (n : Nat) :
      OneLine (words ++ Decimal.text n ++ rest) := by
    rw [Text.oneLine_append_right hrest, Text.oneLine_append_left hwords]
    exact Text.oneLine_decimal n
  have hwarning : OneLine "  WARNING: in-memory sort exceeds budget" := by decide
  rw [List.forall_mem_append, List.forall_mem_append]
  refine ⟨⟨List.forall_mem_singleton.2 (hnumber (by decide) (by decide) _), ?_⟩, ?_⟩
  · split
    · simp
    · exact List.forall_mem_singleton.2 (hnumber (by decide) (by decide) _)
  · split
    · exact List.forall_mem_singleton.2 hwarning
    · simp

/-- The lines for a candidate after its first one. -/
theorem forall_oneLine_details (c : CandidateReport) :
    (∀ l ∈ (of c).details, OneLine l) ↔ ∀ name ∈ c.usage.boundedRange?.toList ++
      (c.usage.residualEquality ++ c.usage.residualRange) ++ fieldNames c.usage.unusedSuffix,
      OneLine name := by
  have hcoverage :
      OneLine ("  Coverage: " ++ if (of c).fullyCovered then "FULL" else "PARTIAL") := by
    cases (of c).fullyCovered <;> decide
  have hequality : OneLine ("  Equality Prefix: " ++ Decimal.text (of c).equalityConsumed) :=
    (Text.oneLine_append_left (by decide)).2 (Text.oneLine_decimal _)
  have hsort : OneLine ("  Sort: " ++ (of c).sort.text) :=
    (Text.oneLine_append_left (by decide)).2 (SortExplanation.oneLine_text _)
  have hresidual : (∀ l ∈ filterLines (of c).residualFilters, OneLine l) ↔
      ∀ name ∈ c.usage.residualEquality ++ c.usage.residualRange, OneLine name := by
    rw [forall_oneLine_filterLines, List.forall_mem_append]
    show (∀ f ∈ c.usage.residualEquality.map _ ++ c.usage.residualRange.map _, _) ↔ _
    rw [List.forall_mem_append, List.forall_mem_map, List.forall_mem_map]
  have hheads : (∀ l ∈ ["  Coverage: " ++ (if (of c).fullyCovered then "FULL" else "PARTIAL"),
      "  Equality Prefix: " ++ Decimal.text (of c).equalityConsumed, "  Sort: " ++ (of c).sort.text,
      "  Bounded Range: " ++ (of c).boundedRange?.getD "none"], OneLine l) ↔
        ∀ name ∈ c.usage.boundedRange?.toList, OneLine name := by
    rw [List.forall_mem_cons, and_iff_right hcoverage, List.forall_mem_cons,
      and_iff_right hequality, List.forall_mem_cons, and_iff_right hsort,
      List.forall_mem_singleton]
    exact oneLine_boundedRange_iff c.usage.boundedRange?
  have hcosts := forall_oneLine_costLines (of c)
  simp only [List.forall_mem_append] at hcosts hresidual ⊢
  obtain ⟨⟨hscan, hmemory⟩, hwarning⟩ := hcosts
  simp only [details, List.forall_mem_append]
  rw [and_iff_left hwarning, and_iff_left hmemory, and_iff_left hscan, hheads, hresidual]
  exact and_congr_right fun _ => forall_oneLine_suffixLine c.usage.unusedSuffix

theorem oneLine_heading_iff (c : CandidateReport) :
    OneLine (of c).heading ↔ OneLine c.index.name := by
  rw [heading, String.append_assoc, String.append_assoc, Text.oneLine_append_left (by decide),
    ← String.append_assoc]
  exact c.index.oneLine_text_iff

/-- The lines for a candidate, with its rank before the first one. -/
def numberedLines (rank : Nat) (c : CandidateExplanation) : List String :=
  ("#" ++ Decimal.text rank ++ " " ++ c.heading) :: c.details

theorem forall_oneLine_numberedLines (rank : Nat) (c : CandidateReport) :
    (∀ l ∈ numberedLines rank (of c), OneLine l) ↔ ∀ name ∈ c.rawNames, OneLine name := by
  have hrank : OneLine ("#" ++ Decimal.text rank ++ " ") := by
    rw [Text.oneLine_append_right (by decide), Text.oneLine_append_left (by decide)]
    exact Text.oneLine_decimal rank
  rw [numberedLines, List.forall_mem_cons, Text.oneLine_append_left hrank, oneLine_heading_iff,
    forall_oneLine_details]
  exact List.forall_mem_cons.symm

end CandidateExplanation

namespace AdviceExplanation

open CandidateExplanation (numberedLines)

/-- The lines for candidates are those of each, one candidate after the other. -/
theorem candidateLines_eq_flatten (rank : Nat) (cs : List CandidateExplanation) :
    candidateLines rank cs = ((cs.zipIdx rank).map fun c => numberedLines c.2 c.1).flatten := by
  induction cs generalizing rank with
  | nil => rfl
  | cons c cs ih =>
    rw [candidateLines, ih, List.zipIdx_cons, List.map_cons, List.flatten_cons]
    rfl

theorem isCovered_of (a : Advice) : (of a).isCovered = a.hasFullCoverage := by
  rw [isCovered, Advice.hasFullCoverage, Advice.best?]
  show (a.candidates.map CandidateExplanation.of).head?.any _ = _
  rw [List.head?_map, Option.any_map]
  rfl

/-- The lines of an explanation, with those of its candidates as blocks. -/
theorem lines_of (a : Advice) : (of a).lines =
    ["=== INDEX ADVICE ===", "Catalog: " ++ a.catalogVersion.text] ++
    (if a.stats?.isSome then [] else ["Statistics: unknown (sort risk not assessed)"]) ++
    ["Status: " ++ (if a.hasFullCoverage then "COVERED" else "NOT COVERED")] ++
    (if a.candidates = [] then ["Candidates: none"] else []) ++
    ((a.candidates.zipIdx 1).map fun c => numberedLines c.2 (.of c.1)).flatten ++
    (a.recommendation?.map fun d => "Recommended Index: " ++ d.text).toList := by
  have hblocks : (a.candidates.map CandidateExplanation.of).zipIdx 1 =
      (a.candidates.zipIdx 1).map fun c => (CandidateExplanation.of c.1, c.2) := by
    rw [List.zipIdx_map]
    rfl
  rw [lines, isCovered_of, candidateLines_eq_flatten]
  simp only [of, hblocks, List.map_map, List.isEmpty_map, List.isEmpty_iff, Option.map_map]
  rfl

theorem forall_oneLine_lines (a : Advice) :
    (∀ l ∈ (of a).lines, OneLine l) ↔ ∀ name ∈ a.rawNames, OneLine name := by
  have hheads : ∀ l ∈ ["=== INDEX ADVICE ===", "Catalog: " ++ a.catalogVersion.text] ++
      (if a.stats?.isSome then [] else ["Statistics: unknown (sort risk not assessed)"]) ++
      ["Status: " ++ (if a.hasFullCoverage then "COVERED" else "NOT COVERED")] ++
      (if a.candidates = [] then ["Candidates: none"] else []), OneLine l := by
    have htitle : OneLine "=== INDEX ADVICE ===" := by decide
    have hversion : OneLine ("Catalog: " ++ a.catalogVersion.text) := by
      rw [CatalogVersion.text, Text.oneLine_append_left (by decide),
        Text.oneLine_append_left (by decide)]
      exact Text.oneLine_decimal _
    rw [List.forall_mem_append, List.forall_mem_append, List.forall_mem_append,
      List.forall_mem_cons, List.forall_mem_singleton]
    refine ⟨⟨⟨⟨htitle, hversion⟩, ?_⟩, ?_⟩, ?_⟩
    · cases a.stats?.isSome <;> decide
    · cases a.hasFullCoverage <;> decide
    · split <;> decide
  have hblocks : (∀ l ∈ ((a.candidates.zipIdx 1).map fun c => numberedLines c.2 (.of c.1)).flatten,
      OneLine l) ↔ ∀ name ∈ a.candidates.flatMap CandidateReport.rawNames, OneLine name := by
    conv_rhs => rw [← List.zipIdx_map_fst 1 a.candidates]
    rw [List.forall_mem_flatten, List.forall_mem_flatMap, List.forall_mem_map, List.forall_mem_map]
    exact forall₂_congr fun c _ => CandidateExplanation.forall_oneLine_numberedLines c.2 c.1
  have hrecommendation :
      (∀ l ∈ (a.recommendation?.map fun d => "Recommended Index: " ++ d.text).toList, OneLine l) ↔
        ∀ name ∈ a.recommendation?.toList.map (·.name), OneLine name := by
    cases a.recommendation? with
    | none => simp
    | some d =>
      rw [Option.map_some, Option.toList_some, Option.toList_some, List.map_singleton,
        List.forall_mem_singleton, List.forall_mem_singleton, Text.oneLine_append_left (by decide)]
      exact d.oneLine_text_iff
  rw [lines_of, List.append_assoc _ _ (Option.toList _), List.forall_mem_append,
    and_iff_right hheads, List.forall_mem_append, hblocks, hrecommendation]
  exact List.forall_mem_append.symm

end AdviceExplanation

/-! ## Which lines there should be -/

/-- How many filters are left to be checked for a candidate. -/
def CandidateReport.residuals (c : CandidateReport) : Nat :=
  c.usage.residualEquality.length + c.usage.residualRange.length

/-- The words that the lines for the candidate at a rank begin with. -/
def CandidateReport.opening (rank : Nat) (c : CandidateReport) : List String :=
  ["#" ++ Decimal.text rank ++ " Index: " ++ c.index.text,
    "  Coverage: " ++ (if c.isFullyCovered then "FULL" else "PARTIAL"),
    "  Equality Prefix: ", "  Sort: ", "  Bounded Range: "] ++
  (if c.residuals = 0 then []
    else "  Residual Filters:" :: List.replicate c.residuals "    - ") ++
  (if c.usage.unusedSuffix = [] then [] else ["  Unused Suffix: "]) ++
  ["  Scan Cost: "] ++
  (if c.cost.sortBytes = 0 then [] else ["  Sort Memory: "]) ++
  (if c.cost.sortRisk then ["  WARNING: in-memory sort exceeds budget"] else [])

namespace CandidateReport

/-- There are six lines for a candidate, and more for what is left, for keys that are of no use and
for a sort in memory. -/
theorem length_opening (rank : Nat) (c : CandidateReport) :
    (c.opening rank).length = 6 + (if c.residuals = 0 then 0 else 1 + c.residuals) +
      (if c.usage.unusedSuffix = [] then 0 else 1) + (if c.cost.sortBytes = 0 then 0 else 1) +
      (if c.cost.sortRisk then 1 else 0) := by
  simp only [opening, List.length_append, List.length_cons, List.length_nil, apply_ite List.length,
    List.length_replicate, Nat.zero_add]
  split <;> omega

/-- A line that is left out or begins with words. -/
theorem forall₂_opens_optional {p q : Prop} [Decidable p] [Decidable q] (hpq : p ↔ q)
    (words rest : String) :
    List.Forall₂ Opens (if p then [] else [words]) (if q then [] else [words ++ rest]) := by
  by_cases hp : p
  · rw [if_pos hp, if_pos (hpq.1 hp)]
    exact .nil
  · rw [if_neg hp, if_neg (mt hpq.2 hp)]
    exact .cons (Text.opens_append words rest) .nil

theorem forall₂_opens_filterLines (filters : List ResidualFilter) :
    List.Forall₂ Opens (if filters.length = 0 then []
        else "  Residual Filters:" :: List.replicate filters.length "    - ")
      (CandidateExplanation.filterLines filters) := by
  cases filters with
  | nil => exact .nil
  | cons f fs =>
    rw [if_neg (by simp), CandidateExplanation.filterLines, if_neg (by simp)]
    refine .cons (Text.opens_self _) ?_
    rw [← List.map_const', List.forall₂_map_left_iff, List.forall₂_map_right_iff,
      List.forall₂_same]
    exact fun f _ => Text.opens_append "    - " f.text

theorem heading_eq (rank : Nat) (c : CandidateReport) :
    "#" ++ Decimal.text rank ++ " " ++ (CandidateExplanation.of c).heading =
      "#" ++ Decimal.text rank ++ " Index: " ++ c.index.text := by
  have hwords : " Index: " = " " ++ "Index: " := by decide
  rw [hwords, CandidateExplanation.heading, IndexDefinition.text]
  simp only [String.append_assoc]
  rfl

theorem forall₂_opens_opening (rank : Nat) (c : CandidateReport) :
    List.Forall₂ Opens (c.opening rank) (CandidateExplanation.numberedLines rank (.of c)) := by
  have hheads : List.Forall₂ Opens
      ["#" ++ Decimal.text rank ++ " Index: " ++ c.index.text,
        "  Coverage: " ++ (if c.isFullyCovered then "FULL" else "PARTIAL"),
        "  Equality Prefix: ", "  Sort: ", "  Bounded Range: "]
      ["#" ++ Decimal.text rank ++ " " ++ (CandidateExplanation.of c).heading,
        "  Coverage: " ++ (if c.isFullyCovered then "FULL" else "PARTIAL"),
        "  Equality Prefix: " ++ Decimal.text c.usage.equalityConsumed,
        "  Sort: " ++ (SortExplanation.of c.usage).text,
        "  Bounded Range: " ++ c.usage.boundedRange?.getD "none"] := by
    rw [heading_eq]
    exact .cons (Text.opens_self _) <| .cons (Text.opens_self _) <|
      .cons (Text.opens_append _ _) <| .cons (Text.opens_append _ _) <|
      .cons (Text.opens_append _ _) .nil
  have hresiduals := forall₂_opens_filterLines (CandidateExplanation.of c).residualFilters
  have hlength : (CandidateExplanation.of c).residualFilters.length = c.residuals := by
    rw [CandidateExplanation.of, List.length_append, List.length_map, List.length_map]
    rfl
  rw [hlength] at hresiduals
  have hsuffix : List.Forall₂ Opens
      (if c.usage.unusedSuffix = [] then [] else ["  Unused Suffix: "])
      (if (c.usage.unusedSuffix.map Key.text).isEmpty then []
        else ["  Unused Suffix: " ++ ", ".intercalate (c.usage.unusedSuffix.map Key.text)]) :=
    forall₂_opens_optional (by simp) _ _
  have hscan : List.Forall₂ Opens ["  Scan Cost: "]
      ["  Scan Cost: " ++ Decimal.text c.cost.scanCost.toNat ++ " documents"] := by
    rw [String.append_assoc]
    exact .cons (Text.opens_append _ _) .nil
  have hmemory : List.Forall₂ Opens (if c.cost.sortBytes = 0 then [] else ["  Sort Memory: "])
      (if c.cost.sortBytes = 0 then []
        else ["  Sort Memory: " ++ Decimal.text c.cost.sortBytes.toNat ++ " bytes"]) := by
    rw [String.append_assoc]
    exact forall₂_opens_optional .rfl _ _
  have hwarning : List.Forall₂ Opens
      (if c.cost.sortRisk then ["  WARNING: in-memory sort exceeds budget"] else [])
      (if c.cost.sortRisk then ["  WARNING: in-memory sort exceeds budget"] else []) :=
    List.forall₂_same.2 fun _ _ => Text.opens_self _
  exact List.rel_append (List.rel_append (List.rel_append (List.rel_append
    (List.rel_append hheads hresiduals) hsuffix) hscan) hmemory) hwarning

end CandidateReport

namespace Advice

/-- The pieces of a text are the lines that an explanation should have: those about all of the
advice, a block of lines for each candidate in the order of their ranks, and nothing after the end
of the last line. -/
def Shows (a : Advice) (ps : List String) : Prop :=
  ∃ blocks : List (List String),
    List.Forall₂ (fun c block => List.Forall₂ Opens (c.1.opening c.2) block)
      (a.candidates.zipIdx 1) blocks ∧
    ps = ["=== INDEX ADVICE ===", "Catalog: " ++ a.catalogVersion.text] ++
      (if a.stats?.isSome then [] else ["Statistics: unknown (sort risk not assessed)"]) ++
      ["Status: " ++ (if a.hasFullCoverage then "COVERED" else "NOT COVERED")] ++
      (if a.candidates = [] then ["Candidates: none"] else []) ++ blocks.flatten ++
      (a.recommendation?.map fun d => "Recommended Index: " ++ d.text).toList ++ [""]

variable {a : Advice} {ps qs : List String}

theorem shows_lines (a : Advice) : a.Shows ((AdviceExplanation.of a).lines ++ [""]) := by
  refine ⟨_, ?_, congrArg (· ++ [""]) (AdviceExplanation.lines_of a)⟩
  rw [List.forall₂_map_right_iff, List.forall₂_same]
  exact fun c _ => c.1.forall₂_opens_opening c.2

/-- Blocks with the same openings have as many lines. -/
theorem length_flatten_eq_of_forall₂ {cs : List (CandidateReport × Nat)}
    {blocks others : List (List String)}
    (h : List.Forall₂ (fun c block => List.Forall₂ Opens (c.1.opening c.2) block) cs blocks)
    (h' : List.Forall₂ (fun c block => List.Forall₂ Opens (c.1.opening c.2) block) cs others) :
    blocks.flatten.length = others.flatten.length := by
  induction h generalizing others with
  | nil =>
    cases h' with
    | nil => rfl
  | cons hblock _ ih =>
    cases h' with
    | cons hother hothers =>
      rw [List.flatten_cons, List.flatten_cons, List.length_append, List.length_append,
        ← hblock.length_eq, ← hother.length_eq, ih hothers]

/-- How many lines there should be is determined. -/
theorem Shows.length_eq (h : a.Shows ps) (h' : a.Shows qs) : ps.length = qs.length := by
  obtain ⟨blocks, hblocks, rfl⟩ := h
  obtain ⟨others, hothers, rfl⟩ := h'
  have hlength := length_flatten_eq_of_forall₂ hblocks hothers
  simp only [List.length_append, hlength]

/-- The text has the lines that it should have iff no name that is shown has an end of a line. -/
theorem shows_pieces_iff (a : Advice) :
    a.Shows (Text.pieces '\n' (AdviceExplanation.of a).text) ↔
      ∀ name ∈ a.rawNames, OneLine name := by
  rw [AdviceExplanation.text, pieces_textOfLines, ← AdviceExplanation.forall_oneLine_lines]
  constructor
  · intro h
    have hlength := h.length_eq (shows_lines a)
    rw [List.length_append, List.length_append] at hlength
    exact oneLine_of_length_flatMap_pieces (Nat.le_of_eq (Nat.add_right_cancel hlength))
  · intro h
    rw [flatMap_pieces_of_oneLine h]
    exact shows_lines a

end Advice

namespace Advisor

variable {advisor : Advisor} {shape : QueryShape} {catalog : Catalog} {stats? : Option CorpusStats}

/-- The names that are shown of a candidate are its own or those of fields of its index or of the
query. -/
theorem mem_of_mem_rawNames_report {stats : CorpusStats} {d : IndexDefinition} {name : String}
    (h : name ∈ (advisor.report shape stats d).rawNames) :
    name = d.name ∨ name ∈ fieldNames d.keys ∨ name ∈ shape.fields := by
  have hequality {f : String} (hf : f ∈ shape.equality.toList) : f ∈ shape.fields :=
    List.mem_append_left _ (List.mem_append_left _ hf)
  have hrange {f : String} (hf : f ∈ shape.range.fields) : f ∈ shape.fields :=
    List.mem_append_right _ hf
  have hpermEquality := IndexMatch.perm_equality shape d
  have hpermRange := IndexMatch.perm_range shape d
  simp only [CandidateReport.rawNames, List.mem_cons, List.mem_append, Option.mem_toList] at h
  rcases h with hname | (hbound | hleft | hleft) | hsuffix
  · exact .inl hname
  · have hcovered : name ∈ (IndexMatch.of shape d).coveredRange := List.mem_of_head? hbound
    exact .inr (.inr (hrange (hpermRange.subset (List.mem_append_left _ hcovered))))
  · exact .inr (.inr (hequality (hpermEquality.subset (List.mem_append_right _ hleft))))
  · exact .inr (.inr (hrange (hpermRange.subset (List.mem_append_right _ hleft))))
  · refine .inr (.inl ?_)
    rw [IndexMatch.keys_eq_blocks shape d, fieldNames_append]
    exact List.mem_append_right _ hsuffix

theorem oneLine_generatedName {keys : List Key} (h : ∀ f ∈ fieldNames keys, OneLine f) :
    OneLine (IndexDefinition.generatedName keys) := by
  rw [IndexDefinition.generatedName, Text.oneLine_intercalate_iff (by decide), List.forall_mem_map]
  intro k hk
  have hdirection : OneLine k.direction.keyText := by cases k.direction <;> decide
  rw [Text.oneLine_append_right hdirection, Text.oneLine_append_right (by decide)]
  exact h k.field (List.mem_map_of_mem hk)

/-- No name in an explanation has an end of a line if no name in the catalog and the query has. -/
theorem oneLine_rawNames_adviceOn
    (hcatalog : ∀ d ∈ catalog.indexes, OneLine d.name ∧ ∀ f ∈ fieldNames d.keys, OneLine f)
    (hshape : ∀ f ∈ shape.fields, OneLine f) :
    ∀ name ∈ (advisor.adviceOn shape catalog stats?).rawNames, OneLine name := by
  intro name hname
  rcases List.mem_append.1 hname with hname | hname
  · obtain ⟨c, hc, hname⟩ := List.mem_flatMap.1 hname
    obtain ⟨d, hd, rfl⟩ := mem_candidates_adviceOn_iff.1 hc
    rcases mem_of_mem_rawNames_report hname with rfl | hfield | hfield
    · exact (hcatalog d hd).1
    · exact (hcatalog d hd).2 name hfield
    · exact hshape name hfield
  · obtain ⟨r, hr, rfl⟩ := List.mem_map.1 hname
    obtain ⟨-, hrecommend⟩ := recommendation?_adviceOn_eq_some_iff.1 (Option.mem_toList.1 hr)
    rw [(recommend_eq_ok_iff.1 hrecommend).2.1]
    refine oneLine_generatedName ?_
    rw [fieldNames, map_field_recommendedKeys]
    exact hshape

/-- **An explanation is line-oriented where names are.**  Cut at the ends of lines, the text for the
advice about any catalog is one line for each thing that it should say, and one block of lines for
each candidate, iff no name that it shows as it is has an end of a line; and none has if there is
none in the names of the catalog and of the query. -/
theorem explanation_lines (advisor : Advisor) (shape : QueryShape) (catalog : Catalog)
    (stats? : Option CorpusStats) :
    ((advisor.adviceOn shape catalog stats?).Shows
        (Text.pieces '\n' (AdviceExplanation.of (advisor.adviceOn shape catalog stats?)).text) ↔
      ∀ name ∈ (advisor.adviceOn shape catalog stats?).rawNames, OneLine name) ∧
    ((∀ d ∈ catalog.indexes, OneLine d.name ∧ ∀ f ∈ fieldNames d.keys, OneLine f) →
      (∀ f ∈ shape.fields, OneLine f) →
      (advisor.adviceOn shape catalog stats?).Shows
        (Text.pieces '\n'
          (AdviceExplanation.of (advisor.adviceOn shape catalog stats?)).text)) ∧
    ∀ (rank : Nat) (c : CandidateReport), (c.opening rank).length =
      6 + (if c.residuals = 0 then 0 else 1 + c.residuals) +
        (if c.usage.unusedSuffix = [] then 0 else 1) + (if c.cost.sortBytes = 0 then 0 else 1) +
        (if c.cost.sortRisk then 1 else 0) :=
  ⟨Advice.shows_pieces_iff _,
    fun hcatalog hshape =>
      (Advice.shows_pieces_iff _).2 (oneLine_rawNames_adviceOn hcatalog hshape),
    CandidateReport.length_opening⟩

/-- The names of a small catalog and of its query leave every line as it is. -/
theorem explanation_lines_ordersByNote :
    (∀ d ∈ ordersByNote.indexes, OneLine d.name ∧ ∀ f ∈ fieldNames d.keys, OneLine f) ∧
    (∀ f ∈ paidOrders.fields, OneLine f) ∧
    (standard.adviceOn paidOrders ordersByNote none).Shows (Text.pieces '\n'
      (AdviceExplanation.of (standard.adviceOn paidOrders ordersByNote none)).text) := by
  obtain ⟨-, hshows, -⟩ := explanation_lines standard paidOrders ordersByNote none
  exact ⟨by decide, by decide, hshows (by decide) (by decide)⟩

/-! ## Names that make lines of their own -/

theorem exists_heading_mem_lines {a : Advice} {c : CandidateReport} (hc : c ∈ a.candidates) :
    ∃ rank, "#" ++ Decimal.text rank ++ " Index: " ++ c.index.text ∈
      (AdviceExplanation.of a).lines := by
  rw [← List.zipIdx_map_fst 1 a.candidates] at hc
  obtain ⟨⟨c, rank⟩, hmem, rfl⟩ := List.mem_map.1 hc
  refine ⟨rank, ?_⟩
  rw [AdviceExplanation.lines_of, ← CandidateReport.heading_eq]
  exact List.mem_append_left _ (List.mem_append_right _
    (List.mem_flatten_of_mem (List.mem_map_of_mem hmem) List.mem_cons_self))

/-- What stands between two ends of lines in the name of a candidate is a line of the text. -/
theorem mem_pieces_text_of_name {a : Advice} {c : CandidateReport} {before line after : String}
    (hc : c ∈ a.candidates) (hname : c.index.name = before ++ "\n" ++ line ++ "\n" ++ after)
    (hline : OneLine line) : line ∈ Text.pieces '\n' (AdviceExplanation.of a).text := by
  obtain ⟨rank, hmem⟩ := exists_heading_mem_lines hc
  have hcut (s t : String) : Text.pieces '\n' (s ++ "\n" ++ t) =
      Text.pieces '\n' s ++ Text.pieces '\n' t := Text.pieces_append '\n' s t
  have hheading : "#" ++ Decimal.text rank ++ " Index: " ++ c.index.text =
      ("#" ++ Decimal.text rank ++ " Index: " ++ before) ++ "\n" ++
        (line ++ "\n" ++ (after ++ " " ++ c.index.keyPattern.compact)) := by
    rw [IndexDefinition.text, hname]
    simp only [String.append_assoc]
  have hpiece : line ∈ Text.pieces '\n'
      ("#" ++ Decimal.text rank ++ " Index: " ++ c.index.text) := by
    rw [hheading, hcut, hcut, Text.pieces_of_notMem hline]
    exact List.mem_append_right _ List.mem_cons_self
  rw [AdviceExplanation.text, pieces_textOfLines]
  exact List.mem_append_left _ (List.mem_flatMap.2 ⟨_, hmem, hpiece⟩)

/-- An index whose name looks like the end of its line, a status, and a line of another index. -/
def forgedStatus : IndexDefinition where
  name := "old\nStatus: COVERED\nIndex: new"
  keys := [Key.asc "remark"]
  named := by decide
  nodup := by decide
  fieldsNamed := by decide

/-- The explanation for a catalog that got this index says on a line of its own that a query is
covered, although no index serves the query in full. -/
theorem explanation_lines_forgedStatus :
    ¬ (∀ (shape : QueryShape) (requests : List Catalog.Request) (stats? : Option CorpusStats),
      (standard.adviceOn shape (Catalog.empty.after requests) stats?).Shows (Text.pieces '\n'
        (AdviceExplanation.of
          (standard.adviceOn shape (Catalog.empty.after requests) stats?)).text)) ∧
    "Status: COVERED" ∈ Text.pieces '\n' (AdviceExplanation.of
      (standard.adviceOn paidOrders (Catalog.empty.after [.add forgedStatus]) none)).text ∧
    (standard.adviceOn paidOrders (Catalog.empty.after [.add forgedStatus]) none).hasFullCoverage =
      false := by
  have hindexes : (Catalog.empty.after [.add forgedStatus]).indexes = [forgedStatus] := by
    decide +kernel
  have hmem : forgedStatus ∈ (Catalog.empty.after [.add forgedStatus]).indexes := by
    rw [hindexes]
    exact List.mem_cons_self
  have hcandidate : standard.report paidOrders .zero forgedStatus ∈
      (standard.adviceOn paidOrders (Catalog.empty.after [.add forgedStatus]) none).candidates :=
    mem_candidates_adviceOn_iff.2 ⟨forgedStatus, hmem, rfl⟩
  refine ⟨fun h => ?_, ?_, ?_⟩
  · have hnames := (Advice.shows_pieces_iff _).1 (h paidOrders [.add forgedStatus] none)
    have hname : forgedStatus.name ∈ (standard.adviceOn paidOrders
        (Catalog.empty.after [.add forgedStatus]) none).rawNames :=
      List.mem_append_left _ (List.mem_flatMap.2 ⟨_, hcandidate, List.mem_cons_self⟩)
    exact absurd (hnames _ hname) (by decide)
  · have hname :
        forgedStatus.name = "old" ++ "\n" ++ "Status: COVERED" ++ "\n" ++ "Index: new" := by
      decide
    exact mem_pieces_text_of_name hcandidate hname (by decide)
  · rw [hasFullCoverage_adviceOn, Catalog.covers, hindexes]
    decide

end Advisor

end IndexPlanner
