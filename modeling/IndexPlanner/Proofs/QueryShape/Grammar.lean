import IndexPlanner.Proofs.Json.Distinct
import IndexPlanner.Proofs.QueryShape.Meaning
import IndexPlanner.QueryShape.Document

/-!
# The grammar of query documents

The two documents of a query are read in three steps, and each of them may refuse something:
the filter is cut into predicates, the sort into keys, and the query that these make up is
normalized.  This file says in terms of the documents themselves which ones are read and what
is read from them.

* `Condition.WrittenAs` is the table of the operators, and `FitsOperator` says which operands
  they take.
* `Json.Asks`: the conditions that the value of a filter's member stands for.  They are what
  `predicatesOfOperators`, `predicatesOfValue`, `predicatesOfMembers` and `predicatesOfFilter`
  read, each from its part of the filter.
* `Json.Pins` tells the members that pin their field from those that restrict it.
* `Grammatical` is the grammar, and `QueryShape.ReadsDocuments` the shape that two documents
  have in it.
* `ofDocuments_grammar`: exactly the documents of the grammar are read, and as their shape.
-/

namespace IndexPlanner

/-! ## Operators -/

/-- The operators of filters. -/
def operatorNames : List String :=
  ["$eq", "$gt", "$gte", "$lt", "$lte", "$ne", "$in", "$nin", "$exists"]

/-- An operator of filters with an operand that it takes. -/
structure FitsOperator (operator : String) (operand : Json) : Prop where
  known : operator ∈ operatorNames
  array : operator = "$in" ∨ operator = "$nin" → ∃ values, operand = .array values
  bool : operator = "$exists" → ∃ yes, operand = .bool yes

/-- How a condition is written: the operator and its operand. -/
inductive Condition.WrittenAs : Condition → String → Json → Prop where
  | eq (v : Json) : WrittenAs (.eq v) "$eq" v
  | gt (v : Json) : WrittenAs (.gt v) "$gt" v
  | gte (v : Json) : WrittenAs (.gte v) "$gte" v
  | lt (v : Json) : WrittenAs (.lt v) "$lt" v
  | lte (v : Json) : WrittenAs (.lte v) "$lte" v
  | ne (v : Json) : WrittenAs (.ne v) "$ne" v
  | oneOf (vs : List Json) : WrittenAs (.oneOf vs) "$in" (.array vs)
  | noneOf (vs : List Json) : WrittenAs (.noneOf vs) "$nin" (.array vs)
  | present (yes : Bool) : WrittenAs (.present yes) "$exists" (.bool yes)

variable {c : Condition} {field operator : String} {operand : Json}

theorem conditionOfOperator_eq_ok_iff :
    conditionOfOperator field operator operand = .ok c ↔ c.WrittenAs operator operand := by
  constructor
  · intro h
    unfold conditionOfOperator at h
    split at h
    · exact Except.ok.inj h ▸ .eq operand
    · exact Except.ok.inj h ▸ .gt operand
    · exact Except.ok.inj h ▸ .gte operand
    · exact Except.ok.inj h ▸ .lt operand
    · exact Except.ok.inj h ▸ .lte operand
    · exact Except.ok.inj h ▸ .ne operand
    · split at h
      · exact Except.ok.inj h ▸ .oneOf _
      · simp at h
    · split at h
      · exact Except.ok.inj h ▸ .noneOf _
      · simp at h
    · split at h
      · exact Except.ok.inj h ▸ .present _
      · simp at h
    · simp at h
  · intro h
    cases h <;> rfl

/-- The operators and operands that fit are those that some condition is written with. -/
theorem exists_writtenAs_iff :
    (∃ c : Condition, c.WrittenAs operator operand) ↔ FitsOperator operator operand := by
  constructor
  · rintro ⟨c, h⟩
    cases h <;> exact ⟨by decide, by simp, by simp⟩
  · rintro ⟨hknown, harray, hbool⟩
    simp only [operatorNames, List.mem_cons, List.not_mem_nil, or_false] at hknown
    rcases hknown with rfl | rfl | rfl | rfl | rfl | rfl | rfl | rfl | rfl
    · exact ⟨_, .eq operand⟩
    · exact ⟨_, .gt operand⟩
    · exact ⟨_, .gte operand⟩
    · exact ⟨_, .lt operand⟩
    · exact ⟨_, .lte operand⟩
    · exact ⟨_, .ne operand⟩
    · obtain ⟨values, rfl⟩ := harray (.inl rfl)
      exact ⟨_, .oneOf values⟩
    · obtain ⟨values, rfl⟩ := harray (.inr rfl)
      exact ⟨_, .noneOf values⟩
    · obtain ⟨yes, rfl⟩ := hbool rfl
      exact ⟨_, .present yes⟩

namespace Condition.WrittenAs

/-- What is written stands for one condition. -/
theorem unique {c' : Condition} (h : c.WrittenAs operator operand)
    (h' : c'.WrittenAs operator operand) : c = c' := by
  have hc : conditionOfOperator "" operator operand = .ok c := conditionOfOperator_eq_ok_iff.2 h
  rw [conditionOfOperator_eq_ok_iff.2 h'] at hc
  exact (Except.ok.inj hc).symm

variable (h : c.WrittenAs operator operand)
include h

theorem isOperatorName : isOperatorName operator = true := by
  cases h <;> rfl

theorem isEquality_iff : c.isEquality = true ↔ operator = "$eq" := by
  cases h <;> simp [Condition.isEquality]

theorem gt_iff : (∃ v, c = .gt v) ↔ operator = "$gt" := by
  cases h <;> simp

theorem gte_iff : (∃ v, c = .gte v) ↔ operator = "$gte" := by
  cases h <;> simp

theorem lt_iff : (∃ v, c = .lt v) ↔ operator = "$lt" := by
  cases h <;> simp

theorem lte_iff : (∃ v, c = .lte v) ↔ operator = "$lte" := by
  cases h <;> simp

end Condition.WrittenAs

/-! ## The values of a filter -/

namespace Json

/-- Some member of the value is an operator. -/
def HasOperator (v : Json) : Prop := ∃ n ∈ v.names, isOperatorName n = true

/-- Some member of the value is an operator other than the equality. -/
def HasRangeOperator (v : Json) : Prop := ∃ n ∈ v.names, isOperatorName n = true ∧ n ≠ "$eq"

/-- The value pins its field: it has no operators, or it is an equality and nothing else. -/
def Pins (v : Json) : Prop := ¬ v.HasOperator ∨ ∃ w, v = .object [("$eq", w)]

/-- A value that has operators has nothing else, and their operands fit. -/
def OperatorsFit (v : Json) : Prop :=
  v.HasOperator → ∀ m ∈ v.members, isOperatorName m.1 = true ∧ FitsOperator m.1 m.2

/-- A condition that the value of a filter's member stands for: a value without operators
asks for itself, and the others for what their operators ask. -/
def Asks (v : Json) (c : Condition) : Prop :=
  ¬ v.HasOperator ∧ c = .eq v ∨ v.HasOperator ∧ ∃ m ∈ v.members, c.WrittenAs m.1 m.2

variable {v : Json}

theorem HasRangeOperator.hasOperator (h : v.HasRangeOperator) : v.HasOperator := by
  obtain ⟨n, hn, hop, -⟩ := h
  exact ⟨n, hn, hop⟩

theorem exists_of_names_eq_singleton {n : String} (h : v.names = [n]) :
    ∃ w, v = .object [(n, w)] := by
  cases v with
  | object ms =>
    obtain ⟨⟨n', w⟩, rfl, rfl⟩ := List.map_eq_singleton_iff.1 h
    exact ⟨w, rfl⟩
  | _ => simp [names, members] at h

/-- A value whose operators fit asks for a condition of some kind iff it has the operators
that these conditions are written with. -/
theorem exists_asks_iff (hop : v.HasOperator) (hfit : v.OperatorsFit) {P : Condition → Prop}
    {Q : String → Prop}
    (hPQ : ∀ {c : Condition} {op : String} {w : Json}, c.WrittenAs op w → (P c ↔ Q op)) :
    (∃ c, v.Asks c ∧ P c) ↔ ∃ n ∈ v.names, Q n := by
  constructor
  · rintro ⟨c, ⟨hnop, -⟩ | ⟨-, m, hm, hc⟩, hP⟩
    · exact absurd hop hnop
    · exact ⟨m.1, List.mem_map_of_mem hm, (hPQ hc).1 hP⟩
  · rintro ⟨n, hn, hQ⟩
    obtain ⟨m, hm, rfl⟩ := List.mem_map.1 hn
    obtain ⟨c, hc⟩ := exists_writtenAs_iff.2 (hfit hop m hm).2
    exact ⟨c, .inr ⟨hop, m, hm, hc⟩, (hPQ hc).2 hQ⟩

theorem exists_asks (hfit : v.OperatorsFit) : ∃ c, v.Asks c := by
  by_cases hop : v.HasOperator
  · obtain ⟨n, hn, -⟩ := id hop
    obtain ⟨m, hm, rfl⟩ := List.mem_map.1 hn
    obtain ⟨c, hc⟩ := exists_writtenAs_iff.2 (hfit hop m hm).2
    exact ⟨c, .inr ⟨hop, m, hm, hc⟩⟩
  · exact ⟨.eq v, .inl ⟨hop, rfl⟩⟩

/-- A value asks for an equality iff it has no operators or that of an equality. -/
theorem exists_asks_isEquality_iff (hfit : v.OperatorsFit) :
    (∃ c, v.Asks c ∧ c.isEquality = true) ↔ ¬ v.HasOperator ∨ "$eq" ∈ v.names := by
  by_cases hop : v.HasOperator
  · rw [exists_asks_iff hop hfit fun hc => hc.isEquality_iff, or_iff_right (not_not_intro hop)]
    exact exists_eq_right
  · exact iff_of_true ⟨.eq v, .inl ⟨hop, rfl⟩, rfl⟩ (.inl hop)

/-- A value asks for a range iff it has an operator other than the equality. -/
theorem exists_asks_isRange_iff (hfit : v.OperatorsFit) :
    (∃ c, v.Asks c ∧ c.isRange = true) ↔ v.HasRangeOperator := by
  by_cases hop : v.HasOperator
  · refine exists_asks_iff hop hfit fun hc => ?_
    rw [Condition.isRange, Bool.not_eq_true', ← Bool.not_eq_true, hc.isEquality_iff,
      and_iff_right hc.isOperatorName]
  · refine iff_of_false ?_ fun h => hop h.hasOperator
    rintro ⟨c, ⟨-, rfl⟩ | ⟨hop', -⟩, hc⟩
    · simp [Condition.isRange, Condition.isEquality] at hc
    · exact hop hop'

/-- Where an equality stands alone, a value pins its field iff it does not ask for a range. -/
theorem pins_iff (hfit : v.OperatorsFit) (hnodup : v.names.Nodup) :
    v.Pins ↔ ¬ v.HasRangeOperator := by
  constructor
  · rintro (hop | ⟨w, rfl⟩) hrange
    · exact hop hrange.hasOperator
    · obtain ⟨n, hn, -, hne⟩ := hrange
      exact hne (List.mem_singleton.1 hn)
  · intro hrange
    by_cases hop : v.HasOperator
    · have heq : ∀ n ∈ v.names, n = "$eq" := by
        intro n hn
        obtain ⟨m, hm, rfl⟩ := List.mem_map.1 hn
        by_contra hne
        exact hrange ⟨m.1, hn, (hfit hop m hm).1, hne⟩
      obtain ⟨n, hn, -⟩ := hop
      have hlength : v.names.length ≤ 1 := by
        rw [List.eq_replicate_of_mem heq] at hnodup
        exact List.nodup_replicate.1 hnodup
      have hnames : v.names = ["$eq"] := by
        rw [List.eq_replicate_of_mem heq, le_antisymm hlength (List.length_pos_of_mem hn)]
        rfl
      exact .inr (exists_of_names_eq_singleton hnames)
    · exact .inl hop

end Json

/-! ## Reading -/

variable {v : Json} {m : String × Json} {ms : List (String × Json)} {p : Predicate}
  {ps : List Predicate}

theorem predicatesOfOperators_cons_eq_ok_iff :
    predicatesOfOperators field (m :: ms) = .ok ps ↔
      ∃ c qs, c.WrittenAs m.1 m.2 ∧ predicatesOfOperators field ms = .ok qs ∧
        ps = ⟨field, c⟩ :: qs := by
  have hwritten (c : Condition) :
      c.WrittenAs m.1 m.2 ↔ conditionOfOperator field m.1 m.2 = .ok c :=
    conditionOfOperator_eq_ok_iff.symm
  simp only [hwritten]
  rw [predicatesOfOperators]
  split
  · next e he => simp [he]
  · next c hc =>
    split
    · next e he => simp [he]
    · next qs hqs => simp [hc, hqs, eq_comm]

/-- Operators are read iff their operands fit. -/
theorem exists_predicatesOfOperators_eq_ok_iff :
    (∃ ps, predicatesOfOperators field ms = .ok ps) ↔ ∀ m ∈ ms, FitsOperator m.1 m.2 := by
  induction ms with
  | nil => simp [predicatesOfOperators]
  | cons m ms ih =>
    rw [List.forall_mem_cons, ← ih, ← exists_writtenAs_iff]
    constructor
    · rintro ⟨ps, h⟩
      obtain ⟨c, qs, hc, hqs, -⟩ := predicatesOfOperators_cons_eq_ok_iff.1 h
      exact ⟨⟨c, hc⟩, qs, hqs⟩
    · rintro ⟨⟨c, hc⟩, qs, hqs⟩
      exact ⟨_, predicatesOfOperators_cons_eq_ok_iff.2 ⟨c, qs, hc, hqs, rfl⟩⟩

theorem mem_of_predicatesOfOperators_eq_ok (h : predicatesOfOperators field ms = .ok ps) :
    p ∈ ps ↔ p.field = field ∧ ∃ m ∈ ms, p.condition.WrittenAs m.1 m.2 := by
  induction ms generalizing ps with
  | nil =>
    obtain rfl := Except.ok.inj h
    simp
  | cons m ms ih =>
    obtain ⟨c, qs, hc, hqs, rfl⟩ := predicatesOfOperators_cons_eq_ok_iff.1 h
    have hhead : p = ⟨field, c⟩ ↔ p.field = field ∧ p.condition.WrittenAs m.1 m.2 := by
      obtain ⟨f, c'⟩ := p
      rw [Predicate.mk.injEq]
      exact and_congr_right fun _ => ⟨fun heq => heq ▸ hc, fun hc' => hc'.unique hc⟩
    rw [List.mem_cons, ih hqs, hhead, ← and_or_left, List.exists_mem_cons_iff]

theorem any_isOperatorName_iff :
    ms.any (isOperatorName ·.1) = true ↔ (Json.object ms).HasOperator := by
  simp [Json.HasOperator, Json.names]

theorem predicatesOfValue_of_not_hasOperator (h : ¬ v.HasOperator) :
    predicatesOfValue field v = .ok [⟨field, .eq v⟩] := by
  unfold predicatesOfValue
  split
  · exact if_neg fun hany => h (any_isOperatorName_iff.1 hany)
  · rfl

theorem predicatesOfValue_eq_ok_iff (h : v.HasOperator) :
    predicatesOfValue field v = .ok ps ↔
      (∀ m ∈ v.members, isOperatorName m.1 = true) ∧
        predicatesOfOperators field v.members = .ok ps := by
  cases v with
  | object ms =>
    rw [predicatesOfValue, if_pos (any_isOperatorName_iff.2 h), Json.members_object,
      ← List.all_eq_true]
    by_cases hall : ms.all (isOperatorName ·.1) = true
    · simp [hall]
    · simp [hall]
  | _ =>
    obtain ⟨n, hn, -⟩ := h
    exact absurd hn List.not_mem_nil

/-- The value of a member is read iff its operators fit. -/
theorem exists_predicatesOfValue_eq_ok_iff :
    (∃ ps, predicatesOfValue field v = .ok ps) ↔ v.OperatorsFit := by
  by_cases hop : v.HasOperator
  · simp only [predicatesOfValue_eq_ok_iff hop, exists_and_left,
      exists_predicatesOfOperators_eq_ok_iff, Json.OperatorsFit, hop, true_imp_iff,
      forall_and]
  · rw [predicatesOfValue_of_not_hasOperator hop]
    exact ⟨fun _ h => absurd h hop, fun _ => ⟨_, rfl⟩⟩

theorem mem_of_predicatesOfValue_eq_ok (h : predicatesOfValue field v = .ok ps) :
    p ∈ ps ↔ p.field = field ∧ v.Asks p.condition := by
  by_cases hop : v.HasOperator
  · obtain ⟨-, hps⟩ := (predicatesOfValue_eq_ok_iff hop).1 h
    rw [mem_of_predicatesOfOperators_eq_ok hps]
    simp only [Json.Asks, hop, not_true_eq_false, false_and, true_and, false_or]
  · rw [predicatesOfValue_of_not_hasOperator hop] at h
    obtain rfl := Except.ok.inj h
    obtain ⟨f, c⟩ := p
    simp only [Json.Asks, hop, not_false_eq_true, true_and, false_and, or_false,
      List.mem_singleton, Predicate.mk.injEq]

/-! ## The two documents -/

theorem predicatesOfMembers_cons_eq_ok_iff :
    predicatesOfMembers (m :: ms) = .ok ps ↔
      isOperatorName m.1 = false ∧ ∃ qs rs, predicatesOfValue m.1 m.2 = .ok qs ∧
        predicatesOfMembers ms = .ok rs ∧ ps = qs ++ rs := by
  rw [predicatesOfMembers]
  split
  · next hop => simp [hop]
  · next hop =>
    rw [Bool.not_eq_true] at hop
    split
    · next e he => simp [he]
    · next qs hqs =>
      split
      · next e he => simp [he]
      · next rs hrs => simp [hop, hqs, hrs, eq_comm]

/-- Members are read iff none is named like an operator and all their values are read. -/
theorem exists_predicatesOfMembers_eq_ok_iff :
    (∃ ps, predicatesOfMembers ms = .ok ps) ↔
      ∀ m ∈ ms, isOperatorName m.1 = false ∧ m.2.OperatorsFit := by
  induction ms with
  | nil => simp [predicatesOfMembers]
  | cons m ms ih =>
    have hvalue : (∃ ps, predicatesOfValue m.1 m.2 = .ok ps) ↔ m.2.OperatorsFit :=
      exists_predicatesOfValue_eq_ok_iff
    rw [List.forall_mem_cons, ← ih, ← hvalue]
    constructor
    · rintro ⟨ps, h⟩
      obtain ⟨hop, qs, rs, hqs, hrs, -⟩ := predicatesOfMembers_cons_eq_ok_iff.1 h
      exact ⟨⟨hop, qs, hqs⟩, rs, hrs⟩
    · rintro ⟨⟨hop, qs, hqs⟩, rs, hrs⟩
      exact ⟨_, predicatesOfMembers_cons_eq_ok_iff.2 ⟨hop, qs, rs, hqs, hrs, rfl⟩⟩

theorem mem_of_predicatesOfMembers_eq_ok (h : predicatesOfMembers ms = .ok ps) :
    p ∈ ps ↔ ∃ v, (p.field, v) ∈ ms ∧ v.Asks p.condition := by
  induction ms generalizing ps with
  | nil =>
    obtain rfl := Except.ok.inj h
    simp
  | cons m ms ih =>
    obtain ⟨-, qs, rs, hqs, hrs, rfl⟩ := predicatesOfMembers_cons_eq_ok_iff.1 h
    have hhead : p.field = m.1 ∧ m.2.Asks p.condition ↔
        ∃ v, (p.field, v) = m ∧ v.Asks p.condition := by
      obtain ⟨f, w⟩ := m
      simp [eq_comm]
    rw [List.mem_append, ih hrs, mem_of_predicatesOfValue_eq_ok hqs, hhead, ← exists_or]
    simp only [List.mem_cons, or_and_right]

/-- A document asks for nothing, or it has members. -/
def Json.IsDocument (v : Json) : Prop := v = .null ∨ ∃ ms, v = .object ms

variable {filter sort : Json} {ks : List Key}

theorem predicatesOfFilter_eq_ok_iff :
    predicatesOfFilter filter = .ok ps ↔
      filter.IsDocument ∧ predicatesOfMembers filter.members = .ok ps := by
  cases filter <;> simp [predicatesOfFilter, Json.IsDocument, Json.members, predicatesOfMembers]

theorem keysOfSort_eq_ok_iff :
    keysOfSort sort = .ok ks ↔ sort.IsDocument ∧ sort.members = ks.map Key.toMember := by
  have hok {α : Type} {x : Except String α} {a : α} :
      x.mapError ShapeError.invalidSortDirection = .ok a ↔ x = .ok a := by
    cases x <;> simp [Except.mapError]
  cases sort with
  | null => simp [keysOfSort, Json.IsDocument, Json.members, eq_comm]
  | object ms => simp [keysOfSort, Json.IsDocument, hok, Key.ofMembers_eq_ok_iff]
  | _ => simp [keysOfSort, Json.IsDocument]

/-- A sort is read iff all its values are directions. -/
theorem exists_keysOfSort_eq_ok_iff :
    (∃ ks, keysOfSort sort = .ok ks) ↔
      sort.IsDocument ∧ ∀ m ∈ sort.members, m.2 = .ofInt 1 ∨ m.2 = .ofInt (-1) := by
  simp only [keysOfSort_eq_ok_iff, exists_and_left, Key.exists_map_toMember_iff]

/-! ## Which documents are read -/

/-- The grammar of query documents. -/
structure Grammatical (filter sort : Json) : Prop where
  isDocument_filter : filter.IsDocument
  isDocument_sort : sort.IsDocument
  /-- The members of the filter are named like fields. -/
  named : ∀ m ∈ filter.members, m.1 ≠ "" ∧ isOperatorName m.1 = false
  /-- Operators are among themselves, and their operands fit. -/
  operatorsFit : ∀ m ∈ filter.members, m.2.OperatorsFit
  /-- An equality is not joined with other operators. -/
  eq_alone : ∀ m ∈ filter.members, "$eq" ∈ m.2.names → ¬ m.2.HasRangeOperator
  named_sort : ∀ m ∈ sort.members, m.1 ≠ ""
  /-- The values of the sort are directions. -/
  direction : ∀ m ∈ sort.members, m.2 = .ofInt 1 ∨ m.2 = .ofInt (-1)
  /-- What the filter restricts to a range orders nothing. -/
  not_range_sort : ∀ m ∈ sort.members, ∀ v, (m.1, v) ∈ filter.members → ¬ v.HasRangeOperator

/-- The shape that two documents stand for. -/
structure QueryShape.ReadsDocuments (shape : QueryShape) (filter sort : Json) : Prop where
  /-- The equalities are the members that pin their field. -/
  mem_equality_iff : ∀ f, f ∈ shape.equality ↔ ∃ v, (f, v) ∈ filter.members ∧ v.Pins
  /-- The ranges are the other members. -/
  mem_range_iff : ∀ f, f ∈ shape.range.fields ↔ ∃ v, (f, v) ∈ filter.members ∧ ¬ v.Pins
  /-- The bounds of a range are those that its operators set. -/
  lower : ∀ r ∈ shape.range.toList, ∀ v, (r.field, v) ∈ filter.members →
    r.lower.Tightest ("$gt" ∈ v.names) ("$gte" ∈ v.names)
  upper : ∀ r ∈ shape.range.toList, ∀ v, (r.field, v) ∈ filter.members →
    r.upper.Tightest ("$lt" ∈ v.names) ("$lte" ∈ v.names)
  /-- The sort is the sort document without the members that the filter pins. -/
  sort_eq : shape.sort.map Key.toMember = sort.members.filter (fun m => m.1 ∉ shape.equality)

/-- Where no name comes twice, a name has one value. -/
theorem value_unique {f : String} {v w : Json} (hnodup : filter.names.Nodup)
    (hv : (f, v) ∈ filter.members) (hw : (f, w) ∈ filter.members) : v = w :=
  congrArg Prod.snd (List.inj_on_of_nodup_map hnodup hv hw rfl)

section PredicatesRead

variable (hread : predicatesOfFilter filter = .ok ps)
include hread

theorem operatorsFit_of_read (hm : m ∈ filter.members) : m.2.OperatorsFit := by
  obtain ⟨-, hmembers⟩ := predicatesOfFilter_eq_ok_iff.1 hread
  exact (exists_predicatesOfMembers_eq_ok_iff.1 ⟨ps, hmembers⟩ m hm).2

theorem mem_iff_of_read : p ∈ ps ↔ ∃ v, (p.field, v) ∈ filter.members ∧ v.Asks p.condition :=
  mem_of_predicatesOfMembers_eq_ok (predicatesOfFilter_eq_ok_iff.1 hread).2

/-- Some predicate on the field has a condition of some kind iff a member of the filter asks
for one. -/
theorem exists_mem_iff_of_read {f : String} {P : Condition → Prop} :
    (∃ p ∈ ps, p.field = f ∧ P p.condition) ↔
      ∃ v, (f, v) ∈ filter.members ∧ ∃ c, v.Asks c ∧ P c := by
  constructor
  · rintro ⟨p, hp, rfl, hP⟩
    obtain ⟨v, hv, hasks⟩ := (mem_iff_of_read hread).1 hp
    exact ⟨v, hv, p.condition, hasks, hP⟩
  · rintro ⟨v, hv, c, hasks, hP⟩
    exact ⟨⟨f, c⟩, (mem_iff_of_read hread).2 ⟨v, hv, hasks⟩, rfl, hP⟩

theorem pinned_iff_of_read {f : String} :
    Pinned ps f ↔ ∃ v, (f, v) ∈ filter.members ∧ (¬ v.HasOperator ∨ "$eq" ∈ v.names) := by
  refine (exists_mem_iff_of_read hread (P := fun c => c.isEquality = true)).trans ?_
  refine exists_congr fun v => and_congr_right fun hv => ?_
  exact Json.exists_asks_isEquality_iff (operatorsFit_of_read hread hv)

theorem restricted_iff_of_read {f : String} :
    Restricted ps f ↔ ∃ v, (f, v) ∈ filter.members ∧ v.HasRangeOperator := by
  refine (exists_mem_iff_of_read hread (P := fun c => c.isRange = true)).trans ?_
  refine exists_congr fun v => and_congr_right fun hv => ?_
  exact Json.exists_asks_isRange_iff (operatorsFit_of_read hread hv)

variable (hnodup : filter.names.Nodup)
include hnodup

/-- Predicates of one kind are asked for on a field iff its operators have the one that they
are written with. -/
theorem asks_iff_of_read {f op : String} {kind : Json → Condition}
    (hkind : ∀ {c : Condition} {op' : String} {w : Json}, c.WrittenAs op' w →
      ((∃ w, c = kind w) ↔ op' = op))
    (hv : (f, v) ∈ filter.members) (hop : v.HasOperator) :
    Asks ps f kind ↔ op ∈ v.names := by
  have hasks : Asks ps f kind ↔ ∃ c, v.Asks c ∧ ∃ w, c = kind w := by
    constructor
    · rintro ⟨w, hw⟩
      obtain ⟨v', hv', hasks⟩ := (mem_iff_of_read hread).1 hw
      obtain rfl : v' = v := value_unique hnodup hv' hv
      exact ⟨kind w, hasks, w, rfl⟩
    · rintro ⟨c, hasks, w, rfl⟩
      exact ⟨w, (mem_iff_of_read hread).2 ⟨v, hv, hasks⟩⟩
  rw [hasks, Json.exists_asks_iff hop (operatorsFit_of_read hread hv) hkind]
  exact exists_eq_right

variable (hsort : keysOfSort sort = .ok ks)
include hsort

/-- Documents that have been read are a query that can be normalized iff they are in the
grammar. -/
theorem compatible_iff_grammatical (hnodup_sort : sort.names.Nodup) :
    Compatible ps ks ↔ Grammatical filter sort := by
  obtain ⟨hdocument, hmembers⟩ := predicatesOfFilter_eq_ok_iff.1 hread
  obtain ⟨hdocument_sort, hmembers_sort⟩ := keysOfSort_eq_ok_iff.1 hsort
  constructor
  · intro h
    have hkey : ∀ m ∈ sort.members, ∃ k ∈ ks, k.field = m.1 := by
      rw [hmembers_sort]
      intro m hm
      obtain ⟨k, hk, rfl⟩ := List.mem_map.1 hm
      exact ⟨k, hk, rfl⟩
    refine
      { isDocument_filter := hdocument
        isDocument_sort := hdocument_sort
        named := fun m hm => ⟨?_, ?_⟩
        operatorsFit := fun m hm => operatorsFit_of_read hread hm
        eq_alone := fun m hm heq hrange => ?_
        named_sort := fun m hm => ?_
        direction := (exists_keysOfSort_eq_ok_iff.1 ⟨ks, hsort⟩).2
        not_range_sort := fun m hm v hv hrange => ?_ }
    · obtain ⟨c, hasks⟩ := Json.exists_asks (operatorsFit_of_read hread hm)
      exact h.named ⟨m.1, c⟩ ((mem_iff_of_read hread).2 ⟨m.2, hm, hasks⟩)
    · exact (exists_predicatesOfMembers_eq_ok_iff.1 ⟨ps, hmembers⟩ m hm).1
    · exact h.roles m.1 ((pinned_iff_of_read hread).2 ⟨m.2, hm, .inr heq⟩)
        ((restricted_iff_of_read hread).2 ⟨m.2, hm, hrange⟩)
    · obtain ⟨k, hk, hfield⟩ := hkey m hm
      exact hfield ▸ h.named_sort k hk
    · obtain ⟨k, hk, hfield⟩ := hkey m hm
      rw [← hfield] at hv
      exact h.sort_not_restricted k hk ((restricted_iff_of_read hread).2 ⟨v, hv, hrange⟩)
  · intro h
    have hkey : ∀ k ∈ ks, k.toMember ∈ sort.members := by
      rw [hmembers_sort]
      exact fun k hk => List.mem_map_of_mem hk
    refine
      { named := fun p hp => ?_
        roles := fun f hpinned hrestricted => ?_
        named_sort := fun k hk => h.named_sort k.toMember (hkey k hk)
        nodup_sort := ?_
        sort_not_restricted := fun k hk hrestricted => ?_ }
    · obtain ⟨v, hv, -⟩ := (mem_iff_of_read hread).1 hp
      exact (h.named (p.field, v) hv).1
    · obtain ⟨v, hv, hpins⟩ := (pinned_iff_of_read hread).1 hpinned
      obtain ⟨w, hw, hrange⟩ := (restricted_iff_of_read hread).1 hrestricted
      obtain rfl : v = w := value_unique hnodup hv hw
      rcases hpins with hop | heq
      · exact hop hrange.hasOperator
      · exact h.eq_alone (f, v) hv heq hrange
    · rw [Json.names, hmembers_sort, List.map_map] at hnodup_sort
      exact hnodup_sort
    · obtain ⟨v, hv, hrange⟩ := (restricted_iff_of_read hread).1 hrestricted
      exact h.not_range_sort k.toMember (hkey k hk) v hv hrange

/-- The shape of documents that have been read is the one that they stand for. -/
theorem readsDocuments_of_describes (hgrammatical : Grammatical filter sort)
    (hvalues : ∀ m ∈ filter.members, m.2.names.Nodup) {shape : QueryShape}
    (h : shape.Describes ps ks) : shape.ReadsDocuments filter sort := by
  have hpins {f : String} {v : Json} (hv : (f, v) ∈ filter.members) :
      v.Pins ↔ ¬ v.HasRangeOperator :=
    Json.pins_iff (operatorsFit_of_read hread hv) (hvalues (f, v) hv)
  have hrange (r : RangeCondition) (hr : r ∈ shape.range.toList) (v : Json)
      (hv : (r.field, v) ∈ filter.members) : v.HasOperator := by
    have hrestricted : Restricted ps r.field :=
      (h.mem_range_iff r.field).1 (List.mem_map_of_mem hr)
    obtain ⟨w, hw, hrange⟩ := (restricted_iff_of_read hread).1 hrestricted
    obtain rfl : w = v := value_unique hnodup hw hv
    exact hrange.hasOperator
  refine
    { mem_equality_iff := fun f => ?_
      mem_range_iff := fun f => ?_
      lower := fun r hr v hv => ?_
      upper := fun r hr v hv => ?_
      sort_eq := ?_ }
  · rw [h.mem_equality_iff, pinned_iff_of_read hread]
    refine exists_congr fun v => and_congr_right fun hv => ?_
    constructor
    · rintro (hop | heq)
      · exact .inl hop
      · exact (hpins hv).2 (hgrammatical.eq_alone (f, v) hv heq)
    · rintro (hop | ⟨w, rfl⟩)
      · exact .inl hop
      · exact .inr (List.mem_singleton_self "$eq")
  · rw [h.mem_range_iff, restricted_iff_of_read hread]
    refine exists_congr fun v => and_congr_right fun hv => ?_
    rw [hpins hv, not_not]
  · have hop := hrange r hr v hv
    exact (h.boundedBy r hr).lower.congr
      (asks_iff_of_read hread hnodup (fun hc => hc.gt_iff) hv hop)
      (asks_iff_of_read hread hnodup (fun hc => hc.gte_iff) hv hop)
  · have hop := hrange r hr v hv
    exact (h.boundedBy r hr).upper.congr
      (asks_iff_of_read hread hnodup (fun hc => hc.lt_iff) hv hop)
      (asks_iff_of_read hread hnodup (fun hc => hc.lte_iff) hv hop)
  · obtain ⟨-, hmembers_sort⟩ := keysOfSort_eq_ok_iff.1 hsort
    rw [hmembers_sort, List.filter_map, h.sort_eq]
    simp only [← h.mem_equality_iff]
    rfl

end PredicatesRead

variable {shape : QueryShape}

theorem ofDocuments_eq_ok_iff :
    QueryShape.ofDocuments filter sort = .ok shape ↔
      ∃ ps ks, predicatesOfFilter filter = .ok ps ∧ keysOfSort sort = .ok ks ∧
        normalize ps ks = .ok shape := by
  rw [QueryShape.ofDocuments]
  split
  · next e he => simp [he]
  · next ps hps =>
    split
    · next e he => simp [he]
    · next ks hks => simp [hps, hks]

/-- The grammar says which documents are read. -/
theorem exists_ofDocuments_eq_ok_iff (hfilter : filter.NamesDistinct)
    (hsort : sort.NamesDistinct) :
    (∃ shape, QueryShape.ofDocuments filter sort = .ok shape) ↔ Grammatical filter sort := by
  constructor
  · rintro ⟨shape, h⟩
    obtain ⟨ps, ks, hps, hks, hshape⟩ := ofDocuments_eq_ok_iff.1 h
    rw [← compatible_iff_grammatical hps hfilter.nodup_names hks hsort.nodup_names]
    exact exists_normalize_eq_ok_iff.1 ⟨shape, hshape⟩
  · intro h
    obtain ⟨ps, hps⟩ : ∃ ps, predicatesOfFilter filter = .ok ps := by
      simp only [predicatesOfFilter_eq_ok_iff, exists_and_left,
        exists_predicatesOfMembers_eq_ok_iff]
      exact ⟨h.isDocument_filter, fun m hm => ⟨(h.named m hm).2, h.operatorsFit m hm⟩⟩
    obtain ⟨ks, hks⟩ := exists_keysOfSort_eq_ok_iff.2 ⟨h.isDocument_sort, h.direction⟩
    rw [← compatible_iff_grammatical hps hfilter.nodup_names hks hsort.nodup_names] at h
    obtain ⟨shape, hshape⟩ := exists_normalize_eq_ok_iff.2 h
    exact ⟨shape, ofDocuments_eq_ok_iff.2 ⟨ps, ks, hps, hks, hshape⟩⟩

/-- **The grammar of query documents.**  Two documents in which no name comes twice are read
iff they are in the grammar, and then the shape is the one that they stand for. -/
theorem ofDocuments_grammar (hfilter : filter.NamesDistinct) (hsort : sort.NamesDistinct) :
    ((∃ shape, QueryShape.ofDocuments filter sort = .ok shape) ↔ Grammatical filter sort) ∧
    ∀ shape, QueryShape.ofDocuments filter sort = .ok shape →
      shape.ReadsDocuments filter sort := by
  refine ⟨exists_ofDocuments_eq_ok_iff hfilter hsort, fun shape h => ?_⟩
  have hgrammatical := (exists_ofDocuments_eq_ok_iff hfilter hsort).1 ⟨shape, h⟩
  obtain ⟨ps, ks, hps, hks, hshape⟩ := ofDocuments_eq_ok_iff.1 h
  exact readsDocuments_of_describes hps hfilter.nodup_names hks hgrammatical
    (fun m hm => (hfilter.of_mem_members hm).nodup_names) (describes_of_normalize_eq_ok hshape)

/-- A filter on the borders of the grammar: an empty object and one with plain names only are
values, and an equality on its own is no range. -/
def ordersFilter : Json :=
  .object
    [("note", .object []), ("address", .object [("city", .null)]),
      ("state", .object [("$eq", .object [("$in", .null)])]),
      ("day", .object [("$gte", .ofInt 1), ("$gt", .ofInt 2), ("$exists", .bool true)])]

/-- A sort with a field that `ordersFilter` pins. -/
def ordersSort : Json := .object [("state", .ofInt 1), ("number", .ofInt (-1))]

theorem ofDocuments_grammar_orders :
    ordersFilter.NamesDistinct ∧ ordersSort.NamesDistinct ∧
      Grammatical ordersFilter ordersSort ∧
      ∃ shape, QueryShape.ofDocuments ordersFilter ordersSort = .ok shape ∧
        shape.ReadsDocuments ordersFilter ordersSort := by
  have hfilter : ordersFilter.NamesDistinct := by simp [ordersFilter, Json.ofInt]
  have hsort : ordersSort.NamesDistinct := by simp [ordersSort, Json.ofInt]
  obtain ⟨hiff, hreads⟩ := ofDocuments_grammar hfilter hsort
  obtain ⟨shape, hshape⟩ : ∃ shape, QueryShape.ofDocuments ordersFilter ordersSort = .ok shape :=
    ⟨_, rfl⟩
  exact ⟨hfilter, hsort, hiff.1 ⟨shape, hshape⟩, shape, hshape, hreads shape hshape⟩

end IndexPlanner
