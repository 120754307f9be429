import IndexPlanner.Json.Record
import IndexPlanner.Proofs.Json.Distinct
import IndexPlanner.Proofs.Json.Tokens

/-!
# Reading what was written

The tokens of a value are read as that value, if no name comes twice in it and its brackets
are not nested too deep.

* `Reader.run_tokenList`: the machine reads a value off its tokens, whatever brackets are open
  around it.
* `parse?_document`: a document is read back, whatever its layout.
-/

namespace IndexPlanner
namespace Json

/-- No more than the given number of brackets are open at once in the value. -/
inductive NestedWithin : Nat → Json → Prop where
  | null (n : Nat) : NestedWithin n null
  | bool (n : Nat) (b : Bool) : NestedWithin n (bool b)
  | number (n : Nat) (x : JsonNumber) : NestedWithin n (number x)
  | string (n : Nat) (s : String) : NestedWithin n (string s)
  | array {n : Nat} {items : List Json} (hitems : ∀ v ∈ items, NestedWithin n v) :
      NestedWithin (n + 1) (array items)
  | object {n : Nat} {ms : List (String × Json)} (hvalues : ∀ m ∈ ms, NestedWithin n m.2) :
      NestedWithin (n + 1) (object ms)

namespace Reader

variable {mood : Mood} {st : State} {stack : List Frame} {t : Token} {ts rest : List Token}

/-- Reads on after a move. -/
def Move.resume (mood : Mood) (ts : List Token) : Move → Option (Json × List Token)
  | go st => run mood st ts
  | done v => some (v, ts)
  | refuse => none

theorem run_cons : run mood st (t :: ts) = (step mood st t).resume mood ts := by
  rw [run]
  cases step mood st t <;> rfl

/-- The first item of an array is read like any other value. -/
theorem run_firstItem {v : Json} :
    run mood ⟨.firstItem, stack⟩ (v.tokenList ++ rest) =
      run mood ⟨.value, stack⟩ (v.tokenList ++ rest) := by
  cases v with
  | array items => cases items <;> rfl
  | object ms => cases ms <;> rfl
  | _ => rfl

variable {depth : Nat}

theorem run_openBracket (h : stack.length < depth) :
    run (.strict depth) ⟨.value, stack⟩ (.openBracket :: rest) =
      run (.strict depth) ⟨.firstItem, .array [] :: stack⟩ rest := by
  have hopens : (Mood.strict depth).opens stack = true := decide_eq_true h
  simp only [run_cons, step, stepValue, hopens, if_true, Move.resume]

theorem run_openBrace (h : stack.length < depth) :
    run (.strict depth) ⟨.value, stack⟩ (.openBrace :: rest) =
      run (.strict depth) ⟨.firstName, .object [] "" :: stack⟩ rest := by
  have hopens : (Mood.strict depth).opens stack = true := decide_eq_true h
  simp only [run_cons, step, stepValue, hopens, if_true, Move.resume]

/-- A name and the colon behind it are read. -/
theorem run_name {mode : Mode} {ms : List (String × Json)} {name old : String}
    (hmode : mode = .firstName ∨ mode = .name) :
    run mood ⟨mode, .object ms old :: stack⟩ (.string (some name) :: .colon :: rest) =
      run mood ⟨.value, .object ms name :: stack⟩ rest := by
  have hcontent : mood.content (some name) "" = some name := by cases mood <;> rfl
  have hstep : step mood ⟨mode, .object ms old :: stack⟩ (.string (some name)) =
      .go ⟨.colon, .object ms name :: stack⟩ := by
    rcases hmode with rfl | rfl <;> simp only [step, stepName, hcontent]
  rw [run_cons, hstep, Move.resume, run_cons]
  rfl

mutual

/-- A value is read off its tokens. -/
theorem run_tokenList : ∀ {n : Nat} {v : Json} {stack : List Frame} {rest : List Token},
    v.NamesDistinct → v.NestedWithin n → stack.length + n ≤ depth →
    run (.strict depth) ⟨.value, stack⟩ (v.tokenList ++ rest) =
      (deliver v stack).resume (.strict depth) rest
  | _, .null, _, _, _, _, _ => run_cons
  | _, .bool _, _, _, _, _, _ => run_cons
  | _, .number _, _, _, _, _, _ => run_cons
  | _, .string _, _, _, _, _, _ => run_cons
  | _, .array [], stack, rest, _, .array _, hdepth => by
    have hopen : stack.length < depth := by omega
    show run _ _ (.openBracket :: .closeBracket :: rest) = _
    rw [run_openBracket hopen, run_cons]
    rfl
  | _, .array (v :: vs), stack, rest, hdistinct, .array hitems, hdepth => by
    have hopen : stack.length < depth := by omega
    obtain ⟨hv, hvs⟩ := List.forall_mem_cons.1 (namesDistinct_array_iff.1 hdistinct)
    obtain ⟨hv', hvs'⟩ := List.forall_mem_cons.1 hitems
    have hitems : run (.strict depth) ⟨.more, .array [v] :: stack⟩ (itemTokens vs ++ rest) =
        (deliver (.array (v :: vs)) stack).resume (.strict depth) rest :=
      run_itemTokens hvs hvs' (by omega)
    rw [tokenList, List.cons_append, List.append_assoc, run_openBracket hopen,
      run_firstItem, run_tokenList hv hv' (by rw [List.length_cons]; omega)]
    exact hitems
  | _, .object [], stack, rest, _, .object _, hdepth => by
    have hopen : stack.length < depth := by omega
    show run _ _ (.openBrace :: .closeBrace :: rest) = _
    rw [run_openBrace hopen, run_cons]
    rfl
  | _, .object ((name, v) :: ms), stack, rest, hdistinct, .object hvalues, hdepth => by
    have hopen : stack.length < depth := by omega
    obtain ⟨hnames, hvalues'⟩ := namesDistinct_object_iff.1 hdistinct
    obtain ⟨hv, hms⟩ := List.forall_mem_cons.1 hvalues'
    obtain ⟨hv', hms'⟩ := List.forall_mem_cons.1 hvalues
    have hmembers : run (.strict depth) ⟨.more, .object [(name, v)] name :: stack⟩
        (memberTokens ms ++ rest) =
          (deliver (.object ((name, v) :: ms)) stack).resume (.strict depth) rest :=
      run_memberTokens hnames hms hms' (by omega)
    simp only [tokenList, List.cons_append, List.append_assoc]
    rw [run_openBrace hopen, run_name (.inl rfl),
      run_tokenList hv hv' (by rw [List.length_cons]; omega)]
    exact hmembers

theorem run_itemTokens : ∀ {n : Nat} {vs items : List Json} {stack : List Frame}
    {rest : List Token}, (∀ v ∈ vs, v.NamesDistinct) → (∀ v ∈ vs, v.NestedWithin n) →
    stack.length + 1 + n ≤ depth →
    run (.strict depth) ⟨.more, .array items :: stack⟩ (itemTokens vs ++ rest) =
      (deliver (.array (items.reverse ++ vs)) stack).resume (.strict depth) rest
  | _, [], items, stack, rest, _, _, _ => by
    show run _ _ (.closeBracket :: rest) = _
    rw [run_cons, List.append_nil]
    rfl
  | _, v :: vs, items, stack, rest, hdistinct, hnested, hdepth => by
    obtain ⟨hv, hvs⟩ := List.forall_mem_cons.1 hdistinct
    obtain ⟨hv', hvs'⟩ := List.forall_mem_cons.1 hnested
    have hcomma : step (.strict depth) ⟨.more, .array items :: stack⟩ .comma =
        .go ⟨.value, .array items :: stack⟩ := rfl
    rw [itemTokens, List.cons_append, List.append_assoc, run_cons, hcomma, Move.resume,
      run_tokenList hv hv' (by rw [List.length_cons]; omega), deliver, Move.resume,
      run_itemTokens hvs hvs' hdepth, List.reverse_cons, List.append_assoc]
    rfl

theorem run_memberTokens : ∀ {n : Nat} {more ms : List (String × Json)} {name : String}
    {stack : List Frame} {rest : List Token}, ((ms ++ more).map (·.1)).Nodup →
    (∀ m ∈ more, m.2.NamesDistinct) → (∀ m ∈ more, m.2.NestedWithin n) →
    stack.length + 1 + n ≤ depth →
    run (.strict depth) ⟨.more, .object ms name :: stack⟩ (memberTokens more ++ rest) =
      (deliver (.object (ms ++ more)) stack).resume (.strict depth) rest
  | _, [], ms, _, stack, rest, _, _, _, _ => by
    show run _ _ (.closeBrace :: rest) = _
    rw [run_cons, List.append_nil]
    rfl
  | _, (name, v) :: more, ms, old, stack, rest, hnames, hdistinct, hnested, hdepth => by
    obtain ⟨hv, hmore⟩ := List.forall_mem_cons.1 hdistinct
    obtain ⟨hv', hmore'⟩ := List.forall_mem_cons.1 hnested
    have hcomma : step (.strict depth) ⟨.more, .object ms old :: stack⟩ .comma =
        .go ⟨.name, .object ms old :: stack⟩ := rfl
    -- the name is new, so its value goes to the end
    have hput : putMember ms name v = ms ++ [(name, v)] := by
      refine putMember_of_notMem v fun hmem => ?_
      rw [List.map_append] at hnames
      exact (List.nodup_append.1 hnames).2.2 name hmem name List.mem_cons_self rfl
    simp only [memberTokens, List.cons_append, List.append_assoc]
    rw [run_cons, hcomma, Move.resume, run_name (.inr rfl),
      run_tokenList hv hv' (by rw [List.length_cons]; omega), deliver, Move.resume, hput]
    rw [List.append_cons] at hnames
    rw [run_memberTokens hnames hmore hmore' hdepth, ← List.append_cons]

end

/-- A value is read off its tokens, and what follows is left. -/
theorem read_tokenList {v : Json} (hdistinct : v.NamesDistinct) (hnested : v.NestedWithin depth) :
    read (.strict depth) (v.tokenList ++ rest) = some (v, rest) :=
  run_tokenList hdistinct hnested (Nat.le_of_eq (Nat.zero_add depth))

end Reader

/-- **A document is read back**, on one line or over several ones. -/
theorem parse?_document {l : Layout} {v : Json} (hexact : v.Exact) (hdistinct : v.NamesDistinct)
    (hnested : v.NestedWithin nestingLimit) : parse? (textAt l 0 v) = some v := by
  have hread : Reader.read (.strict nestingLimit) (v.tokenList ++ []) = some (v, []) :=
    Reader.read_tokenList hdistinct hnested
  rw [List.append_nil] at hread
  rw [parse?, tokens_document hexact, hread]

end Json
end IndexPlanner
