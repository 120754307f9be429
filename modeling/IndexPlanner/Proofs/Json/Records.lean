import IndexPlanner.Proofs.Json.Reading

/-!
# Reading records that were written

Records are read straight from the tokens, so what has to be said of a reader is what it makes
of the tokens of a value.

* `ReadsAs` says that a reader takes the tokens of a value for something.  It is stated and
  proved here for the readers of simple values and of lists.
* `Record.Absorbs` says what reading members one by one makes of the state of a record, and
  `Record.readsAs_take` that an object with these members is read as the record.
* `exists_of_mem_takeItems` and `Record.Keeps.exists_finish` go the other way, from something
  that was read, whatever the text was: its items were read by their reader, and a record was
  finished in a state that has whatever each member keeps.
* `readText_of_readsAs`: a text with these tokens is read.
-/

namespace IndexPlanner
namespace Json

variable {α σ : Type} {value : Taking α} {depth : Nat} {v : Json} {a : α} {rest : List Token}

/-- The reader takes the tokens of a value for `a`, whatever follows them. -/
def ReadsAs (value : Taking α) (depth : Nat) (v : Json) (a : α) : Prop :=
  ∀ rest, value depth (v.tokenList ++ rest) = .ok (a, rest)

/-! ## Simple values -/

theorem readsAs_takeString {expected s : String} :
    ReadsAs (takeString expected) depth (.string s) s := fun _ => rfl

theorem readsAs_takeNatural {bound n : Nat} {expected : String} (h : n < bound) :
    ReadsAs (takeNatural bound expected) depth (.ofNat n) n := by
  intro rest
  have hrange : 0 ≤ (n : Int) ∧ (n : Int) < bound := by omega
  exact if_pos hrange

theorem readsAs_takeUInt64 (n : UInt64) : ReadsAs takeUInt64 depth (.ofNat n.toNat) n := by
  intro rest
  rw [takeUInt64, readsAs_takeNatural n.toNat_lt_size]
  simp

/-- The members of an object are read in their order. -/
theorem readsAs_takeMembers {ms : List (String × Json)} (hdistinct : (object ms).NamesDistinct)
    (hnested : (object ms).NestedWithin depth) : ReadsAs takeMembers depth (.object ms) ms := by
  intro rest
  have hread : Reader.read (.strict depth) ((object ms).tokenList ++ rest) =
      some (.object ms, rest) :=
    Reader.read_tokenList hdistinct hnested
  obtain ⟨ts, hts⟩ : ∃ ts, (object ms).tokenList ++ rest = .openBrace :: ts := by
    cases ms with
    | nil => exact ⟨_, rfl⟩
    | cons m ms => exact ⟨_, rfl⟩
  rw [hts] at hread ⊢
  rw [takeMembers, hread]

/-! ## Lists -/

/-- A value that was written begins an item. -/
theorem nextItem_tokenList : nextItem true (v.tokenList ++ rest) = .item (v.tokenList ++ rest) := by
  cases v with
  | array items => cases items <;> rfl
  | object ms => cases ms <;> rfl
  | _ => rfl

theorem nextItem_comma :
    nextItem false (.comma :: (v.tokenList ++ rest)) = .item (v.tokenList ++ rest) := by
  cases v with
  | array items => cases items <;> rfl
  | object ms => cases ms <;> rfl
  | _ => rfl

theorem length_lt_itemTokens (vs : List Json) : vs.length < (itemTokens vs).length := by
  induction vs with
  | nil => simp [itemTokens]
  | cons v vs ih =>
    simp only [itemTokens, List.length_cons, List.length_append]
    omega

section Lists

variable {f : α → Json} {as : List α}

/-- The items behind the first one are read one by one. -/
theorem takeItems_itemTokens {n : Nat} (h : ∀ a ∈ as, ReadsAs value depth (f a) a)
    (hn : as.length < n) :
    takeItems value depth n false (itemTokens (as.map f) ++ rest) = .ok (as, rest) := by
  induction as generalizing n with
  | nil =>
    cases n with
    | zero => exact absurd hn (Nat.not_lt_zero _)
    | succ n => rfl
  | cons a as ih =>
    cases n with
    | zero => exact absurd hn (Nat.not_lt_zero _)
    | succ n =>
      obtain ⟨ha, has⟩ := List.forall_mem_cons.1 h
      have hrest := ih has (Nat.lt_of_succ_lt_succ hn)
      rw [List.map_cons, itemTokens, List.cons_append, List.append_assoc, takeItems, nextItem_comma]
      simp only [ha (itemTokens (as.map f) ++ rest), hrest]

/-- A list is read item by item. -/
theorem readsAs_takeList (h : ∀ a ∈ as, ReadsAs value depth (f a) a) :
    ReadsAs (takeList value) (depth + 1) (.array (as.map f)) as := by
  intro rest
  cases as with
  | nil => rfl
  | cons a as =>
    obtain ⟨ha, has⟩ := List.forall_mem_cons.1 h
    -- there are as many tokens as items at least
    have hlength : as.length < ((f a).tokenList ++ (itemTokens (as.map f) ++ rest)).length := by
      have hitems := length_lt_itemTokens (as.map f)
      rw [List.length_map] at hitems
      simp only [List.length_append]
      omega
    have hrest : takeItems value depth _ false (itemTokens (as.map f) ++ rest) = .ok (as, rest) :=
      takeItems_itemTokens has hlength
    rw [List.map_cons, tokenList, List.cons_append, List.append_assoc]
    simp only [takeList, takeItems, nextItem_tokenList, ha (itemTokens (as.map f) ++ rest), hrest]

end Lists

/-! ## Records -/

theorem Member.readsAs_of {name : String} {get : σ → Option α} {set : σ → α → σ} {s : σ}
    (h : ReadsAs value depth v a) :
    ReadsAs ((Member.of name get set value).take s) depth v (set s a) := by
  intro rest
  simp only [Member.of, h rest]

namespace Record

variable {r : Record σ α} {s s' : σ} {ms : List (String × Json)}

/-- The members take the state of the record from one to another. -/
inductive Absorbs (r : Record σ α) (depth : Nat) : σ → List (String × Json) → σ → Prop where
  | nil (s : σ) : Absorbs r depth s [] s
  | cons {s s' s'' : σ} {name : String} {v : Json} {ms : List (String × Json)}
      (m : Member σ) (hm : r.member? name = some m) (hnew : m.isRead s = false)
      (hv : ReadsAs (m.take s) depth v s') (hms : Absorbs r depth s' ms s'') :
      Absorbs r depth s ((name, v) :: ms) s''

theorem takeMember_eq_ok {name : String} {m : Member σ} (hm : r.member? name = some m)
    (hnew : m.isRead s = false) (hv : ReadsAs (m.take s) depth v s') :
    r.takeMember depth s name (.colon :: (v.tokenList ++ rest)) = .ok (s', rest) := by
  rw [takeMember, hm]
  simp only [hnew]
  exact hv rest

/-- The members behind the first one are read one by one. -/
theorem takeObject_memberTokens {n : Nat} (h : r.Absorbs depth s ms s') (hn : ms.length < n) :
    r.takeObject depth n false s (memberTokens ms ++ rest) = .ok (s', .closeBrace :: rest) := by
  induction h generalizing n with
  | nil s =>
    cases n with
    | zero => exact absurd hn (Nat.not_lt_zero _)
    | succ n => rfl
  | cons m hm hnew hv hms ih =>
    cases n with
    | zero => exact absurd hn (Nat.not_lt_zero _)
    | succ n =>
      have hrest := ih (Nat.lt_of_succ_lt_succ hn)
      simp only [memberTokens, List.cons_append, List.append_assoc, takeObject, nextName,
        Bool.false_eq_true, if_false, takeMember_eq_ok hm hnew hv, hrest]

theorem length_lt_memberTokens (ms : List (String × Json)) :
    ms.length < (memberTokens ms).length := by
  induction ms with
  | nil => simp [memberTokens]
  | cons m ms ih =>
    simp only [memberTokens, List.length_cons, List.length_append]
    omega

/-- A record is read from the object of its members. -/
theorem readsAs_take (h : r.Absorbs depth r.start ms s) (hfinish : r.finish s = .ok a) :
    ReadsAs r.take (depth + 1) (.object ms) a := by
  intro rest
  cases h with
  | nil =>
    simp only [tokenList, List.cons_append, List.nil_append, take, takeObject, nextName, hfinish,
      List.tail_cons]
  | @cons _ s' _ name v ms m hm hnew hv hms =>
    -- there are as many tokens as members at least
    have hlength : ms.length < (.string (some name) :: .colon ::
        (v.tokenList ++ (memberTokens ms ++ rest)) : List Token).length := by
      have hmembers := length_lt_memberTokens ms
      simp only [List.length_cons, List.length_append]
      omega
    have hrest : r.takeObject depth _ false s' (memberTokens ms ++ rest) =
        .ok (s, .closeBrace :: rest) :=
      takeObject_memberTokens hms hlength
    simp only [tokenList, List.cons_append, List.append_assoc, take, takeObject, nextName,
      if_true, takeMember_eq_ok hm hnew hv, hrest, hfinish, List.tail_cons]

end Record

/-! ## What is known of something that was read -/

section Read

variable {as : List α} {ts : List Token}

/-- All items of a list that was read were read by the reader of items. -/
theorem exists_of_mem_takeItems {n : Nat} {first : Bool}
    (h : takeItems value depth n first ts = .ok (as, rest)) (ha : a ∈ as) :
    ∃ ts' rest', value depth ts' = .ok (a, rest') := by
  induction n generalizing first ts as rest with
  | zero => simp [takeItems] at h
  | succ n ih =>
    rw [takeItems] at h
    split at h
    · obtain ⟨rfl, -⟩ := Prod.mk.inj (Except.ok.inj h)
      exact absurd ha List.not_mem_nil
    · simp at h
    · next items hitems =>
      split at h
      · simp at h
      · next b afterItem hb =>
        split at h
        · simp at h
        · next bs afterItems hbs =>
          obtain ⟨rfl, -⟩ := Prod.mk.inj (Except.ok.inj h)
          rcases List.mem_cons.1 ha with rfl | ha
          · exact ⟨items, afterItem, hb⟩
          · exact ih hbs ha

/-- The same, wherever the list stands. -/
theorem exists_of_mem_takeList (h : takeList value depth ts = .ok (as, rest)) (ha : a ∈ as) :
    ∃ depth' ts' rest', value depth' ts' = .ok (a, rest') := by
  unfold takeList at h
  split at h
  · split at h
    · simp at h
    · obtain ⟨ts', rest', hvalue⟩ := exists_of_mem_takeItems h ha
      exact ⟨_, ts', rest', hvalue⟩
  · simp at h

/-- A member that was read puts the value that was read into its place. -/
theorem of_memberOf_take {name : String} {get : σ → Option α} {set : σ → α → σ} {s s' : σ}
    (h : (Member.of name get set value).take s depth ts = .ok (s', rest)) :
    ∃ a, value depth ts = .ok (a, rest) ∧ s' = set s a := by
  simp only [Member.of] at h
  split at h
  · simp at h
  · next a rest' ha =>
    obtain ⟨rfl, rfl⟩ := Prod.mk.inj (Except.ok.inj h)
    exact ⟨a, ha, rfl⟩

namespace Record

variable {r : Record σ α} {P : σ → Prop} {s s' : σ}

/-- What is true of the state of a record stays true when the value of a member is read. -/
def Keeps (r : Record σ α) (P : σ → Prop) : Prop :=
  ∀ m ∈ r.members, ∀ {s s' : σ} {depth : Nat} {ts rest : List Token},
    P s → m.take s depth ts = .ok (s', rest) → P s'

/-- One member, declared or not, keeps it. -/
theorem Keeps.takeMember (h : r.Keeps P) {name : String} (hs : P s)
    (htake : r.takeMember depth s name ts = .ok (s', rest)) : P s' := by
  unfold Record.takeMember at htake
  split at htake
  · next m hm =>
    split at htake
    · simp at htake
    · split at htake
      · exact h m (List.mem_of_find?_eq_some hm) hs htake
      · simp at htake
  · split at htake
    · simp at htake
    · split at htake
      · next rest' =>
        cases hpass : passOver rest' with
        | error e => rw [hpass] at htake; simp [Except.map] at htake
        | ok after =>
          rw [hpass] at htake
          obtain ⟨rfl, -⟩ := Prod.mk.inj (Except.ok.inj htake)
          exact hs
      · simp at htake

/-- So do all members of an object. -/
theorem Keeps.takeObject (h : r.Keeps P) {n : Nat} {first : Bool} (hs : P s)
    (htake : r.takeObject depth n first s ts = .ok (s', rest)) : P s' := by
  induction n generalizing first s ts with
  | zero => simp [Record.takeObject] at htake
  | succ n ih =>
    rw [Record.takeObject] at htake
    split at htake
    · obtain ⟨rfl, -⟩ := Prod.mk.inj (Except.ok.inj htake)
      exact hs
    · simp at htake
    · split at htake
      · simp at htake
      · next s₁ rest₁ hmember => exact ih (h.takeMember hs hmember) htake

/-- So do the items of an array that stand for members. -/
theorem Keeps.takeArray (h : r.Keeps P) {ms : List (Member σ)} (hms : ∀ m ∈ ms, m ∈ r.members)
    {first : Bool} (hs : P s)
    (htake : r.takeArray depth first s ts ms = .ok (s', rest)) : P s' := by
  induction ms generalizing first s ts with
  | nil =>
    obtain ⟨rfl, -⟩ := Prod.mk.inj (Except.ok.inj htake)
    exact hs
  | cons m ms ih =>
    obtain ⟨hm, hms⟩ := List.forall_mem_cons.1 hms
    rw [Record.takeArray] at htake
    split at htake
    · split at htake
      · obtain ⟨rfl, -⟩ := Prod.mk.inj (Except.ok.inj htake)
        exact hs
      · simp at htake
    · simp at htake
    · split at htake
      · simp at htake
      · next s₁ rest₁ htaken => exact ih hms (h m hm hs htaken) htake

/-- A record that was read was finished in a state of which this is true, written as an object
or as an array. -/
theorem Keeps.exists_finish (h : r.Keeps P) (hstart : P r.start)
    (htake : r.take depth ts = .ok (a, rest)) : ∃ s, P s ∧ r.finish s = .ok a := by
  unfold Record.take at htake
  split at htake
  · simp at htake
  · simp at htake
  · split at htake
    · simp at htake
    · next s₁ rest₁ hobject =>
      split at htake
      · simp at htake
      · next b hb =>
        obtain ⟨rfl, -⟩ := Prod.mk.inj (Except.ok.inj htake)
        exact ⟨s₁, h.takeObject hstart hobject, hb⟩
  · split at htake
    · simp at htake
    · next s₁ rest₁ harray =>
      split at htake
      · simp at htake
      · next b hb =>
        split at htake
        · obtain ⟨rfl, -⟩ := Prod.mk.inj (Except.ok.inj htake)
          exact ⟨s₁, h.takeArray (fun _ hm => hm) hstart harray, hb⟩
        · simp at htake
  · simp at htake

end Record

theorem required_eq_ok_iff {name : String} {o : Option α} :
    required name o = .ok a ↔ o = some a := by
  cases o with
  | none => simp [required]
  | some b => simp [required]

/-- A text that was read has no tokens besides those of its value. -/
theorem take_of_readText_eq_ok {text : String} (h : readText value text = .ok a) :
    value nestingLimit (tokens text.toList) = .ok (a, []) := by
  unfold readText at h
  split at h
  · simp at h
  · next b hb =>
    obtain rfl := Except.ok.inj h
    exact hb
  · simp at h

end Read

/-- A text is read if its tokens are. -/
theorem readText_of_readsAs {text : String} (h : ReadsAs value nestingLimit v a)
    (htext : tokens text.toList = v.tokenList) : readText value text = .ok a := by
  have hvalue := h []
  rw [List.append_nil] at hvalue
  rw [readText, htext, hvalue]

end Json
end IndexPlanner
