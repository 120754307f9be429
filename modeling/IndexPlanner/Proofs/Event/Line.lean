import IndexPlanner.Event
import IndexPlanner.FieldSet
import IndexPlanner.Proofs.Json.OneLine
import IndexPlanner.Proofs.Json.Reading
import IndexPlanner.Proofs.Text.Bytes
import Mathlib.Data.List.Nodup

/-!
# The line of an event

An event may tell of names that a user has chosen: of indexes, of fields, of files.  Its line must
still be one line that holds one object, or such a name could make up an event of its own, or hide
the one it is in.  Strings are written without control characters, so there is no other end of a
line in it; and a reader finds every key once, with the value that was given to it last.

The object starts with the name and the severity of the event.  The fields are sorted by their keys
before they are put into it, and the sort is stable, so of several fields with one key the last one
is still the last.  A field whose key is that of one of the first two members takes the place of
its value, and the member stays where it is.

* `names_putMember`, `member?_putMember`: what one more member does to the names and to the values
  of an object.
* `member?_foldl_putMember`, `exists_names_foldl_putMember`: what a row of members does, the latter
  for members whose names are in ascending order.
* `filter_sortedFields`: the fields with a key are in the same order after the sort.
* `Event.line_tells` has all of it.
-/

namespace IndexPlanner

/-! ## Members that are put into an object -/

section members

variable {α : Type} {ms ns : List (String × α)} {name key : String} {v : α}

/-- A member with a new name comes last, and one whose name is there adds none. -/
theorem names_putMember (ms : List (String × α)) (name : String) (v : α) :
    (putMember ms name v).map (·.1) =
      if name ∈ ms.map (·.1) then ms.map (·.1) else ms.map (·.1) ++ [name] := by
  split
  · next hmem =>
    induction ms with
    | nil => exact absurd hmem List.not_mem_nil
    | cons m ms ih =>
      obtain ⟨n, w⟩ := m
      rw [putMember]
      split
      · rfl
      · next hne =>
        rw [List.map_cons, List.map_cons, ih ((List.mem_cons.1 hmem).resolve_left (Ne.symm hne))]
  · next hmem => rw [putMember_of_notMem v hmem, List.map_append, List.map_singleton]

@[simp] theorem member?_nil : member? ([] : List (String × α)) key = none := rfl

theorem member?_cons {m : String × α} :
    member? (m :: ms) key = if m.1 = key then some m.2 else member? ms key := by
  rw [member?, List.find?_cons]
  by_cases h : m.1 = key <;> simp [h, member?]

theorem member?_append : member? (ms ++ ns) key = (member? ms key).or (member? ns key) := by
  rw [member?, List.find?_append, Option.map_or]
  rfl

/-- A member that is put into an object gives its name a value and leaves all others alone. -/
theorem member?_putMember :
    member? (putMember ms name v) key = if name = key then some v else member? ms key := by
  induction ms with
  | nil => rw [putMember, member?_cons]
  | cons m ms ih =>
    obtain ⟨n, w⟩ := m
    rw [putMember]
    split
    · next heq =>
      subst heq
      simp only [member?_cons]
      split <;> rfl
    · next hne =>
      rw [member?_cons, member?_cons, ih]
      by_cases hkey : n = key
      · rw [if_pos hkey, if_pos hkey, if_neg (by rintro rfl; exact hne hkey)]
      · rw [if_neg hkey, if_neg hkey]

/-- Of several members with one name that are put into an object the last one counts. -/
theorem member?_foldl_putMember {β : Type} (f : β → α) (fields : List (String × β)) :
    member? (fields.foldl (fun ms field => putMember ms field.1 (f field.2)) ms) key =
      ((member? fields.reverse key).map f).or (member? ms key) := by
  induction fields generalizing ms with
  | nil => rfl
  | cons field fields ih =>
    rw [List.foldl_cons, ih, member?_putMember, List.reverse_cons, member?_append, member?_cons,
      Option.map_or, Option.or_assoc]
    split <;> rfl

/-- Members whose names ascend add a row of ascending names, which are those that are not there
yet.  A name that comes again follows its first occurrence, so it is the last one of the row. -/
theorem exists_names_foldl_putMember {β : Type} (f : β → α) {fields : List (String × β)}
    {heads keys : List String} (hnames : ms.map (·.1) = heads ++ keys) (hkeys : Ascending keys)
    (hsorted : fields.Pairwise fun a b => ¬ Text.Before b.1 a.1)
    (hlast : ∀ key ∈ keys, ∀ field ∈ fields, ¬ Text.Before field.1 key) :
    ∃ keys', (fields.foldl (fun ms field => putMember ms field.1 (f field.2)) ms).map (·.1) =
        heads ++ keys' ∧
      Ascending keys' ∧
      ∀ key, key ∈ keys' ↔ key ∈ keys ∨ key ∈ fields.map (·.1) ∧ key ∉ heads := by
  induction fields generalizing ms keys with
  | nil => exact ⟨keys, hnames, hkeys, fun key => by simp⟩
  | cons field fields ih =>
    obtain ⟨hfirst, hsorted⟩ := List.pairwise_cons.1 hsorted
    have hput := names_putMember ms field.1 (f field.2)
    rw [hnames] at hput
    by_cases hmem : field.1 ∈ heads ++ keys
    · rw [if_pos hmem] at hput
      obtain ⟨keys', hnames', hkeys', hiff⟩ := ih hput hkeys hsorted fun key hkey field hfield =>
        hlast key hkey field (List.mem_cons_of_mem _ hfield)
      refine ⟨keys', hnames', hkeys', fun key => ?_⟩
      rw [hiff, List.map_cons, List.mem_cons]
      refine ⟨Or.imp_right (And.imp_left .inr), ?_⟩
      rintro (hkey | ⟨rfl | hkey, hhead⟩)
      · exact .inl hkey
      · exact .inl ((List.mem_append.1 hmem).resolve_left hhead)
      · exact .inr ⟨hkey, hhead⟩
    · rw [if_neg hmem, List.append_assoc] at hput
      rw [List.mem_append, not_or] at hmem
      have hbefore : ∀ key ∈ keys, Text.Before key field.1 := by
        intro key hkey
        rcases Text.before_trichotomy key field.1 with hlt | rfl | hgt
        · exact hlt
        · exact absurd hkey hmem.2
        · exact absurd hgt (hlast key hkey field List.mem_cons_self)
      have hkeys' : Ascending (keys ++ [field.1]) := by
        refine List.pairwise_append.2 ⟨hkeys, List.pairwise_singleton _ _, fun key hkey g hg => ?_⟩
        rw [List.mem_singleton.1 hg]
        exact hbefore key hkey
      have hlast' : ∀ key ∈ keys ++ [field.1], ∀ g ∈ fields, ¬ Text.Before g.1 key := by
        intro key hkey g hg
        rcases List.mem_append.1 hkey with hkey | hkey
        · exact hlast key hkey g (List.mem_cons_of_mem _ hg)
        · rw [List.mem_singleton.1 hkey]
          exact hfirst g hg
      obtain ⟨keys', hnames', hkeys', hiff⟩ := ih hput hkeys' hsorted hlast'
      refine ⟨keys', hnames', hkeys', fun key => ?_⟩
      rw [hiff, List.map_cons, List.mem_cons, List.mem_append, List.mem_singleton, or_assoc,
        or_and_right]
      refine or_congr_right (or_congr_left ⟨?_, And.left⟩)
      rintro rfl
      exact ⟨rfl, hmem.1⟩

end members

/-- That one text does not come after another one, as a comparison. -/
theorem Text.not_before_iff_isLE {s t : String} : ¬ Before t s ↔ (compare s t).isLE = true := by
  rw [← compare_eq_gt_iff]
  cases compare s t <;> simp

namespace Event

variable {e : Event} {key : String} {fields : List (String × String)}

/-! ## The fields in the order of their keys -/

/-- Whether a field may stand before another one. -/
def mayPrecede (a b : String × String) : Bool := ¬ Text.Before b.1 a.1

theorem mayPrecede_iff {a b : String × String} :
    mayPrecede a b = true ↔ ¬ Text.Before b.1 a.1 := decide_eq_true_iff

theorem mayPrecede_trans (a b c : String × String) (hab : mayPrecede a b = true)
    (hbc : mayPrecede b c = true) : mayPrecede a c = true := by
  rw [mayPrecede_iff, Text.not_before_iff_isLE] at hab hbc ⊢
  exact Std.TransCmp.isLE_trans hab hbc

theorem mayPrecede_total (a b : String × String) :
    (mayPrecede a b || mayPrecede b a) = true := by
  rw [Bool.or_eq_true, mayPrecede_iff, mayPrecede_iff, ← Decidable.not_and_iff_not_or_not]
  exact fun h => Text.not_before_of_before h.1 h.2

theorem sortedFields_eq (e : Event) : e.sortedFields = e.fields.mergeSort mayPrecede := rfl

theorem pairwise_sortedFields (e : Event) : e.sortedFields.Pairwise (mayPrecede · ·) := by
  rw [sortedFields_eq]
  exact List.pairwise_mergeSort mayPrecede_trans mayPrecede_total _

theorem perm_sortedFields (e : Event) : e.sortedFields.Perm e.fields := List.mergeSort_perm _ _

/-- The fields with a key stay in their order. -/
theorem filter_sortedFields (e : Event) (key : String) :
    e.sortedFields.filter (·.1 = key) = e.fields.filter (·.1 = key) := by
  have hordered : (e.fields.filter (·.1 = key)).Pairwise (mayPrecede · ·) := by
    refine List.pairwise_iff_forall_sublist.2 fun {a b} hab => ?_
    have hkey : ∀ f ∈ [a, b], f.1 = key := fun f hf =>
      of_decide_eq_true (List.mem_filter.1 (hab.subset hf)).2
    rw [mayPrecede_iff, hkey a (by simp), hkey b (by simp)]
    exact Text.not_before_self key
  have hsublist : (e.fields.filter (·.1 = key)).Sublist e.sortedFields := by
    rw [sortedFields_eq]
    exact List.sublist_mergeSort mayPrecede_trans mayPrecede_total
      hordered List.filter_sublist
  have hfilter := hsublist.filter (·.1 = key)
  simp only [List.filter_filter, Bool.and_self] at hfilter
  exact (hfilter.eq_of_length ((perm_sortedFields e).filter _).length_eq.symm).symm

/-! ## What a line tells -/

/-- The value that was given to a key last.  The name and the severity of the event are given
first. -/
def value? (e : Event) (key : String) : Option String :=
  (member? e.fields.reverse key).or
    (member? [("event", e.name), ("severity", e.severity.name)] key)

theorem member?_members (e : Event) (key : String) :
    member? e.members key = (e.value? key).map .string := by
  have hheads : member? [("event", Json.string e.name), ("severity", .string e.severity.name)] key =
      (member? [("event", e.name), ("severity", e.severity.name)] key).map .string := by
    simp only [member?_cons, member?_nil]
    split
    · rfl
    · split <;> rfl
  have hsorted : member? e.sortedFields.reverse key = member? e.fields.reverse key := by
    rw [member?, member?, ← List.head?_filter, ← List.head?_filter, List.filter_reverse,
      List.filter_reverse, filter_sortedFields]
  rw [members, member?_foldl_putMember, hheads, hsorted, value?, Option.map_or]

/-- The keys of an object that tells of an event, and their values: the name and the severity come
first, the other keys ascend by their bytes, and the value given last counts. -/
structure ToldBy (e : Event) (ms : List (String × Json)) : Prop where
  names : ∃ keys, ms.map (·.1) = "event" :: "severity" :: keys ∧
    keys.Pairwise Text.BytesBefore ∧
    ∀ key, key ∈ keys ↔ key ∈ e.fields.map (·.1) ∧ key ≠ "event" ∧ key ≠ "severity"
  values : ∀ key, member? ms key = (e.value? key).map .string

theorem toldBy_members (e : Event) : e.ToldBy e.members := by
  have hsorted : e.sortedFields.Pairwise fun a b => ¬ Text.Before b.1 a.1 :=
    (pairwise_sortedFields e).imp mayPrecede_iff.1
  have hheads : [("event", Json.string e.name), ("severity", .string e.severity.name)].map (·.1) =
      ["event", "severity"] ++ [] := rfl
  obtain ⟨keys, hnames, hkeys, hiff⟩ := exists_names_foldl_putMember Json.string hheads
    ascending_nil hsorted fun key hkey => absurd hkey List.not_mem_nil
  refine ⟨⟨keys, hnames, hkeys.imp Text.before_iff_bytesBefore.1, fun key => ?_⟩,
    member?_members e⟩
  have hperm := (perm_sortedFields e).map (·.1)
  rw [hiff, hperm.mem_iff]
  simp

/-- Members with different names, all of which are strings. -/
structure NamedStrings (ms : List (String × Json)) : Prop where
  nodup : (ms.map (·.1)).Nodup
  exists_text : ∀ m ∈ ms, ∃ text, m.2 = Json.string text

namespace NamedStrings

variable {ms : List (String × Json)}

theorem put (h : NamedStrings ms) (name text : String) :
    NamedStrings (putMember ms name (.string text)) := by
  refine ⟨Json.nodup_names_putMember h.nodup, fun m hm => ?_⟩
  rcases Json.mem_putMember hm with hm | rfl
  · exact h.exists_text m hm
  · exact ⟨text, rfl⟩

theorem foldl_put (h : NamedStrings ms) (fields : List (String × String)) :
    NamedStrings (fields.foldl (fun ms field => putMember ms field.1 (.string field.2)) ms) := by
  induction fields generalizing ms with
  | nil => exact h
  | cons field fields ih => exact ih (h.put field.1 field.2)

/-- What holds of all strings holds of the values of all members. -/
theorem forall_mem {P : Json → Prop} (h : NamedStrings ms) (hP : ∀ text, P (.string text)) :
    ∀ m ∈ ms, P m.2 := by
  intro m hm
  obtain ⟨text, htext⟩ := h.exists_text m hm
  rw [htext]
  exact hP text

end NamedStrings

theorem namedStrings_members (e : Event) : NamedStrings e.members := by
  have hheads : NamedStrings [("event", .string e.name), ("severity", .string e.severity.name)] :=
    ⟨(by decide : ["event", "severity"].Nodup), by simp⟩
  exact hheads.foldl_put e.sortedFields

theorem exact_members (e : Event) : (Json.object e.members).Exact :=
  .object ((namedStrings_members e).forall_mem .string)

/-- A reader finds the members of an event in its line. -/
theorem parse?_line (e : Event) : Json.parse? e.line = some (.object e.members) := by
  have hstrings := namedStrings_members e
  have hdistinct : (Json.object e.members).NamesDistinct :=
    .object hstrings.nodup (hstrings.forall_mem .string)
  have hnested : (Json.object e.members).NestedWithin Json.nestingLimit :=
    .object (hstrings.forall_mem (.string _))
  have hends : Json.EndsNumber ['\n'] := by
    rintro c ⟨⟩
    decide
  have htext : e.line.toList = (Json.object e.members).compact.toList ++ ['\n'] :=
    String.toList_append
  have htokens : Json.tokens e.line.toList = (Json.object e.members).tokenList ++ [] := by
    rw [htext, Json.compact, Json.tokens_textAt (exact_members e) hends,
      Json.tokens_of_isBlank (by decide), Json.tokens]
  rw [Json.parse?, htokens, Json.Reader.read_tokenList hdistinct hnested]

/-- The only end of a line in the line of an event is its own. -/
theorem exists_line_eq (e : Event) : ∃ body, e.line = body ++ "\n" ∧ '\n' ∉ body.toList :=
  ⟨_, rfl, (Json.unbroken_compact (exact_members e)).newline_notMem⟩

/-- If the keys are different, the order in which the fields were given is not seen. -/
theorem line_eq_of_perm (hkeys : (e.fields.map (·.1)).Nodup) (h : fields.Perm e.fields) :
    (Event.mk e.severity e.name fields).line = e.line := by
  have hsame : (Event.mk e.severity e.name fields).sortedFields.Perm e.sortedFields :=
    (perm_sortedFields _).trans (h.trans (perm_sortedFields e).symm)
  have hsorted : (Event.mk e.severity e.name fields).sortedFields = e.sortedFields := by
    refine List.Perm.eq_of_pairwise (fun a b ha hb hab hba => ?_) (pairwise_sortedFields _)
      (pairwise_sortedFields e) hsame
    have ha' : a ∈ e.fields := (perm_sortedFields e).subset (hsame.subset ha)
    have hb' : b ∈ e.fields := (perm_sortedFields e).subset hb
    refine List.inj_on_of_nodup_map hkeys ha' hb' ?_
    rcases Text.before_trichotomy a.1 b.1 with hlt | heq | hgt
    · exact absurd hlt (mayPrecede_iff.1 hba)
    · exact heq
    · exact absurd hgt (mayPrecede_iff.1 hab)
  rw [line, members, hsorted]
  rfl

/-- **An event is one line that holds one object.**  Its only end of a line is the last character,
and a reader finds in it the name of the event, its severity, and then every other key once, in
the order of the bytes, with the value that was given to it last; a field whose key is that of the
name or the severity takes the place of that value only.  So if the keys are different, the line is
the same for every order of the fields. -/
theorem line_tells (e : Event) :
    (∃ body, e.line = body ++ "\n" ∧ '\n' ∉ body.toList) ∧
    (∃ ms, Json.parse? e.line = some (.object ms) ∧ e.ToldBy ms) ∧
    ((e.fields.map (·.1)).Nodup → ∀ fields : List (String × String), fields.Perm e.fields →
      (Event.mk e.severity e.name fields).line = e.line) :=
  ⟨exists_line_eq e, ⟨e.members, parse?_line e, toldBy_members e⟩,
    fun hkeys _ h => line_eq_of_perm hkeys h⟩

/-- An event on an index whose name tries to end the line and to start one of its own. -/
def forgedWarning : Event where
  severity := .info
  name := "CATALOG_INDEX_ADDED"
  fields := [("name", "old\n\x7b\"event\":\"IN_MEMORY_SORT_RISK\"\x7d"), ("event", "\\"),
    ("hash", "crc32:0")]

/-- The event is one line, whatever the order of its fields, and its name is read back. -/
theorem line_tells_forgedWarning :
    (∃ body, forgedWarning.line = body ++ "\n" ∧ '\n' ∉ body.toList) ∧
    (∃ ms, Json.parse? forgedWarning.line = some (.object ms) ∧
      member? ms "event" = some (.string "\\") ∧
      member? ms "name" =
        some (.string "old\n\x7b\"event\":\"IN_MEMORY_SORT_RISK\"\x7d")) ∧
    (Event.mk .info "CATALOG_INDEX_ADDED" forgedWarning.fields.reverse).line =
      forgedWarning.line := by
  obtain ⟨hline, ⟨ms, hparse, htold⟩, hperm⟩ := line_tells forgedWarning
  refine ⟨hline, ⟨ms, hparse, ?_, ?_⟩, hperm (by decide) _ forgedWarning.fields.reverse_perm⟩
  · rw [htold.values]
    rfl
  · rw [htold.values]
    rfl

end Event

end IndexPlanner
