import IndexPlanner.Json.Parser

/-!
# Objects without repeated names

An object is a list of members, so that their order is kept, and nothing in the type keeps
two of them from having the same name.  The reader does: a name that comes again takes the
place of its first value.  So whoever reads a document from a text may take it that no object
in it has a name twice.

* `NamesDistinct` says this of a value and of all values in it.
* `nodup_names_putMember` is what one more member preserves, `Reader.distinct_step` what one
  token preserves, and `Reader.namesDistinct_of_run` what a whole run preserves.
* `namesDistinct_of_parse?`: what is read from a text has distinct names.
-/

namespace IndexPlanner
namespace Json

/-- The members of an object; other values have none. -/
def members : Json → List (String × Json)
  | object ms => ms
  | _ => []

/-- The names of the members of an object. -/
def names (v : Json) : List String := v.members.map (·.1)

@[simp] theorem members_object (ms : List (String × Json)) : (object ms).members = ms := rfl

/-- No object in the value has two members with the same name. -/
inductive NamesDistinct : Json → Prop where
  | null : NamesDistinct null
  | bool (b : Bool) : NamesDistinct (bool b)
  | number (n : JsonNumber) : NamesDistinct (number n)
  | string (s : String) : NamesDistinct (string s)
  | array {items : List Json} (hitems : ∀ v ∈ items, NamesDistinct v) :
      NamesDistinct (array items)
  | object {ms : List (String × Json)} (hnames : (ms.map (·.1)).Nodup)
      (hvalues : ∀ m ∈ ms, NamesDistinct m.2) : NamesDistinct (object ms)

variable {v : Json} {ms : List (String × Json)}

attribute [simp] NamesDistinct.null NamesDistinct.bool NamesDistinct.number NamesDistinct.string

@[simp] theorem namesDistinct_array_iff {items : List Json} :
    (array items).NamesDistinct ↔ ∀ v ∈ items, v.NamesDistinct := by
  constructor
  · intro h
    cases h with
    | array hitems => exact hitems
  · exact .array

@[simp] theorem namesDistinct_object_iff :
    (object ms).NamesDistinct ↔ (ms.map (·.1)).Nodup ∧ ∀ m ∈ ms, m.2.NamesDistinct := by
  constructor
  · intro h
    cases h with
    | object hnames hvalues => exact ⟨hnames, hvalues⟩
  · rintro ⟨hnames, hvalues⟩
    exact .object hnames hvalues

theorem NamesDistinct.nodup_names (h : v.NamesDistinct) : v.names.Nodup := by
  cases h with
  | object hnames hvalues => exact hnames
  | _ => exact .nil

theorem NamesDistinct.of_mem_members (h : v.NamesDistinct) {m : String × Json}
    (hm : m ∈ v.members) : m.2.NamesDistinct := by
  cases h with
  | object hnames hvalues => exact hvalues m hm
  | _ => exact absurd hm List.not_mem_nil

/-! ## Reading -/

theorem mem_putMember {name : String} {m : String × Json} (h : m ∈ putMember ms name v) :
    m ∈ ms ∨ m = (name, v) := by
  induction ms with
  | nil => exact .inr (List.mem_singleton.1 h)
  | cons n ms ih =>
    rw [putMember] at h
    split at h
    · next heq =>
      rcases List.mem_cons.1 h with rfl | h
      · exact .inr (by rw [heq])
      · exact .inl (List.mem_cons_of_mem n h)
    · rcases List.mem_cons.1 h with rfl | h
      · exact .inl List.mem_cons_self
      · exact (ih h).imp_left (List.mem_cons_of_mem n)

/-- A member that is put among others takes the place of the one with its name. -/
theorem nodup_names_putMember {name : String} (h : (ms.map (·.1)).Nodup) :
    ((putMember ms name v).map (·.1)).Nodup := by
  induction ms with
  | nil => simp [putMember]
  | cons n ms ih =>
    obtain ⟨hn, hms⟩ := List.nodup_cons.1 h
    rw [putMember]
    split
    · exact List.nodup_cons.2 ⟨hn, hms⟩
    · next hne =>
      refine List.nodup_cons.2 ⟨fun hmem => ?_, ih hms⟩
      obtain ⟨m, hm, heq⟩ := List.mem_map.1 hmem
      rcases mem_putMember hm with hm | rfl
      · exact hn (List.mem_map.2 ⟨m, hm, heq⟩)
      · exact hne heq.symm

namespace Reader

/-- All that has been read inside of an open bracket has distinct names. -/
def Frame.Distinct : Frame → Prop
  | array items => ∀ v ∈ items, v.NamesDistinct
  | object ms _ => (ms.map (·.1)).Nodup ∧ ∀ m ∈ ms, m.2.NamesDistinct

/-- All that has been read after a move has distinct names. -/
def Move.Distinct : Move → Prop
  | go st => ∀ frame ∈ st.stack, frame.Distinct
  | done v => v.NamesDistinct
  | refuse => True

variable {mood : Mood} {stack : List Frame} {st : State} {t : Token} {ts rest : List Token}

/-- A bracket may stay open if all in it has distinct names. -/
theorem distinct_cons {mode : Mode} (frame : Frame) (hframe : frame.Distinct)
    (hstack : ∀ frame ∈ stack, frame.Distinct) :
    (Move.go ⟨mode, frame :: stack⟩).Distinct :=
  List.forall_mem_cons.2 ⟨hframe, hstack⟩

theorem distinct_deliver (hv : v.NamesDistinct) (hstack : ∀ frame ∈ stack, frame.Distinct) :
    (deliver v stack).Distinct := by
  cases stack with
  | nil => exact hv
  | cons frame stack =>
    obtain ⟨hframe, hrest⟩ := List.forall_mem_cons.1 hstack
    cases frame with
    | array items =>
      exact distinct_cons (.array _) (List.forall_mem_cons.2 ⟨hv, hframe⟩) hrest
    | object ms name =>
      obtain ⟨hnames, hvalues⟩ := hframe
      refine distinct_cons (.object _ _) ⟨nodup_names_putMember hnames, fun m hm => ?_⟩ hrest
      rcases mem_putMember hm with hm | rfl
      · exact hvalues m hm
      · exact hv

theorem distinct_stepValue (hstack : ∀ frame ∈ stack, frame.Distinct) :
    (stepValue mood stack t).Distinct := by
  unfold stepValue
  split
  · exact distinct_deliver .null hstack
  · exact distinct_deliver (.bool _) hstack
  · split
    · exact distinct_deliver (.number _) hstack
    · trivial
  · split
    · exact distinct_deliver (.string _) hstack
    · trivial
  · split
    · exact distinct_cons (.array []) (fun v hv => absurd hv List.not_mem_nil) hstack
    · trivial
  · split
    · exact distinct_cons (.object [] "") ⟨.nil, fun m hm => absurd hm List.not_mem_nil⟩ hstack
    · trivial
  · trivial

theorem distinct_stepName (hstack : ∀ frame ∈ stack, frame.Distinct) :
    (stepName mood stack t).Distinct := by
  unfold stepName
  split
  · split
    · obtain ⟨hframe, hrest⟩ := List.forall_mem_cons.1 hstack
      exact distinct_cons (.object _ _) hframe hrest
    · trivial
  · trivial

theorem distinct_stepClose (hstack : ∀ frame ∈ stack, frame.Distinct) :
    (stepClose stack t).Distinct := by
  unfold stepClose
  split
  · obtain ⟨hframe, hrest⟩ := List.forall_mem_cons.1 hstack
    exact distinct_deliver (.array fun v hv => hframe v (List.mem_reverse.1 hv)) hrest
  · obtain ⟨⟨hnames, hvalues⟩, hrest⟩ := List.forall_mem_cons.1 hstack
    exact distinct_deliver (.object hnames hvalues) hrest
  · trivial

/-- A token keeps names distinct. -/
theorem distinct_step (hst : ∀ frame ∈ st.stack, frame.Distinct) :
    (step mood st t).Distinct := by
  unfold step
  split
  · exact distinct_stepValue hst
  · split
    · exact distinct_stepClose hst
    · exact distinct_stepValue hst
  · split
    · exact distinct_stepClose hst
    · exact distinct_stepName hst
  · exact distinct_stepName hst
  · split
    · exact hst
    · trivial
  · split
    · exact hst
    · exact hst
    · exact distinct_stepClose hst

/-- A run that has read nothing with repeated names yet never will. -/
theorem namesDistinct_of_run (hst : ∀ frame ∈ st.stack, frame.Distinct)
    (h : run mood st ts = some (v, rest)) : v.NamesDistinct := by
  induction ts generalizing st with
  | nil => simp [run] at h
  | cons t ts ih =>
    have hstep : (step mood st t).Distinct := distinct_step hst
    rw [run] at h
    split at h
    · next next hnext =>
      rw [hnext] at hstep
      exact ih hstep h
    · next w hw =>
      rw [hw] at hstep
      obtain ⟨rfl, -⟩ := Prod.mk.inj (Option.some.inj h)
      exact hstep
    · simp at h

end Reader

/-- What is read from a text has distinct names. -/
theorem namesDistinct_of_parse? {text : String} (h : parse? text = some v) :
    v.NamesDistinct := by
  unfold parse? at h
  split at h
  · next w hread =>
    obtain rfl := Option.some.inj h
    exact Reader.namesDistinct_of_run (fun frame hframe => absurd hframe List.not_mem_nil) hread
  · simp at h

end Json
end IndexPlanner
