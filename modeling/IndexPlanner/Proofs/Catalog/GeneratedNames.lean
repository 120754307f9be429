import IndexPlanner.Proofs.Advice.Coverage
import IndexPlanner.Proofs.Catalog.Exchange
import IndexPlanner.Proofs.IndexDefinition.Defining
import IndexPlanner.Proofs.Text.Pieces

/-!
# Names made of keys

An index that nobody has named is named after its keys.  Low lines join the field of a key to its
direction and one key to the next, and a field may have low lines of its own, so the name does not
say where a field ends: the ascending keys on `a` and `b` make the name `a_1_b_1`, and so does one
ascending key on `a_1_b`.  A catalog in which all names were made in this way can then refuse an
index for its name although its keys are new, and it can be the index that was just recommended.

Cut at the low lines, a name is the pieces of its keys in a row, and there is no other reason for
two names to be the same: where the keys part, one of the two fields begins with the other key.

* `Key.Begins` says of a key and a field that the name of the field begins with the key, and
  `Plain` that no key does this.
* `generatedName_eq_iff`: which keys have the same name, by their pieces.
* `part_of_generatedName_eq`, `generatedName_inj_of_plain`: where keys with the same name part, and
  that plain fields are safe.
* `NamesGenerated.after`: names stay generated under requests that add such indexes or drop any.
* `generatedName_not_injective_address` has a catalog that refuses what was recommended for it, and
  `generatedNames_clash_only_at_fields` says what holds of all.
-/

namespace IndexPlanner

/-! ## Fields that begin with a key -/

theorem Direction.keyText_inj {d e : Direction} : d.keyText = e.keyText ↔ d = e := by
  cases d <;> cases e <;> decide

namespace Key

/-- The part of a generated name that is about one key. -/
def nameText (k : Key) : String := k.field ++ "_" ++ k.direction.keyText

/-- The name of a field begins with a key, up to its end or to a low line. -/
def Begins (k : Key) (field : String) : Prop :=
  field = k.nameText ∨ ∃ rest, field = k.nameText ++ "_" ++ rest

/-- The pieces of the part of a generated name that is about one key. -/
def pieces (k : Key) : List String := Text.pieces '_' k.field ++ [k.direction.keyText]

variable {k l : Key}

theorem pieces_nameText (k : Key) : Text.pieces '_' k.nameText = k.pieces := by
  have hdirection : '_' ∉ k.direction.keyText.toList := by cases k.direction <;> decide
  rw [pieces, ← Text.pieces_of_notMem hdirection]
  exact Text.pieces_append '_' k.field k.direction.keyText

theorem pieces_inj : k.pieces = l.pieces ↔ k = l := by
  refine ⟨fun h => ?_, fun h => h ▸ rfl⟩
  obtain ⟨hfield, hdirection⟩ := List.append_singleton_inj.1 h
  cases k with
  | mk f d =>
    cases l with
    | mk g e =>
      obtain rfl : f = g := Text.pieces_inj.1 hfield
      obtain rfl : d = e := Direction.keyText_inj.1 hdirection
      rfl

/-- If the first pieces of a field are those of a key, its name begins with the key. -/
theorem begins_of_pieces {field : String} (h : k.pieces <+: Text.pieces '_' field) :
    k.Begins field := by
  obtain ⟨more, hmore⟩ := h
  rw [← pieces_nameText] at hmore
  by_cases hnil : more = []
  · rw [hnil, List.append_nil] at hmore
    exact .inl (Text.pieces_inj.1 hmore).symm
  · refine .inr ⟨"_".intercalate more, ?_⟩
    rw [← Text.intercalate_pieces '_' field, ← hmore,
      String.intercalate_append_of_ne_nil (Text.pieces_ne_nil _ _) hnil, Text.intercalate_pieces]
    rfl

/-- Of two keys whose pieces go on to the same pieces, one is the other or begins its field. -/
theorem eq_or_begins_of_append_eq {ps qs : List String} (h : k.pieces ++ ps = l.pieces ++ qs) :
    k = l ∨ k.Begins l.field ∨ l.Begins k.field := by
  have hcut {k l : Key} (hpre : k.pieces <+: l.pieces) : k = l ∨ k.Begins l.field := by
    rcases List.prefix_concat_iff.1 hpre with heq | hfield
    · exact .inl (pieces_inj.1 heq)
    · exact .inr (begins_of_pieces hfield)
  rcases List.prefix_or_prefix_of_prefix (List.prefix_append _ ps) (h ▸ List.prefix_append _ qs)
    with hpre | hpre
  · exact (hcut hpre).imp_right .inl
  · rcases hcut hpre with heq | hbegins
    · exact .inl heq.symm
    · exact .inr (.inr hbegins)

end Key

/-- The name of a field does not begin with a key: it is not some name and a direction, nor does
it go on with a low line after them. -/
def Plain (field : String) : Prop := ∀ k : Key, k.field ≠ "" → ¬ k.Begins field

/-- Without a low line a name begins with no key. -/
theorem plain_of_notMem {field : String} (h : '_' ∉ field.toList) : Plain field := by
  rintro k - (hfield | ⟨rest, hfield⟩) <;>
  · refine h ?_
    rw [hfield]
    simp [Key.nameText]

namespace IndexDefinition

variable {a b keys : List Key} {d : IndexDefinition}

/-! ## What a generated name tells -/

theorem pieces_generatedName (h : keys ≠ []) :
    Text.pieces '_' (generatedName keys) = keys.flatMap Key.pieces := by
  induction keys with
  | nil => exact absurd rfl h
  | cons k ks ih =>
    rw [List.flatMap_cons, ← Key.pieces_nameText]
    cases ks with
    | nil =>
      rw [List.flatMap_nil, List.append_nil, generatedName, List.map_singleton,
        String.intercalate_singleton]
      rfl
    | cons l ls =>
      rw [← ih (List.cons_ne_nil l ls)]
      have hname : generatedName (k :: l :: ls) = k.nameText ++ "_" ++ generatedName (l :: ls) :=
        String.intercalate_cons_cons
      rw [hname]
      exact Text.pieces_append '_' k.nameText (generatedName (l :: ls))

theorem flatMap_pieces_ne_nil (h : keys ≠ []) : keys.flatMap Key.pieces ≠ [] := by
  rw [← pieces_generatedName h]
  exact Text.pieces_ne_nil _ _

/-- Keys have the same name iff they have the same pieces. -/
theorem generatedName_eq_iff :
    generatedName a = generatedName b ↔ a.flatMap Key.pieces = b.flatMap Key.pieces := by
  by_cases ha : a = []
  · by_cases hb : b = []
    · rw [ha, hb]
      simp
    · rw [ha]
      exact iff_of_false (generatedName_ne_empty hb).symm (flatMap_pieces_ne_nil hb).symm
  · by_cases hb : b = []
    · rw [hb]
      exact iff_of_false (generatedName_ne_empty ha) (flatMap_pieces_ne_nil ha)
    · rw [← pieces_generatedName ha, ← pieces_generatedName hb, Text.pieces_inj]

/-- Two lists of keys are the same up to some place, and there one of the two fields begins with
the other key. -/
def PartAtField (a b : List Key) : Prop :=
  ∃ same k l ks ls, a = same ++ k :: ks ∧ b = same ++ l :: ls ∧ k ≠ l ∧
    (k.Begins l.field ∨ l.Begins k.field)

/-- Different keys with the same name part where a field begins with a key. -/
theorem part_of_generatedName_eq (h : generatedName a = generatedName b) (hne : a ≠ b) :
    PartAtField a b := by
  rw [generatedName_eq_iff] at h
  induction a generalizing b with
  | nil =>
    rw [List.flatMap_nil] at h
    exact absurd h.symm (flatMap_pieces_ne_nil hne.symm)
  | cons k ks ih =>
    cases b with
    | nil =>
      rw [List.flatMap_nil] at h
      exact absurd h (flatMap_pieces_ne_nil hne)
    | cons l ls =>
      rw [List.flatMap_cons, List.flatMap_cons] at h
      by_cases hkl : k = l
      · subst hkl
        -- the pieces of the same key can be taken away
        obtain ⟨same, k', l', ks', ls', rfl, rfl, hpart⟩ :=
          ih (List.append_cancel_left h) fun heq => hne (heq ▸ rfl)
        exact ⟨k :: same, k', l', ks', ls', rfl, rfl, hpart⟩
      · exact ⟨[], k, l, ks, ls, rfl, rfl, hkl,
          (Key.eq_or_begins_of_append_eq h).resolve_left hkl⟩

/-- Keys on plain fields do not part in this way. -/
theorem not_partAtField_of_plain (ha : SoundKeys a) (hb : SoundKeys b)
    (hplain : ∀ k ∈ a, Plain k.field) (hplain' : ∀ k ∈ b, Plain k.field) : ¬ PartAtField a b := by
  rintro ⟨same, k, l, ks, ls, rfl, rfl, -, hbegins | hbegins⟩
  · exact hplain' l (by simp) k (ha.named k (by simp)) hbegins
  · exact hplain k (by simp) l (hb.named l (by simp)) hbegins

/-- Keys on plain fields are told apart by their names. -/
theorem generatedName_inj_of_plain (ha : SoundKeys a) (hb : SoundKeys b)
    (hplain : ∀ k ∈ a, Plain k.field) (hplain' : ∀ k ∈ b, Plain k.field)
    (h : generatedName a = generatedName b) : a = b :=
  Classical.byContradiction fun hne =>
    not_partAtField_of_plain ha hb hplain hplain' (part_of_generatedName_eq h hne)

theorem soundKeys (d : IndexDefinition) : SoundKeys d.keys := ⟨d.fieldsNamed, d.nodup⟩

/-- A definition is named after its keys iff this is its name. -/
theorem defineGenerated_eq_ok_iff :
    defineGenerated d.keys = .ok d ↔ d.name = generatedName d.keys := by
  rw [defineGenerated, define_eq_ok_iff, and_iff_left rfl]

end IndexDefinition

open IndexDefinition

namespace Catalog

variable {c : Catalog} {d : IndexDefinition} {requests : List Request}

/-! ## Catalogs in which all names are generated -/

/-- A request to add an index that is named after its keys, or to drop one. -/
def Request.IsGenerated : Request → Prop
  | .add d => defineGenerated d.keys = .ok d
  | .drop _ => True
  | .replaceAll _ => False

/-- All registered indexes are named after their keys. -/
def NamesGenerated (c : Catalog) : Prop := ∀ d ∈ c.indexes, d.name = generatedName d.keys

/-- One request leaves all names generated, whether it is made or refused. -/
theorem NamesGenerated.perform (h : c.NamesGenerated) {r : Request} (hr : r.IsGenerated) :
    (c.perform r).catalog.NamesGenerated := by
  rcases succeeds_or_fails_perform c r with ⟨ds, hmade⟩ | hrefused
  · intro d hd
    cases r with
    | add e =>
      have hadded : (c.perform (.add e)).catalog.indexes = c.indexes ++ [e] :=
        (add_succeeds_of_isOk hmade.isOk).indexes
      rw [hadded, List.mem_append, List.mem_singleton] at hd
      rcases hd with hd | rfl
      · exact h d hd
      · exact defineGenerated_eq_ok_iff.1 hr
    | drop name =>
      obtain ⟨e, he, rfl, hdropped⟩ := drop_succeeds_of_isOk hmade.isOk
      have herased : (c.perform (.drop e.name)).catalog.indexes = c.indexes.erase e :=
        hdropped.indexes
      rw [herased] at hd
      exact h d (List.mem_of_mem_erase hd)
    | replaceAll ds => exact absurd hr id
  · rw [hrefused.catalog]
    exact h

/-- All names stay generated. -/
theorem NamesGenerated.after (h : c.NamesGenerated) (hrequests : ∀ r ∈ requests, r.IsGenerated) :
    (c.after requests).NamesGenerated := by
  induction requests generalizing c with
  | nil => exact h
  | cons r rs ih =>
    obtain ⟨hr, hrs⟩ := List.forall_mem_cons.1 hrequests
    exact ih (h.perform hr) hrs

theorem namesGenerated_empty : empty.NamesGenerated := fun _ hd => absurd hd List.not_mem_nil

/-- An index is refused for a name that keys registered before have made as well, and for nothing
else.  Such keys part from its own where a field begins with a key, so an index on plain fields is
not refused beside others on plain fields. -/
structure RefusesOnlyParted (c : Catalog) (d : IndexDefinition) : Prop where
  error_iff : ∀ error, (c.add d).outcome = .error error ↔ error = .nameInUse d.name ∧
    ∃ e ∈ c.indexes, generatedName e.keys = generatedName d.keys
  parted : ∀ e ∈ c.indexes, generatedName e.keys = generatedName d.keys → PartAtField e.keys d.keys
  plain : (∀ e ∈ c.indexes, ∀ k ∈ e.keys, Plain k.field) → (∀ k ∈ d.keys, Plain k.field) →
    (c.add d).outcome.isOk = true

/-- Where all names are generated, an index with new keys and a generated name is refused only for
keys that part from its own at a field. -/
theorem NamesGenerated.refusesOnlyParted (h : c.NamesGenerated)
    (hname : d.name = generatedName d.keys) (hkeys : ∀ e ∈ c.indexes, e.keys ≠ d.keys) :
    c.RefusesOnlyParted d := by
  have hne : d.keys ≠ [] := by
    intro hnil
    rw [hnil] at hname
    exact d.named hname
  have hparted : ∀ e ∈ c.indexes, generatedName e.keys = generatedName d.keys →
      PartAtField e.keys d.keys := fun e he heq => part_of_generatedName_eq heq (hkeys e he)
  refine ⟨fun error => ?_, hparted, fun hplain hplain' => ?_⟩
  · rw [outcome_add_eq_error_iff hne hkeys, hname]
    exact and_congr_right fun _ => exists_congr fun e => and_congr_right fun he => by rw [h e he]
  · refine isOk_add_iff.2 ⟨hne, fun e he => ⟨hkeys e he, fun heq => ?_⟩⟩
    rw [h e he, hname] at heq
    exact not_partAtField_of_plain e.soundKeys d.soundKeys (hplain e he) hplain' (hparted e he heq)

/-! ## A name that two lists of keys make -/

/-- An index on one field, which was made of the parts of an address. -/
def byFlatAddress : IndexDefinition where
  name := "address_1_city_1"
  keys := [Key.asc "address_1_city"]
  named := by decide
  nodup := by decide
  fieldsNamed := by decide

/-- An index on another field. -/
def byStreet : IndexDefinition where
  name := "street_1"
  keys := [Key.asc "street"]
  named := by decide
  nodup := by decide
  fieldsNamed := by decide

/-- A query for all that is at an address in a city. -/
def atAddressInCity : QueryShape where
  equality := ⟨["address", "city"], by decide⟩
  sort := []
  range := .empty
  nodup := by decide
  named := by decide

/-- Two lists of keys make one name, so an index that was just recommended is refused, although
its keys are new and all names are generated. -/
theorem generatedName_not_injective_address :
    ¬ (∀ a b : List Key, (∃ d, defineGenerated a = .ok d) → (∃ d, defineGenerated b = .ok d) →
      generatedName a = generatedName b → a = b) ∧
    (∀ r ∈ [Request.add byFlatAddress], r.IsGenerated) ∧
    ∃ d, (Advisor.standard.adviceOn atAddressInCity (empty.after [.add byFlatAddress])
        none).recommendation? = some d ∧
      defineGenerated d.keys = .ok d ∧
      (∀ e ∈ (empty.after [.add byFlatAddress]).indexes, e.keys ≠ d.keys) ∧
      ((empty.after [.add byFlatAddress]).add d).outcome = .error (.nameInUse d.name) := by
  have hflat : defineGenerated byFlatAddress.keys = .ok byFlatAddress :=
    defineGenerated_eq_ok_iff.2 (by decide)
  have hindexes : (empty.after [.add byFlatAddress]).indexes = [byFlatAddress] := by decide +kernel
  have hfields : atAddressInCity.isEmpty = false := by decide
  obtain ⟨d, hd, hkeys⟩ := exists_recommend_eq_ok hfields
  have hname : d.name = generatedName d.keys := by
    rw [(recommend_eq_ok_iff.1 hd).2.1, hkeys]
  have hgenerated : defineGenerated d.keys = .ok d := defineGenerated_eq_ok_iff.2 hname
  have hsame : generatedName byFlatAddress.keys = generatedName d.keys := by
    rw [hkeys]
    decide
  have hnew : byFlatAddress.keys ≠ d.keys := by
    rw [hkeys]
    decide
  have hfresh : ∀ e ∈ (empty.after [.add byFlatAddress]).indexes, e.keys ≠ d.keys := by
    rw [hindexes]
    exact List.forall_mem_singleton.2 hnew
  refine ⟨fun h => hnew (h _ _ ⟨_, hflat⟩ ⟨d, hgenerated⟩ hsame),
    List.forall_mem_singleton.2 hflat, d, ?_, hgenerated, hfresh, ?_⟩
  · refine Advisor.recommendation?_adviceOn_eq_some_iff.2 ⟨?_, hd⟩
    rw [covers, hindexes]
    decide
  · have hne : d.keys ≠ [] := by
      rw [hkeys]
      decide
    refine (outcome_add_eq_error_iff hne hfresh).2 ⟨rfl, byFlatAddress, ?_, ?_⟩
    · rw [hindexes]
      exact List.mem_cons_self
    · rw [hname, ← hsame]
      decide

/-- **Generated names get in the way only where a field begins with a key.**  Keys that can be
defined and have the same name without being the same part at some place, and there one of the two
fields begins with the other key.  On plain fields there is no such place, so there the name tells
the keys.  In a catalog that was made empty and got nothing but indexes with generated names, of
which any may have been dropped, an index with a generated name and new keys is refused only for
keys that part from its own in this way; and so is any index that is recommended for the catalog. -/
theorem generatedNames_clash_only_at_fields :
    (∀ a b : List Key, SoundKeys a → SoundKeys b → generatedName a = generatedName b →
      (a ≠ b → PartAtField a b) ∧
      ((∀ k ∈ a, Plain k.field) → (∀ k ∈ b, Plain k.field) → a = b)) ∧
    ∀ requests : List Request, (∀ r ∈ requests, r.IsGenerated) →
      (∀ d : IndexDefinition, defineGenerated d.keys = .ok d →
        (∀ e ∈ (empty.after requests).indexes, e.keys ≠ d.keys) →
        (empty.after requests).RefusesOnlyParted d) ∧
      ∀ (advisor : Advisor) (shape : QueryShape) (stats? : Option CorpusStats)
        (d : IndexDefinition),
        (advisor.adviceOn shape (empty.after requests) stats?).recommendation? = some d →
        (empty.after requests).RefusesOnlyParted d := by
  refine ⟨fun a b ha hb heq => ⟨part_of_generatedName_eq heq, fun hplain hplain' =>
    generatedName_inj_of_plain ha hb hplain hplain' heq⟩, fun requests hrequests => ?_⟩
  have hnames := namesGenerated_empty.after hrequests
  refine ⟨fun d hd hkeys => hnames.refusesOnlyParted (defineGenerated_eq_ok_iff.1 hd) hkeys,
    fun advisor shape stats? d hd => ?_⟩
  obtain ⟨hcovers, hrecommend⟩ := Advisor.recommendation?_adviceOn_eq_some_iff.1 hd
  obtain ⟨-, hname, hkeys⟩ := recommend_eq_ok_iff.1 hrecommend
  rw [← hkeys] at hname
  refine hnames.refusesOnlyParted hname ?_
  rw [hkeys]
  exact keys_ne_of_not_covers hcovers

/-- The keys of the example part at their first place.  Beside an index on another field, which was
dropped and added again meanwhile, the recommended index is not refused. -/
theorem generatedNames_clash_only_at_fields_address :
    PartAtField byFlatAddress.keys [Key.asc "address", Key.asc "city"] ∧
    (∀ r ∈ [Request.add byStreet, .drop "street_1", .add byStreet], r.IsGenerated) ∧
    ∃ d, (Advisor.standard.adviceOn atAddressInCity
        (empty.after [.add byStreet, .drop "street_1", .add byStreet]) none).recommendation? =
          some d ∧
      ((empty.after [.add byStreet, .drop "street_1", .add byStreet]).add d).outcome.isOk =
        true := by
  have hstreet : defineGenerated byStreet.keys = .ok byStreet :=
    defineGenerated_eq_ok_iff.2 (by decide)
  have hrequests : ∀ r ∈ [Request.add byStreet, .drop "street_1", .add byStreet],
      r.IsGenerated := by simp [Request.IsGenerated, hstreet]
  have hindexes : (empty.after [.add byStreet, .drop "street_1", .add byStreet]).indexes =
      [byStreet] := by decide +kernel
  obtain ⟨hpart, hcatalogs⟩ := generatedNames_clash_only_at_fields
  have hfields : atAddressInCity.isEmpty = false := by decide
  obtain ⟨d, hd, hkeys⟩ := exists_recommend_eq_ok hfields
  have hsome : (Advisor.standard.adviceOn atAddressInCity
      (empty.after [.add byStreet, .drop "street_1", .add byStreet]) none).recommendation? =
        some d := by
    refine Advisor.recommendation?_adviceOn_eq_some_iff.2 ⟨?_, hd⟩
    rw [covers, hindexes]
    decide
  have hrefuses := (hcatalogs _ hrequests).2 Advisor.standard atAddressInCity none d hsome
  refine ⟨(hpart _ _ byFlatAddress.soundKeys ⟨by decide, by decide⟩ (by decide)).1 (by decide),
    hrequests, d, hsome, hrefuses.plain ?_ ?_⟩
  · rw [hindexes]
    exact List.forall_mem_singleton.2 (List.forall_mem_singleton.2 (plain_of_notMem (by decide)))
  · have hplain : ∀ k ∈ recommendedKeys atAddressInCity, '_' ∉ k.field.toList := by decide
    rw [hkeys]
    exact fun k hk => plain_of_notMem (hplain k hk)

end Catalog
end IndexPlanner
