import IndexPlanner.Catalog.Storage
import IndexPlanner.Proofs.Catalog.Changes
import IndexPlanner.Proofs.IndexDefinition.KeyPatterns
import IndexPlanner.Proofs.Timestamp.Reading

/-!
# Catalog files are read back

A catalog file has everything in it that it was made of.  Names may have any characters in
them, because strings are escaped; the keys of an index keep their order and their directions,
because no field is named twice; and what is checked on the way in was true on the way out.

* `CatalogFile.parse_text`: a file is read back from its text.
* `Catalog.exists_ofDefinitions_indexes`, `Catalog.loadDefinitions_of_readText`: the catalog
  that is made of a saved one has the same indexes.
* `CatalogFile.round_trip`: all this together.
-/

namespace IndexPlanner

open Json

variable {depth : Nat}

/-! ## Files -/

namespace CatalogFile

theorem readsAs_takeFormat (n : UInt8) : ReadsAs takeFormat depth (.ofNat n.toNat) n := by
  intro rest
  rw [takeFormat, readsAs_takeNatural n.toNat_lt_size]
  simp

theorem readsAs_takeTimestamp (t : Timestamp) :
    ReadsAs takeTimestamp depth (.string t.text) t := by
  intro rest
  rw [takeTimestamp, readsAs_takeString]
  simp only [Timestamp.parse?_text]

theorem exact_toJson (f : CatalogFile) : f.toJson.Exact := by
  refine .object ?_
  rw [List.forall_mem_cons, List.forall_mem_cons, List.forall_mem_cons, List.forall_mem_singleton]
  have hformat : f.formatVersion.toNat < UInt64.size :=
    Nat.lt_trans f.formatVersion.toNat_lt (by decide)
  refine ⟨exact_ofNat hformat, .string _, exact_ofNat f.catalogVersion.toNat_lt, ?_⟩
  refine .array fun v hv => ?_
  obtain ⟨d, -, rfl⟩ := List.mem_map.1 hv
  exact d.exact_toJson

/-- A file is read back from its record. -/
theorem readsAs_record (f : CatalogFile) : ReadsAs record.take (depth + 4) f.toJson f := by
  refine Record.readsAs_take (s := ⟨some f.formatVersion, some f.savedAt, some f.catalogVersion,
    some f.indexes⟩) ?_ rfl
  refine .cons _ rfl rfl (Member.readsAs_of (readsAs_takeFormat _)) ?_
  refine .cons _ rfl rfl (Member.readsAs_of (readsAs_takeTimestamp _)) ?_
  refine .cons _ rfl rfl (Member.readsAs_of (readsAs_takeUInt64 _)) ?_
  refine .cons _ rfl rfl (Member.readsAs_of ?_) (.nil _)
  exact readsAs_takeList fun d _ => d.readsAs_take

/-- A file of the current format is read back from its text. -/
theorem parse_text {f : CatalogFile} (h : f.formatVersion = currentFormat) :
    parse f.text = .ok f := by
  have hread : readText record.take f.text = .ok f :=
    readText_of_readsAs f.readsAs_record (tokens_document f.exact_toJson)
  rw [parse, hread]
  exact if_pos h

end CatalogFile

/-! ## Catalogs -/

namespace Catalog

/-- The indexes of a catalog can be registered again, as a catalog that counts as not
changed. -/
theorem exists_ofDefinitions_indexes (c : Catalog) :
    ∃ fresh, ofDefinitions c.indexes = .ok fresh ∧ fresh.version = .initial ∧
      fresh.indexes = c.indexes := by
  obtain ⟨fresh, hfresh⟩ := exists_ofDefinitions_eq_ok_iff.2 c.registrable
  exact ⟨fresh, hfresh, of_ofDefinitions_eq_ok hfresh⟩

/-- The text of a saved catalog is loaded as its indexes. -/
theorem loadDefinitions_of_readText {c : Catalog} {now : Timestamp} {files : FileTree}
    {path : String} (h : files.readText path = .ok (CatalogFile.ofCatalog c now).text) :
    loadDefinitions files path = .ok c.indexes := by
  have hparse : CatalogFile.parse (CatalogFile.ofCatalog c now).text =
      .ok (CatalogFile.ofCatalog c now) := CatalogFile.parse_text rfl
  simp only [loadDefinitions, h, hparse]
  rfl

end Catalog

/-- **Catalog files are read back.**  Every file of the current format is read back from its
text as it was.  So the text that a catalog is saved as is always accepted, and the catalog
that is made of it has the same indexes and counts as not changed; loading the text from where
it was saved gives that catalog. -/
theorem CatalogFile.round_trip :
    (∀ f : CatalogFile, f.formatVersion = currentFormat → parse f.text = .ok f) ∧
    ∀ (c : Catalog) (now : Timestamp),
      parse (ofCatalog c now).text = .ok (ofCatalog c now) ∧
      ∃ fresh, Catalog.ofDefinitions (ofCatalog c now).indexes = .ok fresh ∧
        fresh.version = .initial ∧ fresh.indexes = c.indexes ∧
        ∀ (files : FileTree) (path : String),
          files.readText path = .ok (ofCatalog c now).text →
          (Catalog.load files path).1 = .ok fresh := by
  refine ⟨fun f h => parse_text h, fun c now => ⟨parse_text rfl, ?_⟩⟩
  obtain ⟨fresh, hfresh, hversion, hindexes⟩ := c.exists_ofDefinitions_indexes
  refine ⟨fresh, hfresh, hversion, hindexes, fun files path h => ?_⟩
  simp only [Catalog.load, Catalog.loadDefinitions_of_readText h, hfresh]

/-- A file with names that look like operators, marks and escapes, saved in a leap second. -/
def trickyFile : CatalogFile where
  formatVersion := CatalogFile.currentFormat
  savedAt :=
    { date := ⟨-44, 3, 15, by decide, by decide, by decide⟩
      minute := 1439
      second := 59
      nano := 1999999999
      minute_lt := by decide
      second_lt := by decide
      nano_lt := by decide }
  catalogVersion := 18446744073709551615
  indexes := [
    { name := ","
      keys := [⟨"$x", .desc⟩, ⟨"\"", .asc⟩, ⟨"\\u0041", .asc⟩]
      named := by decide
      nodup := by decide
      fieldsNamed := by decide },
    { name := "a\n\x00\x7b\x7d"
      keys := [⟨"\"", .asc⟩, ⟨"$x", .desc⟩]
      named := by decide
      nodup := by decide
      fieldsNamed := by decide }]

theorem CatalogFile.round_trip_trickyFile :
    trickyFile.formatVersion = currentFormat ∧ parse trickyFile.text = .ok trickyFile :=
  ⟨rfl, CatalogFile.round_trip.1 trickyFile rfl⟩

end IndexPlanner
