import IndexPlanner.Catalog
import IndexPlanner.Timestamp

/-!
# Catalog files

A catalog is kept between runs as a document: the version of the format, the time of the
save, the version of the catalog at that time, which is only informative, and the
definitions in order.

* `CatalogFile.text` writes a document, `CatalogFile.parse` reads one;
* `CatalogFile.ofCatalog` is the document for a catalog.
-/

namespace IndexPlanner

/-- The document that a catalog is kept as. -/
structure CatalogFile where
  formatVersion : UInt8
  savedAt : Timestamp
  catalogVersion : UInt64
  indexes : List IndexDefinition
  deriving DecidableEq

/-- Why a text is no catalog document. -/
inductive CatalogFileError where
  | unparsable (reason : Json.ReadError)
  | unsupportedFormat (version : UInt8)

/-- The wording of an error. -/
def CatalogFileError.message : CatalogFileError → String
  | unparsable reason => "failed to parse catalog: " ++ reason.message
  | unsupportedFormat version =>
    "unsupported format_version " ++ Decimal.text version.toNat

namespace CatalogFile

/-- The version of the format that is written and read. -/
def currentFormat : UInt8 := 1

/-- The document for a catalog that is saved at a time. -/
def ofCatalog (c : Catalog) (now : Timestamp) : CatalogFile where
  formatVersion := currentFormat
  savedAt := now
  catalogVersion := c.version.number
  indexes := c.indexes

/-- A document as a JSON value. -/
def toJson (f : CatalogFile) : Json :=
  .object [
    ("format_version", .ofNat f.formatVersion.toNat),
    ("saved_at", .string f.savedAt.text),
    ("catalog_version", .ofNat f.catalogVersion.toNat),
    ("indexes", .array (f.indexes.map IndexDefinition.toJson))]

/-- The text of a document. -/
def text (f : CatalogFile) : String := f.toJson.indented

/-- A document of which some members have been read. -/
structure Partial where
  formatVersion : Option UInt8 := none
  savedAt : Option Timestamp := none
  catalogVersion : Option UInt64 := none
  indexes : Option (List IndexDefinition) := none

/-- Reads a number of eight bits. -/
def takeFormat : Json.Taking UInt8 := fun depth ts =>
  match Json.takeNatural UInt8.size "u8" depth ts with
  | .error e => .error e
  | .ok (n, rest) => .ok (n.toUInt8, rest)

/-- Reads a point in time. -/
def takeTimestamp : Json.Taking Timestamp := fun depth ts =>
  match Json.takeString "an RFC 3339 formatted date and time string" depth ts with
  | .error e => .error e
  | .ok (s, rest) =>
    match Timestamp.parse? s with
    | none => .error (.refused "<invalid timestamp>")
    | some t => .ok (t, rest)

/-- How a document is read. -/
def record : Json.Record Partial CatalogFile where
  name := "CatalogFile"
  members := [
    .of "format_version" (·.formatVersion) (fun s n => { s with formatVersion := some n })
      takeFormat,
    .of "saved_at" (·.savedAt) (fun s t => { s with savedAt := some t }) takeTimestamp,
    .of "catalog_version" (·.catalogVersion) (fun s n => { s with catalogVersion := some n })
      Json.takeUInt64,
    .of "indexes" (·.indexes) (fun s ds => { s with indexes := some ds })
      (Json.takeList IndexDefinition.take)]
  start := {}
  finish s :=
    match Json.required "format_version" s.formatVersion with
    | .error e => .error e
    | .ok formatVersion =>
      match Json.required "saved_at" s.savedAt with
      | .error e => .error e
      | .ok savedAt =>
        match Json.required "catalog_version" s.catalogVersion with
        | .error e => .error e
        | .ok catalogVersion =>
          match Json.required "indexes" s.indexes with
          | .error e => .error e
          | .ok indexes => .ok ⟨formatVersion, savedAt, catalogVersion, indexes⟩

/-- Reads the text of a document.  The version of the format is looked at last. -/
def parse (text : String) : Except CatalogFileError CatalogFile :=
  match Json.readText record.take text with
  | .error e => .error (.unparsable e)
  | .ok f =>
    if f.formatVersion = currentFormat then .ok f
    else .error (.unsupportedFormat f.formatVersion)

end CatalogFile

end IndexPlanner
