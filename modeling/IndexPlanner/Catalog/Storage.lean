import IndexPlanner.Catalog.File
import IndexPlanner.FileTree

/-!
# Saving and loading catalogs

A save writes the document to a temporary file beside the target and then moves it over
the target, so that a reader finds either the old or the new document and never a part of
one.  The temporary file has the path of the target with the extension `json.tmp`.  If
the save fails, whatever is at that path is removed.

* `Catalog.save` saves a catalog;
* `Catalog.loadDefinitions` reads the definitions in a file, and `Catalog.load` makes a
  catalog of them.
-/

namespace IndexPlanner

/-- Why a catalog cannot be saved or loaded. -/
inductive StorageError where
  | unusable (path : String) (reason : FileError)
  | corrupt (reason : CatalogFileError)
  /-- The definitions may not be registered together. -/
  | refused (reason : CatalogError)

namespace StorageError

/-- The code of an error, which stays the same when its wording changes. -/
def code : StorageError → String
  | unusable .. => "ESR_CATALOG_IO"
  | corrupt _ => "ESR_CATALOG_CORRUPT"
  | refused reason => reason.code

/-- The wording of an error. -/
def message : StorageError → String
  | unusable path reason => "catalog file " ++ path ++ ": " ++ reason.message
  | corrupt reason => "catalog file is corrupt: " ++ reason.message
  | refused reason => reason.message

/-- The name of the index that an error is about, if it is about one. -/
def index? : StorageError → Option String
  | unusable .. => none
  | corrupt _ => none
  | refused reason => some reason.index

end StorageError

namespace Catalog

/-- The path of the temporary file for a target. -/
def temporaryPath (path : String) : String := siblingPath "json.tmp" path

/-- Writes a text to the temporary file and moves it over the target.  With an error come
the files as they are at that moment. -/
def commit (files : FileTree) (path : String) (text : String) :
    Except (StorageError × FileTree) FileTree :=
  match files.write (temporaryPath path) text.toUTF8 with
  | .error e => .error (.unusable (temporaryPath path) e, files)
  | .ok written =>
    match written.rename (temporaryPath path) path with
    | .error e => .error (.unusable path e, written)
    | .ok moved => .ok moved

/-- What came of a save. -/
structure Saved where
  outcome : Except StorageError Unit
  files : FileTree
  activity : Activity

/-- Saves a catalog at a path. -/
def save (c : Catalog) (files : FileTree) (path : String) (now : Timestamp) : Saved :=
  match commit files path (CatalogFile.ofCatalog c now).text with
  | .error (e, files) =>
    { outcome := .error e
      files := files.remove (temporaryPath path)
      activity :=
        { events := [
            { severity := .error
              name := "CATALOG_SAVE_FAILED"
              fields := [("code", e.code), ("error", e.message), ("path", path)] }] } }
  | .ok files =>
    { outcome := .ok ()
      files
      activity :=
        { events := [
            { severity := .info
              name := "CATALOG_SAVED"
              fields := [("indexes", Decimal.text c.size), ("path", path),
                ("version", c.version.text)] }] } }

/-- Reads the definitions in a file. -/
def loadDefinitions (files : FileTree) (path : String) :
    Except StorageError (List IndexDefinition) :=
  match files.readText path with
  | .error e => .error (.unusable path e)
  | .ok text =>
    match CatalogFile.parse text with
    | .error e => .error (.corrupt e)
    | .ok f => .ok f.indexes

/-- Makes a catalog, which counts as not changed, of the definitions in a file. -/
def load (files : FileTree) (path : String) : Except StorageError Catalog × Activity :=
  match loadDefinitions files path with
  | .error e => (.error e, {})
  | .ok ds =>
    match ofDefinitions ds with
    | .error e => (.error (.refused e), {})
    | .ok c => (.ok c,
        { events := [
            { severity := .info
              name := "CATALOG_LOADED"
              fields := [("indexes", Decimal.text ds.length), ("path", path)] }] })

end Catalog

end IndexPlanner
