import IndexPlanner.Proofs.Catalog.RoundTrip
import IndexPlanner.Proofs.Catalog.Runs
import IndexPlanner.Proofs.FileTree.Places
import IndexPlanner.Proofs.FileTree.Siblings

/-!
# What a save does to the files

A document is written to a temporary file and moved from there, so a save changes the tree at
two places: where its path leads to, and where the path of the temporary file leads to.  They
are two names in one directory.  The temporary file has a fixed name, so a file that had this
name before is lost, if the save gets so far that it writes; even a save that fails in the end
removes it.  Nothing else is ever touched.

* `exists_places_of_temporaryPath`: the two places of a save.
* `node?_save_of_isOk`, `files_save_of_not_isOk`: the whole tree after a save, place by place,
  and `isOk_save_iff`: when a save succeeds.
* `sameDirectories_save`, `read_save_eq_ok_iff`: no directory comes or goes, and files elsewhere
  are read as before.
* `TouchesOnlyTarget` would be that only the target changes.  This fails
  (`not_touchesOnlyTarget_besideOrders`), but only where a file has the name of the temporary
  file (`touchesOnlyTarget_of_not_hasFile`).
* `save_touches_target_and_temporary`: all this together.
-/

namespace IndexPlanner
namespace Catalog

variable {c : Catalog} {files written moved : FileTree} {path : String} {now : Timestamp}

/-! ## The temporary file -/

/-- The name of the temporary file for a name. -/
def temporaryName (name : String) : String := siblingName "json.tmp" name

theorem temporaryName_ne (name : String) : temporaryName name ≠ name :=
  siblingName_ne (show "json.tmp".toList = ['j', 's', 'o', 'n'] ++ '.' :: ['t', 'm', 'p'] from rfl)
    (by decide) name

theorem temporaryName_ne_parent (name : String) : temporaryName name ≠ ".." := by
  intro heq
  have hlength := congrArg (fun s : String => s.toList.length) heq
  simp [temporaryName, siblingName] at hlength

/-- If a file could be at a path and another one at the path of its temporary file, the two are
in one directory. -/
theorem exists_places_of_temporaryPath {place temporary : List String}
    (hend : endsAsDirectory path = false) (hplace : files.locate path = .ok place)
    (htemporary : files.locate (temporaryPath path) = .ok temporary)
    (hnode : files.node? temporary ≠ some .directory) :
    ∃ directory name, place = directory ++ [name] ∧
      temporary = directory ++ [temporaryName name] := by
  obtain ⟨names, last, hnames, hdots | ⟨hlast, hsibling⟩⟩ :=
    pathNames_siblingPath (show '/' ∉ "json.tmp".toList by decide) (by decide) hend
  · exact absurd (FileTree.node?_of_locate_eq_ok hdots htemporary) hnode
  · obtain ⟨-, -, directory, hdirectory, hplace⟩ :=
      (FileTree.locate_eq_ok_iff hnames hlast).1 hplace
    obtain ⟨-, -, directory', hdirectory', htemporary⟩ :=
      (FileTree.locate_eq_ok_iff hsibling (temporaryName_ne_parent last)).1 htemporary
    obtain rfl : directory = directory' := by
      rw [hdirectory] at hdirectory'
      exact Except.ok.inj hdirectory'
    exact ⟨directory, last, hplace, htemporary⟩

/-! ## The three ways of a save -/

/-- If the temporary file cannot be written, nothing is changed. -/
theorem save_of_write_eq_error {e : FileError}
    (h : files.write (temporaryPath path) (CatalogFile.ofCatalog c now).text.toUTF8 = .error e) :
    (c.save files path now).outcome.isOk = false ∧ (c.save files path now).files = files := by
  have hcommit : commit files path (CatalogFile.ofCatalog c now).text =
      .error (.unusable (temporaryPath path) e, files) := by
    unfold commit
    simp only [h]
  unfold save
  simp only [hcommit]
  exact ⟨rfl, FileTree.remove_of_write_eq_error h⟩

/-- If it cannot be moved, it is removed. -/
theorem save_of_rename_eq_error {e : FileError}
    (hwrite : files.write (temporaryPath path) (CatalogFile.ofCatalog c now).text.toUTF8 =
      .ok written)
    (h : written.rename (temporaryPath path) path = .error e) :
    (c.save files path now).outcome.isOk = false ∧
      (c.save files path now).files = written.remove (temporaryPath path) := by
  have hcommit : commit files path (CatalogFile.ofCatalog c now).text =
      .error (.unusable path e, written) := by
    unfold commit
    simp only [hwrite, h]
  unfold save
  simp only [hcommit]
  exact ⟨rfl, trivial⟩

/-- If both can be done, they are all that is done. -/
theorem save_of_rename_eq_ok
    (hwrite : files.write (temporaryPath path) (CatalogFile.ofCatalog c now).text.toUTF8 =
      .ok written)
    (h : written.rename (temporaryPath path) path = .ok moved) :
    (c.save files path now).outcome.isOk = true ∧ (c.save files path now).files = moved := by
  have hcommit : commit files path (CatalogFile.ofCatalog c now).text = .ok moved := by
    unfold commit
    simp only [hwrite, h]
  unfold save
  simp only [hcommit]
  exact ⟨rfl, trivial⟩

/-- The document is moved to the target, and the temporary file is gone. -/
theorem node?_of_write_of_rename {content : ByteArray}
    (hwrite : files.write (temporaryPath path) content = .ok written)
    (h : written.rename (temporaryPath path) path = .ok moved) :
    ∃ directory name, files.locate path = .ok (directory ++ [name]) ∧
      files.locate (temporaryPath path) = .ok (directory ++ [temporaryName name]) ∧
      endsAsDirectory path = false ∧
      files.node? (directory ++ [name]) ≠ some .directory ∧
      files.node? (directory ++ [temporaryName name]) ≠ some .directory ∧
      ∀ place, moved.node? place =
        if place = directory ++ [name] then some (.file content)
        else if place = directory ++ [temporaryName name] then none else files.node? place := by
  obtain ⟨temporary, htemporary, -, hnode, rfl⟩ := FileTree.write_eq_ok_iff.1 hwrite
  obtain ⟨source, target, content', hsource, hcontent, htarget, -, hend, hnode', rfl⟩ :=
    FileTree.rename_eq_ok_iff.1 h
  have hdirs := FileTree.SameDirectories.put hnode content
  rw [FileTree.locate_eq_ok_congr hdirs] at hsource htarget
  obtain rfl : temporary = source := Except.ok.inj (htemporary.symm.trans hsource)
  obtain ⟨directory, name, rfl, rfl⟩ :=
    exists_places_of_temporaryPath hend htarget htemporary hnode
  rw [FileTree.node?_put (by simp), if_pos rfl] at hcontent
  obtain rfl : content = content' := by simpa using hcontent
  refine ⟨directory, name, htarget, htemporary, hend, ?_, hnode, fun place => ?_⟩
  · exact fun hdirectory => hnode' ((hdirs _).2 hdirectory)
  · rw [FileTree.node?_put (by simp), FileTree.node?_erase (by simp)]
    by_cases hplace : place = directory ++ [temporaryName name]
    · rw [if_pos hplace, if_pos hplace]
    · rw [if_neg hplace, if_neg hplace, FileTree.node?_put (by simp), if_neg hplace]

/-- A file that was written is moved to any place that is not a directory. -/
theorem exists_rename_of_write {content : ByteArray} {place : List String}
    (hwrite : files.write (temporaryPath path) content = .ok written)
    (hplace : files.locate path = .ok place) (hend : endsAsDirectory path = false)
    (hnode : files.node? place ≠ some .directory) :
    ∃ moved, written.rename (temporaryPath path) path = .ok moved := by
  obtain ⟨temporary, htemporary, -, hfree, rfl⟩ := FileTree.write_eq_ok_iff.1 hwrite
  have hdirs := FileTree.SameDirectories.put hfree content
  have hcontent : (files.put temporary (.file content)).node? temporary = some (.file content) := by
    rw [FileTree.node?_put (FileTree.ne_nil_of_node?_ne hfree), if_pos rfl]
  exact ⟨_, FileTree.rename_eq_ok_iff.2 ⟨temporary, place, content,
    (FileTree.locate_eq_ok_congr hdirs).2 htemporary, hcontent,
    (FileTree.locate_eq_ok_congr hdirs).2 hplace, endsInDot_of_endsAsDirectory hend, hend,
    fun hdirectory => hnode ((hdirs place).1 hdirectory), rfl⟩⟩

/-! ## The tree after a save -/

/-- After a save that succeeded the document is at the target and nothing at the place of the
temporary file; elsewhere all is as before. -/
theorem node?_save_of_isOk (h : (c.save files path now).outcome.isOk = true) :
    ∃ directory name, files.locate path = .ok (directory ++ [name]) ∧
      files.locate (temporaryPath path) = .ok (directory ++ [temporaryName name]) ∧
      endsAsDirectory path = false ∧
      files.node? (directory ++ [name]) ≠ some .directory ∧
      files.node? (directory ++ [temporaryName name]) ≠ some .directory ∧
      ∀ place, (c.save files path now).files.node? place =
        if place = directory ++ [name] then
          some (.file (CatalogFile.ofCatalog c now).text.toUTF8)
        else if place = directory ++ [temporaryName name] then none else files.node? place := by
  cases hwrite : files.write (temporaryPath path) (CatalogFile.ofCatalog c now).text.toUTF8 with
  | error e =>
    rw [(save_of_write_eq_error hwrite).1] at h
    exact absurd h Bool.false_ne_true
  | ok written =>
    cases hrename : written.rename (temporaryPath path) path with
    | error e =>
      rw [(save_of_rename_eq_error hwrite hrename).1] at h
      exact absurd h Bool.false_ne_true
    | ok moved =>
      rw [(save_of_rename_eq_ok hwrite hrename).2]
      exact node?_of_write_of_rename hwrite hrename

/-- After a save that failed all is as before, but a file at the place of the temporary file may
be gone. -/
theorem files_save_of_not_isOk (h : (c.save files path now).outcome.isOk = false) :
    (c.save files path now).files = files ∨
      ∃ temporary, files.locate (temporaryPath path) = .ok temporary ∧
        files.node? temporary ≠ some .directory ∧
        ∀ place, (c.save files path now).files.node? place =
          if place = temporary then none else files.node? place := by
  cases hwrite : files.write (temporaryPath path) (CatalogFile.ofCatalog c now).text.toUTF8 with
  | error e => exact .inl (save_of_write_eq_error hwrite).2
  | ok written =>
    refine .inr ?_
    cases hrename : written.rename (temporaryPath path) path with
    | error e =>
      rw [(save_of_rename_eq_error hwrite hrename).2]
      exact FileTree.node?_remove_of_write_eq_ok hwrite
    | ok moved =>
      rw [(save_of_rename_eq_ok hwrite hrename).1] at h
      exact absurd h.symm Bool.false_ne_true

/-- A save succeeds iff its path and that of the temporary file both lead to a place that is not
a directory, and the path is not written as that of a directory. -/
theorem isOk_save_iff : (c.save files path now).outcome.isOk = true ↔
    endsAsDirectory path = false ∧
    (∃ place, files.locate path = .ok place ∧ files.node? place ≠ some .directory) ∧
    ∃ place, files.locate (temporaryPath path) = .ok place ∧
      files.node? place ≠ some .directory := by
  constructor
  · intro h
    obtain ⟨directory, name, htarget, htemporary, hend, hnode, hnode', -⟩ := node?_save_of_isOk h
    exact ⟨hend, ⟨_, htarget, hnode⟩, ⟨_, htemporary, hnode'⟩⟩
  · rintro ⟨hend, ⟨place, hplace, hnode⟩, temporary, htemporary, hfree⟩
    have hend' : endsAsDirectory (temporaryPath path) = false :=
      endsAsDirectory_siblingPath (by decide) (by decide) hend
    have hwrite : files.write (temporaryPath path) (CatalogFile.ofCatalog c now).text.toUTF8 =
        .ok (files.put temporary (.file (CatalogFile.ofCatalog c now).text.toUTF8)) :=
      FileTree.write_eq_ok_iff.2 ⟨temporary, htemporary, hend', hfree, rfl⟩
    obtain ⟨moved, hrename⟩ := exists_rename_of_write hwrite hplace hend hnode
    exact (save_of_rename_eq_ok hwrite hrename).1

/-- No save makes or removes a directory. -/
theorem sameDirectories_save (c : Catalog) (files : FileTree) (path : String) (now : Timestamp) :
    files.SameDirectories (c.save files path now).files := by
  cases hok : (c.save files path now).outcome.isOk with
  | true =>
    obtain ⟨directory, name, -, -, -, htarget, htemporary, hnode⟩ := node?_save_of_isOk hok
    intro place
    rw [hnode]
    split
    · next heq => simp [heq, htarget]
    · split
      · next heq => simp [heq, htemporary]
      · rfl
  | false =>
    rcases files_save_of_not_isOk hok with hsame | ⟨temporary, -, htemporary, hnode⟩
    · rw [hsame]
      exact fun place => Iff.rfl
    · refine .of_differ_at htemporary ?_ fun place hplace => ?_
      · rw [hnode, if_pos rfl]
        simp
      · rw [hnode, if_neg hplace]

/-- Elsewhere than at the target and at the temporary file, all files are read as before. -/
theorem read_save_eq_ok_iff {other : String} {content : ByteArray} (c : Catalog) (now : Timestamp)
    (htarget : ¬ files.SamePlace other path)
    (htemporary : ¬ files.SamePlace other (temporaryPath path)) :
    (c.save files path now).files.read other = .ok content ↔ files.read other = .ok content := by
  refine FileTree.read_eq_ok_congr (sameDirectories_save c files path now) fun place hplace => ?_
  cases hok : (c.save files path now).outcome.isOk with
  | true =>
    obtain ⟨directory, name, hlocate, hlocate', -, -, -, hnode⟩ := node?_save_of_isOk hok
    rw [hnode, if_neg, if_neg]
    · rintro rfl
      exact htemporary ⟨_, hplace, hlocate'⟩
    · rintro rfl
      exact htarget ⟨_, hplace, hlocate⟩
  | false =>
    rcases files_save_of_not_isOk hok with hsame | ⟨temporary, hlocate, -, hnode⟩
    · rw [hsame]
    · rw [hnode, if_neg]
      rintro rfl
      exact htemporary ⟨_, hplace, hlocate⟩

/-- The document that was saved is read back as a text. -/
theorem readText_save_of_isOk (h : (c.save files path now).outcome.isOk = true) :
    (c.save files path now).files.readText path = .ok (CatalogFile.ofCatalog c now).text := by
  obtain ⟨directory, name, hlocate, -, hend, -, -, hnode⟩ := node?_save_of_isOk h
  have hlocate' := (FileTree.locate_eq_ok_congr (sameDirectories_save c files path now)).2 hlocate
  have hfile := hnode (directory ++ [name])
  rw [if_pos rfl] at hfile
  have hread := FileTree.read_eq_ok_iff.2 ⟨_, hlocate', hfile, hend⟩
  exact FileTree.readText_eq_ok_of_read hread

/-! ## The frame of a save -/

/-- Nothing but the target of a save is changed: if it succeeds, the document is there and all
other places are as before, and if it fails, all places are as before. -/
structure TouchesOnlyTarget (c : Catalog) (files : FileTree) (path : String) (now : Timestamp) :
    Prop where
  holds : (c.save files path now).outcome.isOk = true →
    (c.save files path now).files.readText path = .ok (CatalogFile.ofCatalog c now).text
  elsewhere : (c.save files path now).outcome.isOk = true →
    ∀ place, files.locate path ≠ .ok place →
      (c.save files path now).files.node? place = files.node? place
  failed : (c.save files path now).outcome.isOk = false →
    ∀ place, (c.save files path now).files.node? place = files.node? place

/-- A catalog with one index. -/
def oneIndex : Catalog := empty.after [.add (oneLetter 'a')]

/-- The files after a catalog was saved where another save has its temporary file. -/
def besideOrders : FileTree := (oneIndex.save .empty "orders.json.tmp" .epoch).files

/-- A catalog that was saved where another save has its temporary file is lost in that save. -/
theorem not_touchesOnlyTarget_besideOrders :
    (oneIndex.save .empty "orders.json.tmp" .epoch).outcome.isOk = true ∧
    (oneIndex.save besideOrders "orders.json" .epoch).outcome.isOk = true ∧
    ¬ oneIndex.TouchesOnlyTarget besideOrders "orders.json" .epoch := by
  have hsaved : (oneIndex.save besideOrders "orders.json" .epoch).outcome.isOk = true := by
    decide +kernel
  have hbefore : (besideOrders.node? ["orders.json.tmp"]).isSome = true := by decide +kernel
  have hafter : ((oneIndex.save besideOrders "orders.json" .epoch).files.node?
      ["orders.json.tmp"]).isSome = false := by decide +kernel
  refine ⟨by decide +kernel, hsaved, fun h => ?_⟩
  have htarget : (besideOrders.locate "orders.json").toOption = some ["orders.json"] := by
    decide +kernel
  have hother : besideOrders.locate "orders.json" ≠ .ok ["orders.json.tmp"] := by
    intro heq
    rw [heq] at htarget
    exact absurd htarget (by decide)
  rw [h.elsewhere hsaved _ hother, hbefore] at hafter
  exact absurd hafter.symm Bool.false_ne_true

/-- With no file at the place of the temporary file, nothing but the target is changed. -/
theorem touchesOnlyTarget_of_not_hasFile (hfree : ¬ files.HasFile (temporaryPath path)) :
    c.TouchesOnlyTarget files path now := by
  refine ⟨readText_save_of_isOk, fun hok place hplace => ?_, fun hfailed place => ?_⟩
  · obtain ⟨directory, name, hlocate, hlocate', -, -, hdirectory, hnode⟩ := node?_save_of_isOk hok
    have htarget : place ≠ directory ++ [name] := by
      rintro rfl
      exact hplace hlocate
    rw [hnode, if_neg htarget]
    split
    · next heq => rw [heq, FileTree.node?_eq_none_of_not_hasFile hfree hlocate' hdirectory]
    · rfl
  · rcases files_save_of_not_isOk hfailed with hsame | ⟨temporary, hlocate, hdirectory, hnode⟩
    · rw [hsame]
    · rw [hnode]
      split
      · next heq => rw [heq, FileTree.node?_eq_none_of_not_hasFile hfree hlocate hdirectory]
      · rfl

/-- **A save changes its target and its temporary file only.**  It succeeds iff both paths lead
to a place and neither is a directory.  Then the two are different names in one directory, the
document is at the target, nothing is left at the place of the temporary file, and all other
places are as before.  If a save fails, all places are as before, but a file at the place of the
temporary file may be gone.  So all files that are neither at the one nor at the other place are
read as before, and if no file is at the place of the temporary file, only the target is
changed. -/
theorem save_touches_target_and_temporary (c : Catalog) (files : FileTree) (path : String)
    (now : Timestamp) :
    ((c.save files path now).outcome.isOk = true ↔
      endsAsDirectory path = false ∧
      (∃ place, files.locate path = .ok place ∧ files.node? place ≠ some .directory) ∧
      ∃ place, files.locate (temporaryPath path) = .ok place ∧
        files.node? place ≠ some .directory) ∧
    ((c.save files path now).outcome.isOk = true → ∃ directory name,
      files.locate path = .ok (directory ++ [name]) ∧
      files.locate (temporaryPath path) = .ok (directory ++ [temporaryName name]) ∧
      temporaryName name ≠ name ∧
      (c.save files path now).files.readText path = .ok (CatalogFile.ofCatalog c now).text ∧
      (c.save files path now).files.node? (directory ++ [temporaryName name]) = none ∧
      ∀ place, place ≠ directory ++ [name] → place ≠ directory ++ [temporaryName name] →
        (c.save files path now).files.node? place = files.node? place) ∧
    ((c.save files path now).outcome.isOk = false →
      (∀ place, (c.save files path now).files.node? place = files.node? place) ∨
      ∃ temporary, files.locate (temporaryPath path) = .ok temporary ∧
        files.node? temporary ≠ some .directory ∧
        (c.save files path now).files.node? temporary = none ∧
        ∀ place, place ≠ temporary →
          (c.save files path now).files.node? place = files.node? place) ∧
    (∀ other content, ¬ files.SamePlace other path →
      ¬ files.SamePlace other (temporaryPath path) →
      ((c.save files path now).files.read other = .ok content ↔
        files.read other = .ok content)) ∧
    (¬ files.HasFile (temporaryPath path) → c.TouchesOnlyTarget files path now) := by
  refine ⟨isOk_save_iff, fun hok => ?_, fun hfailed => ?_,
    fun other content => read_save_eq_ok_iff c now, touchesOnlyTarget_of_not_hasFile⟩
  · obtain ⟨directory, name, hlocate, hlocate', -, -, -, hnode⟩ := node?_save_of_isOk hok
    have hdistinct : directory ++ [temporaryName name] ≠ directory ++ [name] := fun heq =>
      temporaryName_ne name (List.append_singleton_inj.1 heq).2
    refine ⟨directory, name, hlocate, hlocate', temporaryName_ne name, readText_save_of_isOk hok,
      ?_, fun place htarget htemporary => ?_⟩
    · rw [hnode, if_neg hdistinct, if_pos rfl]
    · rw [hnode, if_neg htarget, if_neg htemporary]
  · rcases files_save_of_not_isOk hfailed with hsame | ⟨temporary, hlocate, hdirectory, hnode⟩
    · exact .inl fun place => by rw [hsame]
    · refine .inr ⟨temporary, hlocate, hdirectory, ?_, fun place hplace => ?_⟩
      · rw [hnode, if_pos rfl]
      · rw [hnode, if_neg hplace]

/-- The same files, but where the target would be there is a directory. -/
def blockedOrders : FileTree := besideOrders.put ["orders.json"] .directory

/-- A save succeeds and loses a file, a save fails, and a save elsewhere has no file in its
way. -/
theorem save_touches_target_and_temporary_besideOrders :
    (oneIndex.save besideOrders "orders.json" .epoch).outcome.isOk = true ∧
    (oneIndex.save besideOrders "orders.json" .epoch).files.readText "orders.json" =
      .ok (CatalogFile.ofCatalog oneIndex .epoch).text ∧
    (oneIndex.save blockedOrders "orders.json" .epoch).outcome.isOk = false ∧
    (∃ temporary, ∀ place, place ≠ temporary →
      (oneIndex.save blockedOrders "orders.json" .epoch).files.node? place =
        blockedOrders.node? place) ∧
    ¬ besideOrders.SamePlace "orders.json.tmp" "stock.json" ∧
    ¬ besideOrders.SamePlace "orders.json.tmp" (temporaryPath "stock.json") ∧
    (∀ content, (oneIndex.save besideOrders "stock.json" .epoch).files.read "orders.json.tmp" =
      .ok content ↔ besideOrders.read "orders.json.tmp" = .ok content) ∧
    ¬ besideOrders.HasFile (temporaryPath "stock.json") ∧
    oneIndex.TouchesOnlyTarget besideOrders "stock.json" .epoch := by
  have hsaved : (oneIndex.save besideOrders "orders.json" .epoch).outcome.isOk = true := by
    decide +kernel
  have hfailed : (oneIndex.save blockedOrders "orders.json" .epoch).outcome.isOk = false := by
    decide +kernel
  have htarget : ¬ besideOrders.SamePlace "orders.json.tmp" "stock.json" :=
    FileTree.not_samePlace_of_toOption_ne (by decide +kernel)
  have htemporary : ¬ besideOrders.SamePlace "orders.json.tmp" (temporaryPath "stock.json") :=
    FileTree.not_samePlace_of_toOption_ne (by decide +kernel)
  have hfree : ¬ besideOrders.HasFile (temporaryPath "stock.json") := by
    have hread : ((besideOrders.locate (temporaryPath "stock.json")).toOption.bind
        besideOrders.node?).isSome = false := by decide +kernel
    rintro ⟨place, content, hlocate, hnode⟩
    rw [hlocate] at hread
    change (besideOrders.node? place).isSome = false at hread
    rw [hnode] at hread
    exact absurd hread.symm Bool.false_ne_true
  obtain ⟨-, hsucceeds, -⟩ := save_touches_target_and_temporary oneIndex besideOrders "orders.json"
    .epoch
  obtain ⟨-, -, hfails, -⟩ := save_touches_target_and_temporary oneIndex blockedOrders "orders.json"
    .epoch
  obtain ⟨-, -, -, helsewhere, halone⟩ := save_touches_target_and_temporary oneIndex besideOrders
    "stock.json" .epoch
  refine ⟨hsaved, ?_, hfailed, ?_, htarget, htemporary,
    fun content => helsewhere _ content htarget htemporary, hfree, halone hfree⟩
  · obtain ⟨directory, name, -, -, -, hholds, -⟩ := hsucceeds hsaved
    exact hholds
  · rcases hfails hfailed with hsame | ⟨temporary, -, -, -, hsame⟩
    · exact ⟨[], fun place _ => hsame place⟩
    · exact ⟨temporary, hsame⟩

end Catalog
end IndexPlanner
