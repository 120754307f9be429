import IndexPlanner.FileTree

/-!
# Operations on files, by places

A path is followed through directories, so where it leads does not depend on the files.  An
operation on a file changes the tree at the places that its paths lead to and nowhere else, and
it changes no directory; so every path leads to the same place after it.

* `SameDirectories`: two trees have the same directories.  Then every path that leads somewhere
  leads to the same place in both (`locate_eq_ok_congr`).
* `node?_of_follow_eq_ok`: directories that were followed end at a directory.
* `read_eq_ok_iff`, `write_eq_ok_iff`, `rename_eq_ok_iff`: when an operation succeeds and what it
  does, by the places that its paths lead to.
* `remove_of_write_eq_error`, `node?_remove_of_write_eq_ok`: what is left when a file is removed
  that could not be written, or that was.
* `read_eq_ok_congr`: a file is read as before if nothing was done at its place.
-/

namespace IndexPlanner
namespace FileTree

variable {t t' : FileTree} {path : String} {place : List String} {content : ByteArray}

/-- Two paths lead to the same place. -/
def SamePlace (t : FileTree) (path other : String) : Prop :=
  ∃ place, t.locate path = .ok place ∧ t.locate other = .ok place

/-- A path leads to a file. -/
def HasFile (t : FileTree) (path : String) : Prop :=
  ∃ place content, t.locate path = .ok place ∧ t.node? place = some (.file content)

/-- Two trees have the same directories, whatever files they have. -/
def SameDirectories (t t' : FileTree) : Prop :=
  ∀ place, t'.node? place = some .directory ↔ t.node? place = some .directory

theorem not_samePlace_of_toOption_ne {other : String}
    (h : (t.locate path).toOption ≠ (t.locate other).toOption) : ¬ t.SamePlace path other := by
  rintro ⟨place, hpath, hother⟩
  exact h (by rw [hpath, hother])

/-- What is neither a file nor a directory is nothing. -/
theorem node?_eq_none_of_not_hasFile (hfile : ¬ t.HasFile path) (h : t.locate path = .ok place)
    (hnode : t.node? place ≠ some .directory) : t.node? place = none := by
  cases hplace : t.node? place with
  | none => rfl
  | some node =>
    cases node with
    | directory => exact absurd hplace hnode
    | file content => exact absurd ⟨place, content, h, hplace⟩ hfile

/-! ## Following directories -/

theorem node?_nil (t : FileTree) : t.node? [] = some .directory := by
  rw [node?, if_pos rfl]

theorem ne_nil_of_node?_ne (h : t.node? place ≠ some .directory) : place ≠ [] := by
  rintro rfl
  exact h t.node?_nil

/-- One more directory is followed. -/
theorem follow_cons_eq_ok_iff {name : String} {names target : List String} :
    t.follow place (name :: names) = .ok target ↔
      (name = ".." ∧ t.follow place.dropLast names = .ok target) ∨
      (name ≠ ".." ∧ isOverlongName name = false ∧
        t.node? (place ++ [name]) = some .directory ∧
        t.follow (place ++ [name]) names = .ok target) := by
  rw [follow]
  by_cases hup : name = ".."
  · simp [hup]
  · by_cases hlong : isOverlongName name = true
    · simp [hup, hlong]
    · rw [Bool.not_eq_true] at hlong
      simp only [hup, hlong, if_false, Bool.false_eq_true, false_and, false_or, ne_eq,
        not_false_eq_true, true_and]
      cases hnode : t.node? (place ++ [name]) with
      | none => simp
      | some node => cases node <;> simp

/-- Directories that were followed end at a directory, and so does every part of the way. -/
theorem node?_of_follow {names target : List String}
    (hplace : ∀ before, before <+: place → t.node? before = some .directory)
    (h : t.follow place names = .ok target) :
    ∀ before, before <+: target → t.node? before = some .directory := by
  induction names generalizing place with
  | nil =>
    obtain rfl : place = target := by simpa [follow] using h
    exact hplace
  | cons name names ih =>
    rcases follow_cons_eq_ok_iff.1 h with ⟨-, hup⟩ | ⟨-, -, hnode, hdown⟩
    · exact ih (fun before hbefore =>
        hplace before (hbefore.trans (List.dropLast_prefix place))) hup
    · refine ih (fun before hbefore => ?_) hdown
      rcases List.prefix_concat_iff.1 hbefore with rfl | hbefore
      · exact hnode
      · exact hplace before hbefore

theorem node?_of_follow_eq_ok {names target : List String} (h : t.follow [] names = .ok target) :
    t.node? target = some .directory := by
  refine node?_of_follow (fun before hbefore => ?_) h target (List.prefix_refl target)
  rw [List.prefix_nil.1 hbefore]
  exact t.node?_nil

/-- In trees with the same directories the same directories are followed. -/
theorem follow_eq_ok_congr (hdirs : t.SameDirectories t') {names target : List String} :
    t'.follow place names = .ok target ↔ t.follow place names = .ok target := by
  induction names generalizing place with
  | nil => rfl
  | cons name names ih => rw [follow_cons_eq_ok_iff, follow_cons_eq_ok_iff, ih, ih, hdirs]

/-! ## Places -/

/-- A path with a name at its end leads to that name in a directory. -/
theorem locate_eq_ok_iff {names : List String} {last : String}
    (hnames : pathNames path = names ++ [last]) (hlast : last ≠ "..") :
    t.locate path = .ok place ↔ pathFault? path = none ∧ isOverlongName last = false ∧
      ∃ directory, t.follow [] names = .ok directory ∧ place = directory ++ [last] := by
  rw [locate, hnames, List.getLast?_concat, List.dropLast_concat]
  cases hfault : pathFault? path with
  | some e => simp
  | none =>
    simp only [hlast, if_false]
    cases hfollow : t.follow [] names with
    | error e => simp
    | ok directory =>
      by_cases hlong : isOverlongName last = true
      · simp [hlong]
      · simp [hlong, eq_comm]

/-- A path with two dots at its end leads to where its names lead. -/
theorem locate_eq_ok_iff_of_parent {names : List String}
    (hnames : pathNames path = names ++ [".."]) :
    t.locate path = .ok place ↔
      pathFault? path = none ∧ t.follow [] (names ++ [".."]) = .ok place := by
  rw [locate, hnames, List.getLast?_concat]
  cases hfault : pathFault? path with
  | some e => simp
  | none => simp

/-- So it leads to a directory. -/
theorem node?_of_locate_eq_ok {names : List String} (hnames : pathNames path = names ++ [".."])
    (h : t.locate path = .ok place) : t.node? place = some .directory :=
  node?_of_follow_eq_ok ((locate_eq_ok_iff_of_parent hnames).1 h).2

/-- In trees with the same directories a path leads to the same place. -/
theorem locate_eq_ok_congr (hdirs : t.SameDirectories t') :
    t'.locate path = .ok place ↔ t.locate path = .ok place := by
  rcases List.eq_nil_or_concat (pathNames path) with hnil | ⟨names, last, hnames⟩
  · rw [locate, locate, hnil]
    rfl
  · rw [List.concat_eq_append] at hnames
    by_cases hlast : last = ".."
    · rw [hlast] at hnames
      rw [locate_eq_ok_iff_of_parent hnames, locate_eq_ok_iff_of_parent hnames,
        follow_eq_ok_congr hdirs]
    · rw [locate_eq_ok_iff hnames hlast, locate_eq_ok_iff hnames hlast]
      simp only [follow_eq_ok_congr hdirs]

/-! ## Changes of the tree -/

namespace SameDirectories

/-- Two trees that differ at one place only, where neither has a directory. -/
theorem of_differ_at (h : t.node? place ≠ some .directory) (h' : t'.node? place ≠ some .directory)
    (hothers : ∀ other, other ≠ place → t'.node? other = t.node? other) :
    t.SameDirectories t' := by
  intro other
  by_cases hother : other = place
  · subst hother
    simp [h, h']
  · rw [hothers other hother]

/-- A file is put where no directory was. -/
theorem put (h : t.node? place ≠ some .directory) (content : ByteArray) :
    t.SameDirectories (t.put place (.file content)) := by
  have hplace : place ≠ [] := ne_nil_of_node?_ne h
  refine of_differ_at h ?_ fun other hother => ?_
  · rw [node?_put hplace, if_pos rfl]
    simp
  · rw [node?_put hplace, if_neg hother]

end SameDirectories

/-! ## Operations -/

/-- Nothing else than a directory stops a file from being put at a place. -/
theorem any_isDirectory_eq_false_iff :
    (t.node? place).any (·.isDirectory) = false ↔ t.node? place ≠ some .directory := by
  cases t.node? place with
  | none => simp
  | some node => cases node <;> simp [FileNode.isDirectory]

/-- When a file is read. -/
theorem read_eq_ok_iff : t.read path = .ok content ↔ ∃ place,
    t.locate path = .ok place ∧ t.node? place = some (.file content) ∧
      endsAsDirectory path = false := by
  rw [read]
  cases hlocate : t.locate path with
  | error e => simp
  | ok place =>
    simp only [Except.ok.injEq, exists_eq_left']
    cases hnode : t.node? place with
    | none => simp
    | some node =>
      cases node with
      | directory => simp
      | file content' => cases hend : endsAsDirectory path <;> simp

/-- The bytes of a text are read as that text. -/
theorem readText_eq_ok_of_read {text : String} (h : t.read path = .ok text.toUTF8) :
    t.readText path = .ok text := by
  have hdecoded : String.fromUTF8? text.toUTF8 = some text := dif_pos text.isValidUTF8
  simp only [readText, h, hdecoded]

/-- When a file is written, and what the tree is then. -/
theorem write_eq_ok_iff : t.write path content = .ok t' ↔ ∃ place,
    t.locate path = .ok place ∧ endsAsDirectory path = false ∧
      t.node? place ≠ some .directory ∧ t' = t.put place (.file content) := by
  rw [write]
  cases hlocate : t.locate path with
  | error e => simp
  | ok place =>
    simp only [Except.ok.injEq, exists_eq_left', ← any_isDirectory_eq_false_iff]
    cases hend : endsAsDirectory path <;>
      cases hany : (t.node? place).any (·.isDirectory) <;> simp [eq_comm]

/-- When a file is moved, and what the tree is then. -/
theorem rename_eq_ok_iff {source target : String} : t.rename source target = .ok t' ↔
    ∃ sourcePlace targetPlace content,
      t.locate source = .ok sourcePlace ∧ t.node? sourcePlace = some (.file content) ∧
      t.locate target = .ok targetPlace ∧ endsInDot target = false ∧
      endsAsDirectory target = false ∧ t.node? targetPlace ≠ some .directory ∧
      t' = (t.erase sourcePlace).put targetPlace (.file content) := by
  constructor
  · intro h
    rw [rename] at h
    split at h
    · simp at h
    · next sourcePlace hsource =>
      split at h
      · simp at h
      · simp at h
      · next content hnode =>
        split at h
        · simp at h
        · next targetPlace htarget =>
          split at h
          · split at h <;> simp at h
          · next hdot =>
            split at h
            · simp at h
            · next hend =>
              split at h
              · simp at h
              · next hany =>
                rw [Bool.not_eq_true] at hdot hend hany
                rw [Except.ok.injEq] at h
                exact ⟨sourcePlace, targetPlace, content, hsource, hnode, htarget, hdot, hend,
                  any_isDirectory_eq_false_iff.1 hany, h.symm⟩
  · rintro ⟨sourcePlace, targetPlace, content, hsource, hnode, htarget, hdot, hend, hany, rfl⟩
    rw [← any_isDirectory_eq_false_iff] at hany
    simp [rename, hsource, hnode, htarget, hdot, hend, hany]

/-- Where no file could be written there is none to be removed. -/
theorem remove_of_write_eq_error {e : FileError} (h : t.write path content = .error e) :
    t.remove path = t := by
  rw [remove]
  split
  · rfl
  · next place hlocate =>
    split
    · next content' hnode =>
      split
      · rfl
      · next hend =>
        rw [Bool.not_eq_true] at hend
        have hwritten : t.write path content = .ok (t.put place (.file content)) :=
          write_eq_ok_iff.2 ⟨place, hlocate, hend, by simp [hnode], rfl⟩
        rw [hwritten] at h
        simp at h
    · rfl

/-- A file that was written is removed again, and so is what was there before. -/
theorem node?_remove_of_write_eq_ok (h : t.write path content = .ok t') : ∃ place,
    t.locate path = .ok place ∧ t.node? place ≠ some .directory ∧
      ∀ other, (t'.remove path).node? other = if other = place then none else t.node? other := by
  obtain ⟨place, hlocate, hend, hnode, rfl⟩ := write_eq_ok_iff.1 h
  have hplace : place ≠ [] := ne_nil_of_node?_ne hnode
  have hlocate' : (t.put place (.file content)).locate path = .ok place :=
    (locate_eq_ok_congr (.put hnode content)).2 hlocate
  have hnode' : (t.put place (.file content)).node? place = some (.file content) := by
    rw [node?_put hplace, if_pos rfl]
  have hremoved : (t.put place (.file content)).remove path =
      (t.put place (.file content)).erase place := by
    simp [remove, hlocate', hnode', hend]
  refine ⟨place, hlocate, hnode, fun other => ?_⟩
  rw [hremoved, node?_erase hplace]
  by_cases hother : other = place
  · rw [if_pos hother, if_pos hother]
  · rw [if_neg hother, if_neg hother, node?_put hplace, if_neg hother]

/-- A file is read as before if the tree is as before at its place. -/
theorem read_eq_ok_congr (hdirs : t.SameDirectories t')
    (h : ∀ place, t.locate path = .ok place → t'.node? place = t.node? place) :
    t'.read path = .ok content ↔ t.read path = .ok content := by
  rw [read_eq_ok_iff, read_eq_ok_iff]
  refine exists_congr fun place => ?_
  rw [locate_eq_ok_congr hdirs]
  refine and_congr_right fun hlocate => ?_
  rw [h place hlocate]

end FileTree
end IndexPlanner
