import IndexPlanner.FileTree

/-!
# The path beside a path

A file that is written beside another one has its path but for the extension.  Which place
that is, is not obvious from the text of the path: slashes may be doubled, single dots say
nothing, and an extension may be missing or be all that there is.  So the paths are compared
part by part.

* `splitPath_joinPath`: the parts of a path that was put together are the parts it was made of.
* `pathNames_siblingPath`: the path beside another one has the same names but for the last one,
  whose extension is exchanged.
  For a last name like `..` or `..x` nothing is left that could take an extension, and then the
  path ends in two dots.
* `siblingName_ne`: with an extension like `json.tmp` the new name is another one.
-/

namespace IndexPlanner

/-! ## Parts -/

theorem splitPath_cons_slash (path : List Char) :
    splitPath ('/' :: path) = [] :: splitPath path := by
  rw [splitPath, if_pos rfl]

theorem splitPath_ne_nil (path : List Char) : splitPath path ≠ [] := by
  cases path with
  | nil => exact List.cons_ne_nil _ _
  | cons c path =>
    rw [splitPath]
    split
    · exact List.cons_ne_nil _ _
    · split <;> exact List.cons_ne_nil _ _

/-- A character that is no slash belongs to the first part. -/
theorem exists_splitPath_cons {c : Char} (h : c ≠ '/') (path : List Char) :
    ∃ part parts, splitPath path = part :: parts ∧
      splitPath (c :: path) = (c :: part) :: parts := by
  obtain ⟨part, parts, hparts⟩ := List.exists_cons_of_ne_nil (splitPath_ne_nil path)
  exact ⟨part, parts, hparts, by rw [splitPath, if_neg h, hparts]⟩

/-- No part has a slash. -/
theorem slash_notMem_of_mem_splitPath {path part : List Char} (h : part ∈ splitPath path) :
    '/' ∉ part := by
  induction path generalizing part with
  | nil =>
    obtain rfl := List.mem_singleton.1 h
    exact List.not_mem_nil
  | cons c path ih =>
    by_cases hc : c = '/'
    · rw [hc, splitPath_cons_slash, List.mem_cons] at h
      rcases h with rfl | h
      · exact List.not_mem_nil
      · exact ih h
    · obtain ⟨first, parts, hpath, hsplit⟩ := exists_splitPath_cons hc path
      rw [hpath] at ih
      rw [hsplit, List.mem_cons] at h
      rcases h with rfl | h
      · rw [List.mem_cons, not_or]
        exact ⟨Ne.symm hc, ih List.mem_cons_self⟩
      · exact ih (List.mem_cons_of_mem first h)

/-- A part ends at the next slash. -/
theorem splitPath_append_slash {part : List Char} (h : '/' ∉ part) (path : List Char) :
    splitPath (part ++ '/' :: path) = part :: splitPath path := by
  induction part with
  | nil => exact splitPath_cons_slash path
  | cons c part ih =>
    rw [List.mem_cons, not_or] at h
    rw [List.cons_append, splitPath, if_neg (Ne.symm h.1), ih h.2]

theorem splitPath_of_slash_notMem {part : List Char} (h : '/' ∉ part) :
    splitPath part = [part] := by
  induction part with
  | nil => rfl
  | cons c part ih =>
    rw [List.mem_cons, not_or] at h
    rw [splitPath, if_neg (Ne.symm h.1), ih h.2]

/-- The parts of a path that was put together. -/
theorem splitPath_joinPath {parts : List (List Char)} (hne : parts ≠ [])
    (h : ∀ part ∈ parts, '/' ∉ part) : splitPath (joinPath parts) = parts := by
  induction parts with
  | nil => exact absurd rfl hne
  | cons part parts ih =>
    rw [List.forall_mem_cons] at h
    cases parts with
    | nil => exact splitPath_of_slash_notMem h.1
    | cons next parts =>
      show splitPath (part ++ '/' :: joinPath (next :: parts)) = part :: next :: parts
      rw [splitPath_append_slash h.1, ih (List.cons_ne_nil _ _) h.2]

/-- A path whose end is no directory by the way it is written has a last part with a meaning. -/
theorem exists_splitPath_eq_concat {path : String} (h : endsAsDirectory path = false) :
    ∃ parts last, splitPath path.toList = parts ++ [last] ∧ isSilentPart last = false := by
  rcases List.eq_nil_or_concat (splitPath path.toList) with hnil | ⟨parts, last, hparts⟩
  · exact absurd hnil (splitPath_ne_nil _)
  · rw [List.concat_eq_append] at hparts
    refine ⟨parts, last, hparts, ?_⟩
    rw [endsAsDirectory, hparts, List.getLast?_concat] at h
    exact h

/-- Such a path does not end in a single dot. -/
theorem endsInDot_of_endsAsDirectory {path : String} (h : endsAsDirectory path = false) :
    endsInDot path = false := by
  obtain ⟨parts, last, hparts, hlast⟩ := exists_splitPath_eq_concat h
  have hspeaks : last ≠ [] ∧ last ≠ ['.'] := by simpa [isSilentPart] using hlast
  rw [endsInDot, hparts, List.filter_append]
  simp [hspeaks.1, hspeaks.2]

/-- The names along a path with a last part that says something. -/
theorem pathNames_of_splitPath {path : String} {parts : List (List Char)} {last : List Char}
    (hparts : splitPath path.toList = parts ++ [last]) (hlast : isSilentPart last = false) :
    pathNames path =
      (parts.filter fun part => !isSilentPart part).map String.ofList ++ [String.ofList last] := by
  rw [pathNames, hparts, List.filter_append, List.map_append]
  simp [hlast]

/-! ## Extensions -/

/-- The name of a file with another extension. -/
def siblingName (extension name : String) : String :=
  String.ofList (stem name.toList ++ '.' :: extension.toList)

/-- A name is cut at its last dot. -/
theorem stem_append_dot {before extension : List Char} (hne : before ≠ [])
    (h : '.' ∉ extension) : stem (before ++ '.' :: extension) = before := by
  have hdrop : ((before ++ '.' :: extension).reverse.dropWhile (· ≠ '.')).tail.reverse =
      before := by
    rw [List.reverse_append, List.reverse_cons, List.append_assoc,
      List.dropWhile_append_of_pos]
    · simp
    · intro c hc
      rw [List.mem_reverse] at hc
      rw [decide_eq_true_eq]
      exact fun heq => h (heq ▸ hc)
  unfold stem
  split
  · next hnil => exact absurd (hdrop.symm.trans hnil) hne
  · exact hdrop

/-- An extension with a dot is more than what is cut off, so the new name is another one. -/
theorem siblingName_ne {extension : String} {before after : List Char}
    (hextension : extension.toList = before ++ '.' :: after) (h : '.' ∉ after) (name : String) :
    siblingName extension name ≠ name := by
  intro heq
  have hname : stem name.toList ++ '.' :: extension.toList = name.toList := by
    have hlist := congrArg String.toList heq
    rw [siblingName, String.toList_ofList] at hlist
    exact hlist
  have hlonger : stem name.toList = stem name.toList ++ '.' :: before := by
    have hcut : stem (stem name.toList ++ '.' :: extension.toList) =
        stem name.toList ++ '.' :: before := by
      rw [hextension, ← List.cons_append, ← List.append_assoc]
      exact stem_append_dot (by simp) h
    rw [hname] at hcut
    exact hcut
  have hlength := congrArg List.length hlonger
  rw [List.length_append, List.length_cons] at hlength
  omega

/-- The last part of the path beside another one: two dots, if nothing but a dot is left of the
name without its extension. -/
def siblingPart (extension part : List Char) : List Char :=
  if stem part = ['.'] then ['.', '.'] else stem part ++ '.' :: extension

theorem isSilentPart_siblingPart {extension part : List Char} (hne : extension ≠ []) :
    isSilentPart (siblingPart extension part) = false := by
  unfold siblingPart
  split
  · decide
  · cases hstem : stem part with
    | nil => simp [isSilentPart, hne]
    | cons c cs => simp [isSilentPart]

theorem replaceExtensionReversed_cons {extension part : List Char} {parts : List (List Char)}
    (h : isSilentPart part = false) :
    replaceExtensionReversed extension (part :: parts) =
      some (siblingPart extension part :: parts) := by
  have hdots : stem ['.', '.'] = ['.'] := by decide
  unfold replaceExtensionReversed siblingPart
  by_cases hstem : stem part = ['.']
  · simp [h, hstem]
  · have hpart : part ≠ ['.', '.'] := by
      rintro rfl
      exact hstem hdots
    simp [h, hstem, hpart, withExtensionReversed]

/-- No name has a slash, so neither has a name with another extension. -/
theorem slash_notMem_stem {part : List Char} (h : '/' ∉ part) : '/' ∉ stem part := by
  unfold stem
  split
  · exact h
  · intro hmem
    have hdropped := List.mem_of_mem_tail (List.mem_reverse.1 hmem)
    have hmem' := (List.dropWhile_suffix _).subset hdropped
    exact h (List.mem_reverse.1 hmem')

theorem slash_notMem_siblingPart {extension part : List Char} (h : '/' ∉ part)
    (hextension : '/' ∉ extension) : '/' ∉ siblingPart extension part := by
  unfold siblingPart
  split
  · decide
  · rw [List.mem_append, List.mem_cons]
    rintro (hmem | hmem | hmem)
    · exact slash_notMem_stem h hmem
    · exact absurd hmem (by decide)
    · exact hextension hmem

/-- The parts of the path beside another one. -/
theorem splitPath_siblingPath {extension path : String} {parts : List (List Char)}
    {last : List Char} (hextension : '/' ∉ extension.toList)
    (hparts : splitPath path.toList = parts ++ [last]) (hlast : isSilentPart last = false) :
    splitPath (siblingPath extension path).toList =
      parts ++ [siblingPart extension.toList last] := by
  have hslash : ∀ part ∈ parts ++ [last], '/' ∉ part := fun part hpart =>
    slash_notMem_of_mem_splitPath (hparts ▸ hpart)
  rw [List.forall_mem_append, List.forall_mem_singleton] at hslash
  have hreversed : replaceExtensionReversed extension.toList (splitPath path.toList).reverse =
      some (siblingPart extension.toList last :: parts.reverse) := by
    rw [hparts, List.reverse_append]
    exact replaceExtensionReversed_cons hlast
  simp only [siblingPath, hreversed, String.toList_ofList]
  rw [List.reverse_cons, List.reverse_reverse]
  refine splitPath_joinPath (by simp) ?_
  rw [List.forall_mem_append, List.forall_mem_singleton]
  exact ⟨hslash.1, slash_notMem_siblingPart hslash.2 hextension⟩

/-- The path beside one that names a file names a file as well. -/
theorem endsAsDirectory_siblingPath {extension path : String}
    (hextension : '/' ∉ extension.toList) (hne : extension.toList ≠ [])
    (h : endsAsDirectory path = false) : endsAsDirectory (siblingPath extension path) = false := by
  obtain ⟨parts, last, hparts, hlast⟩ := exists_splitPath_eq_concat h
  rw [endsAsDirectory, splitPath_siblingPath hextension hparts hlast, List.getLast?_concat]
  exact isSilentPart_siblingPart hne

/-- The names along the path beside another one are the same but for the last one.  Either the
last name has the other extension, or it is two dots. -/
theorem pathNames_siblingPath {extension path : String} (hextension : '/' ∉ extension.toList)
    (hne : extension.toList ≠ []) (h : endsAsDirectory path = false) :
    ∃ names last, pathNames path = names ++ [last] ∧
      (pathNames (siblingPath extension path) = names ++ [".."] ∨
        last ≠ ".." ∧
          pathNames (siblingPath extension path) = names ++ [siblingName extension last]) := by
  obtain ⟨parts, last, hparts, hlast⟩ := exists_splitPath_eq_concat h
  have hsibling := pathNames_of_splitPath (splitPath_siblingPath hextension hparts hlast)
    (isSilentPart_siblingPart hne)
  refine ⟨_, String.ofList last, pathNames_of_splitPath hparts hlast, ?_⟩
  by_cases hstem : stem last = ['.']
  · rw [siblingPart, if_pos hstem] at hsibling
    exact .inl hsibling
  · rw [siblingPart, if_neg hstem] at hsibling
    refine .inr ⟨fun hdots => ?_, ?_⟩
    · have hlist : last = ['.', '.'] := by
        rw [← String.toList_ofList (l := last), hdots]
        rfl
      exact hstem (hlist ▸ by decide)
    · rw [siblingName, String.toList_ofList]
      exact hsibling

/-- Only the last dot counts, and not the one at the beginning of a name. -/
example : siblingPath "json.tmp" "a//x.y.json/." = "a//x.y.json.tmp" ∧
    siblingPath "json.tmp" ".x" = ".x.json.tmp" ∧ siblingPath "json.tmp" "..x" = ".." := by
  decide

end IndexPlanner
