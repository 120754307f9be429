import IndexPlanner.Text.Order

/-!
# Files as a value

Catalogs and configurations are kept in files.  What a save does to the files around it
is a question of its own, so the files are a value here: a tree of directories below one
top directory, and operations that give back the tree after them.  A path that cannot be
followed, or that ends at the wrong kind of thing, is an error.

Paths are relative to the top directory.  Their parts are separated by slashes, empty
parts and single dots say nothing, and two dots lead one directory up.  A path that ends
in a slash means a directory.  A name may have 255 bytes and a path 4095, and the
character with the code zero may be in neither.

* `FileTree.read`, `FileTree.write`, `FileTree.rename`, `FileTree.remove` and
  `FileTree.makeDirectories` are the operations;
* `FileTree.node?_put` and `FileTree.node?_erase` say what one change does to every
  place;
* `siblingPath` puts another extension in the place of that of a path.
-/

namespace IndexPlanner

/-- Why a file cannot be used. -/
inductive FileError where
  | notFound
  | notADirectory
  | isADirectory
  /-- The place cannot be given to something else. -/
  | busy
  /-- A name, or the whole path, has too many bytes. -/
  | nameTooLong
  /-- The path contains the character with the code zero. -/
  | nulInPath
  /-- The content of the file is no text in UTF-8. -/
  | notText
  deriving DecidableEq, Repr

/-- The wording of an error. -/
def FileError.message : FileError → String
  | notFound => "No such file or directory (os error 2)"
  | notADirectory => "Not a directory (os error 20)"
  | isADirectory => "Is a directory (os error 21)"
  | busy => "Device or resource busy (os error 16)"
  | nameTooLong => "File name too long (os error 36)"
  | nulInPath => "file name contained an unexpected NUL byte"
  | notText => "stream did not contain valid UTF-8"

/-! ## Paths -/

/-- The parts of a path between its slashes. -/
def splitPath (path : List Char) : List (List Char) :=
  match path with
  | [] => [[]]
  | c :: cs =>
    if c = '/' then [] :: splitPath cs
    else
      match splitPath cs with
      | [] => [[c]]
      | part :: parts => (c :: part) :: parts

/-- Puts the slashes back between the parts of a path. -/
def joinPath : List (List Char) → List Char
  | [] => []
  | [part] => part
  | part :: parts => part ++ '/' :: joinPath parts

/-- Whether a part of a path says nothing. -/
def isSilentPart (part : List Char) : Bool := part = [] || part = ['.']

/-- The names along a path. -/
def pathNames (path : String) : List String :=
  ((splitPath path.toList).filter fun part => !isSilentPart part).map String.ofList

/-- Whether a path can only mean a directory, by the way it ends. -/
def endsAsDirectory (path : String) : Bool :=
  (splitPath path.toList).getLast?.any isSilentPart

/-- Whether a path ends in a single dot, so that it names no entry of a directory. -/
def endsInDot (path : String) : Bool :=
  ((splitPath path.toList).filter (· ≠ [])).getLast? = some ['.']

/-- Whether a name has more bytes than an entry of a directory may have. -/
def isOverlongName (name : String) : Bool := 255 < name.utf8ByteSize

/-- What is wrong with a path by itself, whatever the files are. -/
def pathFault? (path : String) : Option FileError :=
  if path.toList.any (·.toNat = 0) then some .nulInPath
  else if path = "" then some .notFound
  else if 4096 ≤ path.utf8ByteSize then some .nameTooLong
  else none

/-- The name of a file up to its last dot, if there is something before the dot. -/
def stem (name : List Char) : List Char :=
  match (name.reverse.dropWhile (· ≠ '.')).tail.reverse with
  | [] => name
  | before => before

/-- Puts the extension `extension` in the place of that of the last of the parts of a
path, given from the last to the first.  Silent parts after it are dropped. -/
def withExtensionReversed (extension : List Char) :
    List (List Char) → Option (List (List Char))
  | [] => none
  | part :: parts =>
    if isSilentPart part then withExtensionReversed extension parts
    else if part = ['.', '.'] then none
    else some ((stem part ++ '.' :: extension) :: parts)

/-- Cuts the old extension off the end of a path before `extension` is put there.  Cutting
`..x` leaves two dots, which name no file and take no extension.  Where silent parts follow,
the end of the path is not the end of the name, and nothing of this happens. -/
def replaceExtensionReversed (extension : List Char) (parts : List (List Char)) :
    Option (List (List Char)) :=
  match parts with
  | [] => none
  | part :: before =>
    if !isSilentPart part && stem part = ['.'] then some (['.', '.'] :: before)
    else withExtensionReversed extension parts

/-- The path beside another one whose extension is `extension`; a path that names no file
stays as it is, and one that ends in `..x` loses the `x`. -/
def siblingPath (extension path : String) : String :=
  match replaceExtensionReversed extension.toList (splitPath path.toList).reverse with
  | none => path
  | some parts => String.ofList (joinPath parts.reverse)

/-! ## Trees -/

/-- What may be at a place. -/
inductive FileNode where
  | directory
  | file (content : ByteArray)

/-- Whether it is a directory. -/
def FileNode.isDirectory : FileNode → Bool
  | directory => true
  | file _ => false

/-- A tree of directories and files.  A place is the list of names that leads to it. -/
structure FileTree where
  entries : List (List String × FileNode)

namespace FileTree

/-- The top directory with nothing in it. -/
def empty : FileTree := ⟨[]⟩

instance : Inhabited FileTree := ⟨empty⟩

/-- What is at a place. -/
def node? (t : FileTree) (place : List String) : Option FileNode :=
  if place = [] then some .directory
  else (t.entries.find? (·.1 = place)).map (·.2)

/-- Leaves nothing at a place. -/
def erase (t : FileTree) (place : List String) : FileTree :=
  ⟨t.entries.filter (·.1 ≠ place)⟩

/-- Puts something at a place, instead of what was there. -/
def put (t : FileTree) (place : List String) (node : FileNode) : FileTree :=
  ⟨(place, node) :: (t.erase place).entries⟩

theorem node?_erase {t : FileTree} {place other : List String} (h : place ≠ []) :
    (t.erase place).node? other = if other = place then none else t.node? other := by
  unfold node? erase
  split
  · next hother =>
    subst hother
    rw [if_neg (Ne.symm h)]
  · split
    · next heq =>
      subst heq
      simp [List.find?_eq_none]
    · next hne =>
      congr 1
      rw [List.find?_filter]
      congr 1
      funext e
      by_cases he : e.1 = other
      · simp [he, hne]
      · simp [he]

theorem node?_put {t : FileTree} {place other : List String} {node : FileNode}
    (h : place ≠ []) :
    (t.put place node).node? other =
      if other = place then some node else t.node? other := by
  by_cases heq : other = place
  · subst heq
    simp [put, node?, h]
  · have hrest : (t.erase place).node? other =
        if other = place then none else t.node? other := node?_erase h
    rw [if_neg heq] at hrest ⊢
    rw [← hrest]
    simp [put, node?, Ne.symm heq]

/-- Follows directories from a place. -/
def follow (t : FileTree) (place : List String) :
    List String → Except FileError (List String)
  | [] => .ok place
  | name :: names =>
    if name = ".." then follow t place.dropLast names
    else if isOverlongName name then .error .nameTooLong
    else
      match t.node? (place ++ [name]) with
      | some .directory => follow t (place ++ [name]) names
      | some (.file _) => .error .notADirectory
      | none => .error .notFound

/-- The place that a path leads to.  All directories on the way must be there, its end
need not be. -/
def locate (t : FileTree) (path : String) : Except FileError (List String) :=
  match pathFault? path with
  | some e => .error e
  | none =>
    match (pathNames path).getLast? with
    | none => .ok []
    | some last =>
      if last = ".." then t.follow [] (pathNames path)
      else
        match t.follow [] (pathNames path).dropLast with
        | .error e => .error e
        | .ok place =>
          if isOverlongName last then .error .nameTooLong else .ok (place ++ [last])

/-- The content of the file at a path. -/
def read (t : FileTree) (path : String) : Except FileError ByteArray :=
  match t.locate path with
  | .error e => .error e
  | .ok place =>
    match t.node? place with
    | none => .error .notFound
    | some .directory => .error .isADirectory
    | some (.file content) =>
      if endsAsDirectory path then .error .notADirectory else .ok content

/-- The text in the file at a path. -/
def readText (t : FileTree) (path : String) : Except FileError String :=
  match t.read path with
  | .error e => .error e
  | .ok content =>
    match String.fromUTF8? content with
    | some text => .ok text
    | none => .error .notText

/-- Writes a file, instead of the file that was there. -/
def write (t : FileTree) (path : String) (content : ByteArray) :
    Except FileError FileTree :=
  match t.locate path with
  | .error e => .error e
  | .ok place =>
    if endsAsDirectory path || (t.node? place).any (·.isDirectory) then .error .isADirectory
    else .ok (t.put place (.file content))

/-- Moves a file to another path, instead of the file that was there. -/
def rename (t : FileTree) (source target : String) : Except FileError FileTree :=
  match t.locate source with
  | .error e => .error e
  | .ok sourcePlace =>
    match t.node? sourcePlace with
    | none => .error .notFound
    | some .directory => .error .isADirectory
    | some (.file content) =>
      match t.locate target with
      | .error e => .error e
      | .ok targetPlace =>
        if endsInDot target then
          match t.follow [] (pathNames target) with
          | .error e => .error e
          | .ok _ => .error .busy
        else if endsAsDirectory target then .error .notADirectory
        else if (t.node? targetPlace).any (·.isDirectory) then .error .isADirectory
        else .ok ((t.erase sourcePlace).put targetPlace (.file content))

/-- Removes the file at a path, if there is one. -/
def remove (t : FileTree) (path : String) : FileTree :=
  match t.locate path with
  | .error _ => t
  | .ok place =>
    match t.node? place with
    | some (.file _) => if endsAsDirectory path then t else t.erase place
    | _ => t

/-- Makes the directories along a list of names, from a place on. -/
def makeAlong (t : FileTree) (place : List String) :
    List String → Except FileError FileTree
  | [] => .ok t
  | name :: names =>
    if name = ".." then makeAlong t place.dropLast names
    else if isOverlongName name then .error .nameTooLong
    else
      match t.node? (place ++ [name]) with
      | some .directory => makeAlong t (place ++ [name]) names
      | some (.file _) => .error .notADirectory
      | none => makeAlong (t.put (place ++ [name]) .directory) (place ++ [name]) names

/-- Makes all directories along a path that are not there yet. -/
def makeDirectories (t : FileTree) (path : String) : Except FileError FileTree :=
  match pathFault? path with
  | some .notFound => .ok t
  | some e => .error e
  | none => t.makeAlong [] (pathNames path)

/-- The path of everything in the tree, in ascending order.  Directories end in a
slash. -/
def listing (t : FileTree) : List String :=
  let path (e : List String × FileNode) :=
    "/".intercalate e.1 ++ (if e.2.isDirectory then "/" else "")
  (t.entries.map path).mergeSort fun a b => ¬ Text.Before b a

end FileTree

end IndexPlanner
