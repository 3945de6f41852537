import RegionSalvage.Text.Quoted

/-! # Files and directories as a value

The program reads an image and writes files beside it.  What it does to the disk is described on a
`FileTree`: the files and directories below the working directory, and those that absolute paths
name.  An operation either gives a new tree or a `PathError`, whose text is what is reported.

Paths are resolved component by component: every component but the last has to be a directory that
exists, `.` stays where it is, and `..` goes up, from the working directory too.  A path that holds
a NUL is none at all; the longest path has `maxPathLength` bytes and its longest name
`maxNameLength`.
-/

namespace RegionSalvage

/-- Why a file operation fails. -/
inductive FileError where
  | missing
  | alreadyExists
  | notDirectory
  | isDirectory
  | nameTooLong
  | nulInPath
deriving DecidableEq, Repr

def FileError.description : FileError → String
  | .missing => "[Errno 2] No such file or directory"
  | .alreadyExists => "[Errno 17] File exists"
  | .notDirectory => "[Errno 20] Not a directory"
  | .isDirectory => "[Errno 21] Is a directory"
  | .nameTooLong => "[Errno 36] File name too long"
  | .nulInPath => "embedded null byte"

/-- A file error and the path it is about; a failed renaming names its target too. -/
structure PathError where
  error : FileError
  path : String
  target : Option String := none
deriving DecidableEq, Repr

def PathError.message (e : PathError) : String :=
  if e.error = .nulInPath then e.error.description
  else e.error.description ++ ": " ++ quoted e.path ++
    match e.target with
    | none => ""
    | some target => " -> " ++ quoted target

inductive FileNode where
  | file (content : ByteArray)
  | directory

/-- A place: the names on the way to it from the working directory.  The first name of an absolute
place is a slash; a place outside the working directory starts with `..`. -/
abbrev Location := List String

namespace Location

/-- Whether a place is the working directory or above it. -/
def isAbove (place : Location) : Bool := place.all (· == "..")

/-- The place one up; above the root there is nothing else. -/
def up (place : Location) : Location :=
  if place = ["/"] then place
  else if place.isAbove then place ++ [".."]
  else place.dropLast

end Location

/-- Everything below the working directory, and what absolute paths name. -/
structure FileTree where
  entries : List (Location × FileNode) := []

namespace FileTree

/-- What stands at a place.  The root, the working directory and those above it are always there. -/
def node? (t : FileTree) (place : Location) : Option FileNode :=
  if place = ["/"] ∨ place.isAbove then some .directory else t.entries.lookup place

/-- Puts something at a place, in the place of what was there. -/
def put (t : FileTree) (place : Location) (node : FileNode) : FileTree :=
  if (t.entries.lookup place).isSome then
    ⟨t.entries.map fun entry => if entry.1 = place then (place, node) else entry⟩
  else ⟨t.entries ++ [(place, node)]⟩

def remove (t : FileTree) (place : Location) : FileTree :=
  ⟨t.entries.filter fun entry => entry.1 != place⟩

/-! ## Paths -/

/-- The longest name of a file, in bytes. -/
def maxNameLength : Nat := 255

def maxPathLength : Nat := 4095

/-- The names on the way that a path describes.  Slashes stand between them; more than one, or
some in front or behind, make no difference. -/
def namesOf (path : String) : List String :=
  ((path.toList.splitOn '/').map String.ofList).filter (· ≠ "")

def enter (t : FileTree) (place : Location) (name : String) : Except FileError Location :=
  if name = "." then .ok place
  else if name = ".." then .ok place.up
  else if maxNameLength < name.utf8ByteSize then .error .nameTooLong
  else match t.node? (place ++ [name]) with
    | none => .error .missing
    | some (.file _) => .error .notDirectory
    | some .directory => .ok (place ++ [name])

/-- The place that a path names, and whether only a directory may be there. -/
structure Spot where
  place : Location
  wantsDirectory : Bool

/-- The place that a path names; there need not be anything yet. -/
def locate (t : FileTree) (path : String) : Except FileError Spot := do
  if path.contains '\x00' then throw .nulInPath
  if path.isEmpty then throw .missing
  if maxPathLength < path.utf8ByteSize then throw .nameTooLong
  let names := namesOf path
  let origin : Location := if path.startsWith "/" then ["/"] else []
  match names.getLast? with
  | none => return ⟨origin, true⟩
  | some name =>
    let parent ← names.dropLast.foldlM t.enter origin
    if name = "." ∨ name = ".." then return ⟨← t.enter parent name, true⟩
    return ⟨parent ++ [name], path.endsWith "/"⟩

def nodeAt (t : FileTree) (spot : Spot) : Except FileError (Option FileNode) :=
  if maxNameLength < (spot.place.getLastD "").utf8ByteSize then .error .nameTooLong
  else .ok (t.node? spot.place)

def pathExists (t : FileTree) (path : String) : Bool :=
  match t.locate path with
  | .error _ => false
  | .ok spot =>
    match t.node? spot.place with
    | none => false
    | some .directory => true
    | some (.file _) => !spot.wantsDirectory

def isDirectory (t : FileTree) (path : String) : Bool :=
  match t.locate path with
  | .error _ => false
  | .ok spot => t.node? spot.place matches some .directory

/-! ## Operations -/

def report {α : Type} (path : String) : Except FileError α → Except PathError α
  | .ok a => .ok a
  | .error e => .error ⟨e, path, none⟩

def read (t : FileTree) (path : String) : Except PathError ByteArray := report path do
  let spot ← t.locate path
  match ← t.nodeAt spot with
  | none => throw .missing
  | some .directory => throw .isDirectory
  | some (.file content) => if spot.wantsDirectory then throw .notDirectory else return content

/-- Makes a file with the given content, in the place of the one that may be there. -/
def write (t : FileTree) (path : String) (content : ByteArray) : Except PathError FileTree :=
  report path do
    let spot ← t.locate path
    if spot.wantsDirectory then throw .isDirectory
    match ← t.nodeAt spot with
    | some .directory => throw .isDirectory
    | _ => return t.put spot.place (.file content)

/-- Writes at the start of a file that is open, over what is there. -/
def overwrite (t : FileTree) (path : String) (content : ByteArray) : Except PathError FileTree := do
  let old ← t.read path
  t.write path (content ++ old.extract content.size old.size)

def makeDirectory (t : FileTree) (path : String) : Except PathError FileTree := report path do
  let spot ← t.locate path
  match ← t.nodeAt spot with
  | some _ => throw .alreadyExists
  | none => return t.put spot.place .directory

/-- Renames a file, in the place of the one that may have the new name. -/
def rename (t : FileTree) (source target : String) : Except PathError FileTree :=
  let attempt : Except FileError FileTree := do
    let old ← t.locate source
    let new ← t.locate target
    match ← t.nodeAt old, ← t.nodeAt new with
    | none, _ => throw .missing
    | some (.file _), some .directory => throw .isDirectory
    | some node, _ => return (t.remove old.place).put new.place node
  match attempt with
  | .ok t => .ok t
  | .error e => .error ⟨e, source, some target⟩

/-- A path without its last name, and that name. -/
def splitPath (path : String) : String × String :=
  let reversed := path.toList.reverse
  let tail := reversed.takeWhile (· ≠ '/')
  let head := reversed.dropWhile (· ≠ '/')
  let head := if head.all (· = '/') then head else head.dropWhile (· = '/')
  (String.ofList head.reverse, String.ofList tail.reverse)

def joinPath (directory name : String) : String :=
  if name.startsWith "/" then name
  else if directory.isEmpty || directory.endsWith "/" then directory ++ name
  else directory ++ "/" ++ name

/-- Makes a directory and those on the way to it, at most `depth` of them.  What is there already
is left alone; on failure the tree has the directories that were made. -/
def makeDirectories : (depth : Nat) → FileTree → String → FileTree × Option PathError
  | 0, t, _ => (t, none)
  | depth + 1, t, path =>
    let (head, tail) := splitPath path
    let (head, tail) := if tail.isEmpty then splitPath head else (head, tail)
    let needsParent := !head.isEmpty && !tail.isEmpty && !t.pathExists head
    let (t, failure) := if needsParent then makeDirectories depth t head else (t, none)
    match failure with
    | some e => if e.error = .alreadyExists then leaf t path else (t, failure)
    | none => if needsParent && tail = "." then (t, none) else leaf t path
where
  leaf (t : FileTree) (path : String) : FileTree × Option PathError :=
    match t.makeDirectory path with
    | .ok t => (t, none)
    | .error e => if t.isDirectory path then (t, none) else (t, some e)

def ensureDirectory (t : FileTree) (path : String) : FileTree × Option PathError :=
  makeDirectories (path.length + 1) t path

def pathOf : Location → String
  | [] => "."
  | "/" :: names => "/" ++ String.intercalate "/" names
  | names => String.intercalate "/" names

/-- The places that a path leads through, its end included. -/
def waypoints (path : String) : List Location :=
  let origin : Location := if path.startsWith "/" then ["/"] else []
  let names := namesOf path
  (List.range (names.length + 1)).map fun n =>
    (names.take n).foldl (fun place name =>
      if name = "." then place
      else if name = ".." then place.up
      else place ++ [name]) origin

def files (t : FileTree) : List (String × ByteArray) :=
  t.entries.filterMap fun (place, node) =>
    match node with
    | .file content => some (pathOf place, content)
    | .directory => none

end FileTree

end RegionSalvage
