import Resampler.OrderedMap
import Resampler.Store.Path
import Resampler.Text.Quoted

/-!
# A tree of files

Logs are kept in files, and the files in directories below one root. Where a
file or directory is, its location, is said by the names on the way from the
root; what is written is a path, which has to be walked to come to a location.
A walk passes through directories only, so a path that goes on after a file,
even with a part that stays, leads nowhere.

The root is the end of the tree: what would be above it is the root again.
-/

namespace Resampler

/-- **Where a file or directory is**: the names on the way from the root. -/
abbrev Location := List String

/-- **What is at a location.** -/
inductive FileNode where
  | directory
  | file (content : List UInt8)
deriving DecidableEq

/-- **The files below a root.** -/
structure FileTree where
  /-- The name under which the root is shown. -/
  root : String
  /-- What is at each location, the root apart. -/
  nodes : OrderedMap Location FileNode

namespace FileTree

/-- A root without files. -/
def ofRoot (root : String) : FileTree := ⟨root, .empty⟩

/-- What is at a location. -/
def get? (t : FileTree) (place : Location) : Option FileNode :=
  if place = [] then some .directory else t.nodes.get? place

/-- Write what is at a location. -/
def set (t : FileTree) (place : Location) (node : FileNode) : FileTree :=
  { t with nodes := t.nodes.insert place node }

/-- Whether there is a directory at a location. -/
def isDirectory (t : FileTree) (place : Location) : Bool :=
  t.get? place = some .directory

/-- The text of a path. -/
def text (t : FileTree) (path : Path) : String := path.textBelow t.root

/-- The quoted text of a path, as messages show it. -/
def quoted (t : FileTree) (path : Path) : String := Quoted.ofText (t.text path)

/-! ## Walking -/

/-- **Where steps from a location lead**, if each of them can be taken. A step
is taken from a directory; what a name is entered for need not be there
unless the walk goes on. -/
def walk (t : FileTree) (here : Location) : List Path.Step → Option Location
  | [] => some here
  | step :: rest =>
    if t.isDirectory here then
      match step with
      | .stay => t.walk here rest
      | .up => t.walk here.dropLast rest
      | .enter name =>
        if Path.isName name then t.walk (here ++ [name]) rest else none
    else none

/-- **Where a path leads**, to something that is there or could be made. -/
def locate? (t : FileTree) (path : Path) : Option Location :=
  if path.isWalkable then t.walk [] path.steps else none

/-- The content of the file at a location; what is no file has none. -/
def contentAt (t : FileTree) (place : Location) : List UInt8 :=
  match t.get? place with
  | some (.file content) => content
  | _ => []

/-- The content of the file that a path leads to. -/
def content? (t : FileTree) (path : Path) : Option (List UInt8) :=
  match (t.locate? path).bind t.get? with
  | some (.file content) => some content
  | _ => none

/-! ## Making directories and files -/

/-- Take steps from a location and make the directories that are missing. The
tree tells how far it came, and the flag whether that was to the end. -/
def makeWay (t : FileTree) (here : Location) :
    List Path.Step → FileTree × Bool
  | [] => (t, true)
  | .stay :: rest => t.makeWay here rest
  | .up :: rest => t.makeWay here.dropLast rest
  | .enter name :: rest =>
    let next := here ++ [name]
    match t.get? next with
    | some .directory => t.makeWay next rest
    | some (.file _) => (t, false)
    | none =>
      if Path.isName name then (t.set next .directory).makeWay next rest
      else (t, false)

/-- **Make a directory and those on the way to it.** A file in the way or a
name that cannot be given ends this early; the directories made until then
stay. -/
def makeDirectories (t : FileTree) (path : Path) : FileTree × Bool :=
  if path.isWalkable then t.makeWay [] path.steps else (t, false)

/-- Make the directory that is to hold what a path leads to. -/
def makeParent (t : FileTree) (path : Path) : FileTree × Bool :=
  match path.parent? with
  | none => (t, true)
  | some parent => t.makeDirectories parent

/-- Write a whole file, with the directories on the way to it; `none` if that
cannot be. -/
def writeFile (t : FileTree) (path : Path) (content : List UInt8) :
    Option FileTree :=
  match t.makeParent path with
  | (_, false) => none
  | (t, true) =>
    (t.locate? path).bind fun place =>
      if t.isDirectory place then none else some (t.set place (.file content))

/-! ## Writing -/

@[simp] theorem get?_set (t : FileTree) (place other : Location)
    (node : FileNode) (h : other ≠ []) :
    (t.set place node).get? other
      = if place = other then some node else t.get? other := by
  simp [get?, set, h]

/-- Writing a file where no directory is leaves all directories. -/
theorem isDirectory_set_file {t : FileTree} {place : Location}
    (h : t.isDirectory place = false) (content : List UInt8)
    (other : Location) :
    (t.set place (.file content)).isDirectory other = t.isDirectory other := by
  by_cases hother : other = []
  · simp [isDirectory, get?, hother]
  · by_cases heq : place = other
    · subst heq
      rw [h]
      simp [isDirectory, hother]
    · simp [isDirectory, hother, heq]

end FileTree

end Resampler
