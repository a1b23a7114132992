/-!
# Paths as they are written

A path is written as parts with slashes between them, and each part is a step
of a walk that begins at a root. The part `..` goes up to the directory above,
an empty part and the part `.` stay where they are, and any other part is the
name of something to enter. Differently written paths may lead to the same
file; a path keeps the form in which it is written, for that form is shown.
-/

namespace Resampler

/-- **A path as it is written.** -/
structure Path where
  /-- What stands between the slashes. -/
  parts : List String
deriving DecidableEq

namespace Path

/-- **A step of a walk.** -/
inductive Step where
  | stay
  | up
  | enter (name : String)
deriving DecidableEq

/-- The step that a part stands for. -/
def Step.ofPart (part : String) : Step :=
  if part = "" || part = "." then .stay
  else if part = ".." then .up
  else .enter part

/-- Cut a text at its slashes. -/
def cut : List Char → List (List Char)
  | [] => [[]]
  | c :: rest =>
    if c = '/' then [] :: cut rest
    else
      match cut rest with
      | [] => [[c]]
      | part :: parts => (c :: part) :: parts

/-- The path that a text writes. -/
def ofText (text : String) : Path := ⟨(cut text.toList).map String.ofList⟩

/-- The text of a path below a root. -/
def textBelow (root : String) (p : Path) : String :=
  "/".intercalate (root :: p.parts)

/-- **The steps of the walk.** -/
def steps (p : Path) : List Step := p.parts.map Step.ofPart

/-- Drop the parts at the front that stay where they are. -/
def dropStays (parts : List String) : List String :=
  parts.dropWhile fun part => Step.ofPart part = .stay

/-- **The path without its last step**, and without the parts beside it that
only stay; `none` if all parts stay. -/
def parent? (p : Path) : Option Path :=
  match dropStays p.parts.reverse with
  | [] => none
  | _ :: above => some ⟨(dropStays above).reverse⟩

/-! ## Bounds -/

/-- The longest name has 255 bytes. -/
def nameBound : Nat := 255

/-- Whether a name can be given to a file or directory. -/
def isName (name : String) : Bool := name.utf8ByteSize ≤ nameBound

/-- The longest way below a root has this many bytes, slashes counted: 4095,
less sixteen for the way to the root. -/
def wayBound : Nat := 4079

/-- The number of bytes that a path has, slashes between its parts counted. -/
def byteSize (p : Path) : Nat :=
  p.parts.foldl (fun n part => n + (part.utf8ByteSize + 1)) 0 - 1

/-- **Whether a path can be walked at all**: it is not too long, and there is
no zero character in it, which would end it early. -/
def isWalkable (p : Path) : Bool :=
  p.byteSize ≤ wayBound && p.parts.all fun part => !part.toList.contains '\x00'

end Path

end Resampler
