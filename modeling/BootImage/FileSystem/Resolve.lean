import BootImage.FileSystem.Trail
import BootImage.SystemError
/-!
# From paths to places

A path is followed piece by piece through the directories of a tree. All pieces but the last have
to be directories that exist; what the last one names is for the operation to decide, so
`FileSystem.resolve` ends in a directory and a name.
-/

namespace BootImage

/-- No name is longer than this many bytes. -/
def nameLimit : Nat := 255

/-- A path is shorter than this many bytes. -/
def pathLimit : Nat := 4096

/-- What a path comes down to. -/
inductive Destination
  /-- The entry of that name in a directory; `asDirectory` if a slash follows the name. -/
  | entry (directory : Location) (name : Name) (asDirectory : Bool)
  /-- A directory reached without a name: the root, `.` or `..`. -/
  | directory (place : Location)
deriving DecidableEq, Repr

namespace Path

/-- Whether the path starts at the root. -/
def isAbsolute (path : Path) : Bool :=
  path.chars.head? = some '/'

/-- Whether the path ends in a slash, as only the path of a directory may. -/
def endsInSlash (path : Path) : Bool :=
  path.chars.getLast? = some '/'

/-- The pieces that take a step: neither slashes at the ends nor repeated ones do. -/
def steps (path : Path) : List Name :=
  path.pieces.filter (· ≠ [])

end Path

namespace FileSystem

/-- What a name refers to among the entries of a directory, if anything. -/
def lookupIn (entries : NameTree Node) (name : Name) : Except SystemError (Option Node) :=
  if nameLimit < name.byteLength then .error .nameTooLong else .ok (entries.value? name)

/-- What a name refers to in a directory, if anything. -/
def lookup (fs : FileSystem) (directory : Location) (name : Name) :
    Except SystemError (Option Node) :=
  lookupIn (fs.within directory) name

/-- Goes from a directory into the one that a piece names. The root is its own parent. -/
def enter (fs : FileSystem) (trail : Trail) (piece : Name) : Except SystemError Trail := do
  if piece = Name.dot then
    return trail
  else if piece = Name.dotDot then
    return trail.tail
  else
    match ← lookupIn (fs.around trail) piece with
    | none => throw .noSuchEntry
    | some (.file _) => throw .notADirectory
    | some .directory => return fs.extend trail piece

/-- Follows a path up to its last piece. -/
def resolve (fs : FileSystem) (path : Path) : Except SystemError Destination := do
  if '\x00' ∈ path.chars then
    throw .nulInPath
  if path.chars = [] then
    throw .noSuchEntry
  if pathLimit ≤ Name.byteLength path.chars then
    throw .nameTooLong
  let start := if path.isAbsolute then [] else fs.home
  let steps := path.steps
  match steps.getLast? with
  | none => return .directory start
  | some last =>
    let trail ← steps.dropLast.foldlM fs.enter (fs.trailTo start)
    if last = Name.dot then
      return .directory trail.place
    else if last = Name.dotDot then
      return .directory trail.place.tail
    else
      return .entry trail.place last path.endsInSlash

theorem lookup_eq (fs : FileSystem) (directory : Location) (name : Name) :
    fs.lookup directory name =
      if nameLimit < name.byteLength then .error .nameTooLong
      else .ok (fs.node? (name :: directory)) := by
  rw [node?_cons]
  rfl

/-- A step from a place, in terms of places alone. -/
theorem enter_trailTo {piece : Name} (h : piece ≠ Name.dot) (h' : piece ≠ Name.dotDot)
    (fs : FileSystem) (directory : Location) :
    fs.enter (fs.trailTo directory) piece = do
      match ← fs.lookup directory piece with
      | none => throw .noSuchEntry
      | some (.file _) => throw .notADirectory
      | some .directory => return fs.trailTo (piece :: directory) := by
  simp only [enter, h, h', if_false, lookup, around_trailTo, extend_trailTo]

end FileSystem

end BootImage
