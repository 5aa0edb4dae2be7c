import BootImage.FileSystem.Resolve
import BootImage.Word
/-!
# Operations on files

The operations of the operating system that an image build needs, on a tree without links and
permissions. Each answers with the changed tree or refuses and changes nothing, except that
`FileSystem.makeDirectories` keeps what it has made so far. Where a path has two faults, the order
of the checks here says which one is reported.

Nothing is refused but for a reason in the tree or in the length asked for: there is room for all bytes,
and no device fails. What becomes of an image where that is not so is in `BootImage.Proofs.Job.Refusals`.
-/

namespace BootImage

namespace FileSystem

/-! ## By path -/

/-- Reads a whole file. -/
def readAll (fs : FileSystem) (path : Path) : Except SystemError (List UInt8) := do
  match ← fs.resolve path with
  | .directory _ => throw .isADirectory
  | .entry directory name asDirectory =>
    match ← fs.lookup directory name with
    | none => throw .noSuchEntry
    | some .directory => throw .isADirectory
    | some (.file id) =>
      if asDirectory then throw .notADirectory else return (fs.content id).toList

/-- Makes a file of the given bytes, or replaces the bytes of the file that is there. -/
def writeAll (fs : FileSystem) (path : Path) (bytes : List UInt8) :
    Except SystemError FileSystem := do
  match ← fs.resolve path with
  | .directory _ => throw .isADirectory
  | .entry directory name asDirectory =>
    if asDirectory then
      throw .isADirectory
    match ← fs.lookup directory name with
    | none => return fs.addFile (name :: directory) (.ofList bytes)
    | some .directory => throw .isADirectory
    | some (.file id) => return fs.setContent id (.ofList bytes)

/-- Makes an empty file where nothing is, and opens it. -/
def createFile (fs : FileSystem) (path : Path) : Except SystemError (FileId × FileSystem) := do
  match ← fs.resolve path with
  | .directory _ => throw .alreadyExists
  | .entry directory name asDirectory =>
    if asDirectory then
      throw .isADirectory
    match ← fs.lookup directory name with
    | none => return (fs.contents.length, fs.addFile (name :: directory) .empty)
    | some _ => throw .alreadyExists

/-- Gives a file another name, instead of the file that had this name. Directories neither move
nor are replaced. -/
def renameFile (fs : FileSystem) (source target : Path) : Except SystemError FileSystem := do
  let sourceEnd ← fs.resolve source
  let targetEnd ← fs.resolve target
  match sourceEnd, targetEnd with
  | .entry sourceDirectory sourceName sourceSlash, .entry targetDirectory targetName targetSlash =>
    match ← fs.lookup sourceDirectory sourceName with
    | none => throw .noSuchEntry
    | some .directory => throw .isADirectory
    | some (.file _) =>
      let replaced ← fs.lookup targetDirectory targetName
      -- A slash is objected to only after both names have been looked up.
      if sourceSlash || targetSlash then
        throw .notADirectory
      if replaced = some .directory then
        throw .isADirectory
      return fs.move (sourceName :: sourceDirectory) (targetName :: targetDirectory)
  | _, _ => throw .busy

/-- Removes the name of a file. -/
def removeFile (fs : FileSystem) (path : Path) : Except SystemError FileSystem := do
  match ← fs.resolve path with
  | .directory _ => throw .isADirectory
  | .entry directory name asDirectory =>
    match ← fs.lookup directory name with
    | none => throw .noSuchEntry
    | some .directory => throw .isADirectory
    | some (.file _) =>
      if asDirectory then throw .notADirectory else return fs.erase (name :: directory)

/-- Makes a directory in one that exists. -/
def makeDirectory (fs : FileSystem) (path : Path) : Except SystemError FileSystem := do
  match ← fs.resolve path with
  | .directory _ => throw .alreadyExists
  | .entry directory name _ =>
    match ← fs.lookup directory name with
    | none => return fs.addDirectory (name :: directory)
    | some _ => throw .alreadyExists

/-- Whether a path leads to a directory. -/
def isDirectory (fs : FileSystem) (path : Path) : Bool :=
  match fs.resolve path with
  | .ok (.directory _) => true
  | .ok (.entry directory name _) => fs.node? (name :: directory) = some .directory
  | .error _ => false

/-- Makes a directory in one that exists, unless it is there already. -/
def ensureDirectory (fs : FileSystem) (path : Path) : Except SystemError FileSystem :=
  match fs.makeDirectory path with
  | .ok made => .ok made
  | .error cause => if fs.isDirectory path then .ok fs else .error cause

/-- Makes the first of some directories, after those behind it if it has to lie in them. Each is
given by the pieces of its path, the last one first. -/
def makeFirst : List (List Name) → FileSystem → Except SystemError Unit × FileSystem
  | [], fs => (.ok (), fs)
  | pieces :: above, fs =>
    match fs.ensureDirectory (.ofPieces pieces.reverse) with
    | .ok made => (.ok (), made)
    | .error .noSuchEntry =>
      -- Something on the way is missing. With that made, the second try decides.
      match makeFirst above fs with
      | (.error cause, made) => (.error cause, made)
      | (.ok (), made) =>
        match made.ensureDirectory (.ofPieces pieces.reverse) with
        | .ok complete => (.ok (), complete)
        | .error cause => (.error cause, made)
    | .error cause => (.error cause, fs)

/-- Makes a directory, and those it lies in, as far as they are missing. The empty path asks for
nothing. -/
def makeDirectories (fs : FileSystem) (path : Path) : Except SystemError Unit × FileSystem :=
  if path.chars = [] then (.ok (), fs) else makeFirst (path.pieces.reverse :: path.above) fs

/-! ## On an open file -/

/-- Reads so many bytes from an offset of a file, which all have to be there. -/
def readExactly (fs : FileSystem) (id : FileId) (offset len : Nat) :
    Except SystemError (List UInt8) :=
  let bytes := (fs.content id).read offset len
  if bytes.length < len then .error .unexpectedEnd else .ok bytes

/-- Writes bytes at an offset of a file. -/
def writeAt (fs : FileSystem) (id : FileId) (offset : Nat) (bytes : List UInt8) : FileSystem :=
  fs.setContent id ((fs.content id).write offset bytes)

/-- Cuts a file off or fills it up with zeros. -/
def setLength (fs : FileSystem) (id : FileId) (len : Nat) : Except SystemError FileSystem :=
  if len < lengthLimit then
    .ok (fs.setContent id ((fs.content id).resize len))
  else
    .error .lengthTooLarge

/-! ## Listing -/

/-- Everything below the home directory: places from there and what they refer to. Each directory
comes before what it holds, and names come in order. -/
def listing (fs : FileSystem) : List (Location × Node) :=
  (fs.within fs.home).valuesFrom []

end FileSystem

end BootImage
