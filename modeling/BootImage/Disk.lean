import BootImage.FileSystem.Operations
import BootImage.IoError
import BootImage.Staging
/-!
# Disks

A `Disk` is a device of equal sectors that are read and written as wholes. Its sectors lie one
after the other in a staging file. `Disk.commit` renames the staging file to the target;
`Disk.discard` removes it. Until the commit nothing happens to the target, so no half-written image
ever stands there.
-/

namespace BootImage

/-- An open disk. -/
structure Disk where
  /-- The open staging file. -/
  file : FileId
  /-- The name of the staging file. -/
  staging : Path
  /-- The name it gets on commit. -/
  target : Path
  sectorSize : Nat
  sectorCount : Nat
deriving DecidableEq, Repr

namespace Disk

/-- Gives a disk up: its staging file is removed, if it is still there. -/
def discard (disk : Disk) (fs : FileSystem) : FileSystem :=
  match fs.removeFile disk.staging with
  | .ok removed => removed
  | .error _ => fs

/-- Opens a disk of zeros in a staging file. If that fails, no staging file is left. -/
def openAt (staging target : Path) (sectorSize sectorCount : Nat) (fs : FileSystem) :
    Except (Failure IoError) Disk × FileSystem :=
  match fs.createFile staging with
  | .error cause => (.error (.error (.system cause)), fs)
  | .ok (file, created) =>
    -- The staging file is there from here on, so whatever is refused has to take it away again.
    let disk : Disk := { file, staging, target, sectorSize, sectorCount }
    match Word.mul sectorSize sectorCount with
    | .error fault => (.error (.fault fault), disk.discard created)
    | .ok len =>
      match created.setLength file len with
      | .error cause => (.error (.error (.system cause)), disk.discard created)
      | .ok sized => (.ok disk, sized)

/-- Opens a disk of zeros for a target, in a staging file of its own. -/
def create (target : Path) (sectorSize sectorCount : Nat) (tag : Uuid) (fs : FileSystem) :
    Except (Failure IoError) Disk × FileSystem :=
  openAt (target.staging tag) target sectorSize sectorCount fs

/-- Publishes the disk under its target's name, instead of the file that was there. If that fails,
the disk is given up. -/
def commit (disk : Disk) (fs : FileSystem) : Except IoError Unit × FileSystem :=
  match fs.renameFile disk.staging disk.target with
  | .ok renamed => (.ok (), renamed)
  | .error cause => (.error (.system cause), disk.discard fs)

/-! ## Sectors -/

/-- Refuses a sector the disk does not have, then a buffer that is not a sector long. -/
def check (disk : Disk) (sector len : Nat) : Except IoError Unit :=
  if disk.sectorCount ≤ sector then
    .error (.sectorOutOfRange sector disk.sectorCount)
  else if len ≠ disk.sectorSize then
    .error (.wrongLength len disk.sectorSize)
  else
    .ok ()

/-- Reads a sector into a buffer of `len` bytes. -/
def read (disk : Disk) (sector len : Nat) (fs : FileSystem) :
    Except (Failure IoError) (List UInt8) := do
  disk.check sector len
  let offset ← Word.mul sector disk.sectorSize
  fs.readExactly disk.file offset len

/-- Writes a sector. -/
def write (disk : Disk) (sector : Nat) (data : List UInt8) (fs : FileSystem) :
    Except (Failure IoError) FileSystem := do
  disk.check sector data.length
  let offset ← Word.mul sector disk.sectorSize
  return fs.writeAt disk.file offset data

end Disk

end BootImage
