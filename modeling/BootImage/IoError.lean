import BootImage.Config
import BootImage.SystemError
/-!
# Errors of files, disks and builds

`IoError` is what an operation on a file or a disk can be refused for, and `BuildError` adds the
refusals of the assembly.
-/

namespace BootImage

/-- An operation on a file or a disk that was refused. -/
inductive IoError
  | system (cause : SystemError)
  /-- The disk has no sector of that number. -/
  | sectorOutOfRange (sector sectorCount : Nat)
  /-- A sector is read or written as a whole, and the buffer has another length. -/
  | wrongLength (len sectorSize : Nat)
  /-- Disk and image are not cut into the same sectors. -/
  | geometryMismatch (diskCount diskSize imageCount imageSize : Nat)
  /-- What the disk holds is not what the image holds. -/
  | sectorDiffers (sector : Nat)
deriving DecidableEq, Repr

namespace IoError

/-- The kind of an error. -/
def kind : IoError → ErrorKind
  | .system cause => cause.kind
  | .sectorOutOfRange _ _ => .invalidInput
  | .wrongLength _ _ => .invalidInput
  | .geometryMismatch _ _ _ _ => .invalidData
  | .sectorDiffers _ => .invalidData

/-- The error in words. -/
def message : IoError → String
  | .system cause => cause.message
  | .sectorOutOfRange sector sectorCount =>
    "sector " ++ toString sector ++ " out of range (disk has " ++ toString sectorCount ++ ")"
  | .wrongLength len sectorSize =>
    "buffer is " ++ toString len ++ " bytes, sector is " ++ toString sectorSize
  | .geometryMismatch diskCount diskSize imageCount imageSize =>
    "verification failed: disk has " ++ toString diskCount ++ " x " ++ toString diskSize ++
      " B sectors, image has " ++ toString imageCount ++ " x " ++ toString imageSize ++ " B"
  | .sectorDiffers sector =>
    "verification failed: sector " ++ toString sector ++ " differs after write"

end IoError

/-- What the system refuses is refused. -/
instance : MonadLift (Except SystemError) (Except IoError) where
  monadLift x := x.mapError .system

/-- Why there is no image, or none on disk. -/
inductive BuildError
  | assembly (cause : AssemblyError)
  | io (cause : IoError)
deriving DecidableEq, Repr

/-- The error in words. -/
def BuildError.message : BuildError → String
  | .assembly cause => cause.message
  | .io cause => cause.message

end BootImage
