import BootImage.Disk
import BootImage.Image
/-!
# Comparing a disk with an image

The disk has to have the image's sectors, and each of them has to read back as the image has it.
The first sector that does not is the one that is reported.
-/

namespace BootImage

namespace Disk

/-- Compares `count` sectors from `sector` on with the bytes of an image. -/
def compareSectors (disk : Disk) (bytes : Array UInt8) (fs : FileSystem) :
    (count sector : Nat) → Except (Failure IoError) Unit
  | 0, _ => .ok ()
  | count + 1, sector => do
    let stored ← disk.read sector disk.sectorSize fs
    let start ← Word.mul sector disk.sectorSize
    let stop ← Word.mul (sector + 1) disk.sectorSize
    let expected ← Bytes.slice bytes start stop
    if stored ≠ expected then
      throw (.error (.sectorDiffers sector))
    disk.compareSectors bytes fs count (sector + 1)

/-- Compares the whole disk with an image. Sectors are not looked at if their number or size is
not the image's. -/
def verify (disk : Disk) (image : Image) (fs : FileSystem) : Except (Failure IoError) Unit := do
  let count ← image.layout.sectorCount
  let size := image.layout.sectorSize
  if disk.sectorCount ≠ count ∨ disk.sectorSize ≠ size then
    throw (.error (.geometryMismatch disk.sectorCount disk.sectorSize count size))
  disk.compareSectors image.bytes.toArray fs count 0

end Disk

end BootImage
