import BootImage.Disk.Verify
import BootImage.Progress
/-!
# Writing an image to a file

`Image.publish` opens a disk for the output, writes the image sector by sector, compares if asked
to, and commits. Whatever fails on the way, the disk is given up and the output stays as it was.
-/

namespace BootImage

/-- What came of writing an image, and how far it got. -/
structure Publication where
  result : Except (Failure IoError) Unit
  fs : FileSystem
  progress : Progress

namespace Disk

/-- Writes sectors one after the other and counts them, up to the first that is refused. -/
def writeSectors (disk : Disk) : (sectors : List (List UInt8)) → (first : Nat) → FileSystem →
    Progress → Except (Failure IoError) Unit × FileSystem × Progress
  | [], _, fs, progress => (.ok (), fs, progress)
  | data :: sectors, sector, fs, progress =>
    match disk.write sector data fs with
    | .error failure => (.error failure, fs, progress)
    | .ok written => disk.writeSectors sectors (sector + 1) written progress.advance

end Disk

namespace Image

/-- Writes an image to a disk that has yet to be opened, with the read-back comparison if `verify` is
set. -/
def publishThrough (image : Image)
    (openDisk : (sectorSize sectorCount : Nat) → FileSystem → Except (Failure IoError) Disk × FileSystem)
    (verify : Bool) (progress : Progress) (fs : FileSystem) : Publication :=
  match image.layout.sectorCount with
  | .error fault => ⟨.error (.fault fault), fs, progress⟩
  | .ok count =>
    match openDisk image.layout.sectorSize count fs with
    | (.error failure, fs) => ⟨.error failure, fs, progress⟩
    | (.ok disk, fs) =>
      let progress := progress.ofLength count
      match image.sectors with
      | .error fault => ⟨.error (.fault fault), disk.discard fs, progress⟩
      | .ok sectors =>
        match disk.writeSectors sectors 0 fs progress with
        | (.error failure, fs, progress) => ⟨.error failure, disk.discard fs, progress⟩
        | (.ok (), fs, progress) =>
          match if verify then disk.verify image fs else .ok () with
          | .error failure => ⟨.error failure, disk.discard fs, progress⟩
          | .ok () =>
            match disk.commit fs with
            -- A commit that is refused has given the disk up already.
            | (.error cause, fs) => ⟨.error (.error cause), fs, progress⟩
            | (.ok (), fs) => ⟨.ok (), fs, progress⟩

/-- Writes an image to a file, through a disk for that file. -/
def publish (image : Image) (output : Path) (verify : Bool) (tag : Uuid) (progress : Progress)
    (fs : FileSystem) : Publication :=
  image.publishThrough (fun sectorSize sectorCount => Disk.create output sectorSize sectorCount tag) verify
    progress fs

end Image

end BootImage
