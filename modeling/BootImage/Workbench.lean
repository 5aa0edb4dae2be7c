import BootImage.Disk.Publish
/-!
# Several disks at once

A workbench is a file tree with any number of open disks, each in a slot of its own. A `Step` uses
one of them, or publishes an image, or makes a directory. Steps may come in any order; one that is
refused changes no file and leaves the other slots alone.
-/

namespace BootImage

/-- The ingredients of an image. -/
structure Recipe where
  boot : List UInt8
  kernel : Option (List UInt8)
  config : Config
deriving DecidableEq, Repr

/-- The image of a recipe. -/
def Recipe.assemble (recipe : Recipe) : Except (Failure AssemblyError) Image :=
  Image.assemble recipe.boot recipe.kernel recipe.config

/-- The name of a slot. -/
abbrev Slot := String

/-- Something to do on a workbench. -/
inductive Step
  /-- Opens a disk; the disk that was in the slot is given up. -/
  | create (slot : Slot) (target : Path) (sectorSize sectorCount : Nat)
  /-- Asks for the size and number of a disk's sectors. -/
  | geometry (slot : Slot)
  | write (slot : Slot) (sector : Nat) (data : List UInt8)
  /-- Reads a sector into a buffer of `len` bytes. -/
  | read (slot : Slot) (sector len : Nat)
  /-- Compares a disk with the image of a recipe. -/
  | verify (slot : Slot) (recipe : Recipe)
  /-- Commits a disk; the slot is empty afterwards, whatever comes of it. -/
  | commit (slot : Slot)
  | discard (slot : Slot)
  /-- Publishes the image of a recipe without a slot. -/
  | publish (output : Path) (verify : Bool) (recipe : Recipe)
  | makeDirectories (path : Path)
deriving Repr

/-- What comes of a step. -/
inductive Answer
  | done
  | geometry (sectorSize sectorCount : Nat)
  | data (bytes : List UInt8)
  | published (progress : Progress)
  /-- The slot is empty. -/
  | noDisk
  | refused (failure : Failure BuildError)
  /-- Writing an image failed after so much of it. -/
  | unpublished (failure : Failure IoError) (progress : Progress)
deriving Repr

/-- A file tree and the disks that are open. -/
structure Workbench where
  fs : FileSystem
  disks : List (Slot × Disk)

namespace Workbench

/-- The disk in a slot. -/
def disk? (bench : Workbench) (slot : Slot) : Option Disk :=
  (bench.disks.find? (·.1 = slot)).map Prod.snd

/-- The workbench with an empty slot. -/
def close (bench : Workbench) (slot : Slot) : Workbench :=
  { bench with disks := bench.disks.filter (·.1 ≠ slot) }

/-- The workbench with a disk in a slot. -/
def install (bench : Workbench) (slot : Slot) (disk : Disk) : Workbench :=
  { bench with disks := (slot, disk) :: bench.disks.filter (·.1 ≠ slot) }

/-- Gives up the disk in a slot, if there is one. -/
def discard (bench : Workbench) (slot : Slot) : Workbench :=
  match bench.disk? slot with
  | none => bench
  | some disk => { bench.close slot with fs := disk.discard bench.fs }

/-- The answer to a step that changes nothing. -/
def answer {α : Type} (result : Except (Failure IoError) α) (f : α → Answer) : Answer :=
  match result with
  | .ok value => f value
  | .error failure => .refused (failure.map .io)

/-- One step. The tag names the staging file if the step makes one. -/
def step (bench : Workbench) (tag : Uuid) : Step → Answer × Workbench
  | .create slot target sectorSize sectorCount =>
    match Disk.create target sectorSize sectorCount tag bench.fs with
    | (.error failure, fs) => (.refused (failure.map .io), { bench with fs })
    -- The disk that was in the slot goes only when the new one is open.
    | (.ok disk, fs) => (.done, ({ bench with fs }.discard slot).install slot disk)
  | .geometry slot =>
    match bench.disk? slot with
    | none => (.noDisk, bench)
    | some disk => (.geometry disk.sectorSize disk.sectorCount, bench)
  | .write slot sector data =>
    match bench.disk? slot with
    | none => (.noDisk, bench)
    | some disk =>
      match disk.write sector data bench.fs with
      | .error failure => (.refused (failure.map .io), bench)
      | .ok fs => (.done, { bench with fs })
  | .read slot sector len =>
    match bench.disk? slot with
    | none => (.noDisk, bench)
    | some disk => (answer (disk.read sector len bench.fs) .data, bench)
  | .verify slot recipe =>
    match bench.disk? slot with
    | none => (.noDisk, bench)
    | some disk =>
      match recipe.assemble with
      | .error failure => (.refused (failure.map .assembly), bench)
      | .ok image => (answer (disk.verify image bench.fs) fun _ => .done, bench)
  | .commit slot =>
    match bench.disk? slot with
    | none => (.noDisk, bench)
    | some disk =>
      match disk.commit bench.fs with
      | (.error cause, fs) => (.refused (.error (.io cause)), { bench.close slot with fs })
      | (.ok (), fs) => (.done, { bench.close slot with fs })
  | .discard slot =>
    match bench.disk? slot with
    | none => (.noDisk, bench)
    | some _ => (.done, bench.discard slot)
  | .publish output verify recipe =>
    match recipe.assemble with
    | .error failure => (.refused (failure.map .assembly), bench)
    | .ok image =>
      match image.publish output verify tag .fresh bench.fs with
      | ⟨.error failure, fs, progress⟩ => (.unpublished failure progress, { bench with fs })
      | ⟨.ok (), fs, progress⟩ => (.published progress, { bench with fs })
  | .makeDirectories path =>
    match bench.fs.makeDirectories path with
    | (.error cause, fs) => (.refused (.error (.io (.system cause))), { bench with fs })
    | (.ok (), fs) => (.done, { bench with fs })

/-- Gives up all open disks. -/
def discardAll (bench : Workbench) : FileSystem :=
  bench.disks.foldl (fun fs (_, disk) => disk.discard fs) bench.fs

end Workbench

end BootImage
