import BootImage.Disk.Verify
import BootImage.Proofs.Disk.SectorArray
import BootImage.Proofs.Image.Sectors
/-!
# Reading a disk back

A comparison of a disk with an image looks at the geometry first and then at one sector after the
other. Where the disk stores the sectors of the image, none of this fails.
-/

namespace BootImage

open FileSystem

theorem Bytes.slice_eq {bytes : List UInt8} {start stop : Nat} (h : start ≤ stop)
    (h' : stop ≤ bytes.length) :
    slice bytes.toArray start stop = .ok ((bytes.drop start).take (stop - start)) := by
  rw [slice, if_pos ⟨h, h'⟩]
  simp

/-- The bytes of an array from a block's offset up to the next one's are the block. -/
theorem SectorArray.slice_eq {array : SectorArray} {sector : Nat} (hs : sector < array.sectorCount) :
    Bytes.slice array.bytes.toArray (sector * array.sectorSize) ((sector + 1) * array.sectorSize) =
      .ok (array.block sector) := by
  have hend : (sector + 1) * array.sectorSize ≤ array.bytes.length := by
    rw [length_bytes, Nat.mul_comm array.sectorSize]
    exact Nat.mul_le_mul_right _ hs
  have hlen : (sector + 1) * array.sectorSize - sector * array.sectorSize = array.sectorSize := by
    rw [Nat.add_mul, Nat.one_mul, Nat.add_sub_cancel_left]
  rw [Bytes.slice_eq (Nat.mul_le_mul_right _ (Nat.le_succ sector)) hend, hlen, slice_bytes hs]

namespace Disk

/-- The part of a comparison that needs no sector: how many there are to compare. -/
def checkGeometry (disk : Disk) (image : Image) : Except (Failure IoError) Nat := do
  let count ← image.layout.sectorCount
  let size := image.layout.sectorSize
  if disk.sectorCount ≠ count ∨ disk.sectorSize ≠ size then
    throw (.error (.geometryMismatch disk.sectorCount disk.sectorSize count size))
  return count

theorem verify_eq (disk : Disk) (image : Image) (fs : FileSystem) :
    disk.verify image fs = disk.checkGeometry image >>= fun count =>
      disk.compareSectors image.bytes.toArray fs count 0 := by
  unfold verify checkGeometry
  cases image.layout.sectorCount with
  | error fault => rfl
  | ok count =>
    by_cases hdiffer : disk.sectorCount ≠ count ∨ disk.sectorSize ≠ image.layout.sectorSize
    · simp [hdiffer, bind, Except.bind, throw, throwThe, MonadExceptOf.throw, liftM, monadLift,
        MonadLift.monadLift, Except.mapError]
    · simp [hdiffer, bind, Except.bind, pure, Except.pure, liftM, monadLift, MonadLift.monadLift,
        Except.mapError]

variable {disk : Disk} {array : SectorArray} {fs : FileSystem} {bytes : Array UInt8}

/-- Sectors are compared one by one. -/
theorem compareSectors_succ (disk : Disk) (bytes : Array UInt8) (fs : FileSystem)
    (count sector : Nat) :
    disk.compareSectors bytes fs (count + 1) sector =
      disk.compareSectors bytes fs 1 sector >>= fun _ =>
        disk.compareSectors bytes fs count (sector + 1) := by
  simp only [compareSectors, bind_assoc]
  refine bind_congr fun stored => bind_congr fun start => bind_congr fun stop =>
    bind_congr fun expected => ?_
  by_cases hdiffer : stored = expected
  · simp only [hdiffer, ne_eq, not_true, if_false]
    rfl
  · simp only [hdiffer, ne_eq, not_false_eq_true, if_true]
    rfl

theorem read_block (h : disk.Stores array fs) {sector : Nat} (hs : sector < array.sectorCount) :
    disk.read sector disk.sectorSize fs = .ok (array.block sector) := by
  rw [read_eq h, SectorArray.refusal?_eq_none_iff.2 ⟨hs, h.sectorSize_eq⟩]

/-! ## Block by block -/

/-- Reads a sector and compares it with the block that should be there. -/
def compareBlock (disk : Disk) (fs : FileSystem) (sector : Nat) (block : List UInt8) :
    Except (Failure IoError) Unit := do
  let stored ← disk.read sector disk.sectorSize fs
  if stored ≠ block then
    throw (.error (.sectorDiffers sector))

/-- Compares blocks with the sectors from one on, up to the first that differs. -/
def compareBlocks (disk : Disk) (fs : FileSystem) :
    (sector : Nat) → List (List UInt8) → Except (Failure IoError) Unit
  | _, [] => .ok ()
  | sector, block :: blocks => do
    disk.compareBlock fs sector block
    disk.compareBlocks fs (sector + 1) blocks

/-- What is expected of a sector is its block, cut from the bytes between two products, and no product
is too large for a word. -/
theorem compareSectors_one_eq (hsize : disk.sectorSize = array.sectorSize)
    (hfits : array.sectorSize * array.sectorCount < lengthLimit) {sector : Nat}
    (hs : sector < array.sectorCount) :
    disk.compareSectors array.bytes.toArray fs 1 sector =
      disk.compareBlock fs sector (array.block sector) := by
  have hoffset : ∀ n ≤ array.sectorCount, Word.mul n disk.sectorSize = .ok (n * array.sectorSize) := by
    intro n hn
    have hle : n * array.sectorSize ≤ array.sectorCount * array.sectorSize :=
      Nat.mul_le_mul_right _ hn
    rw [Nat.mul_comm] at hfits
    have hlt : n * array.sectorSize < wordLimit :=
      Nat.lt_trans (Nat.lt_of_le_of_lt hle hfits) (by decide)
    rw [Word.mul, hsize, if_pos hlt]
  simp only [compareSectors, compareBlock, hoffset sector (Nat.le_of_lt hs), hoffset (sector + 1) hs]
  refine bind_congr fun stored => ?_
  simp only [SectorArray.slice_eq hs, bind, Except.bind, liftM, monadLift, MonadLift.monadLift,
    Except.mapError]
  by_cases hdiffer : stored = array.block sector
  · simp only [hdiffer, ne_eq, not_true, if_false]
    rfl
  · simp only [hdiffer, ne_eq, not_false_eq_true, if_true]
    rfl

/-- The comparison of an array's bytes goes through its blocks. -/
theorem compareSectors_eq (hsize : disk.sectorSize = array.sectorSize)
    (hfits : array.sectorSize * array.sectorCount < lengthLimit) (count sector : Nat)
    (hcount : sector + count = array.sectorCount) :
    disk.compareSectors array.bytes.toArray fs count sector =
      disk.compareBlocks fs sector (array.blocks.drop sector) := by
  induction count generalizing sector with
  | zero =>
    have hnone : array.blocks.drop sector = [] :=
      List.drop_eq_nil_of_le (Nat.le_of_eq (hcount.symm.trans (Nat.add_zero sector)))
    rw [hnone]
    rfl
  | succ count ih =>
    have hs : sector < array.sectorCount := by omega
    rw [compareSectors_succ, compareSectors_one_eq hsize hfits hs, ih (sector + 1) (by omega),
      SectorArray.drop_blocks hs]
    rfl

/-- Sectors that are found equal are passed by. -/
theorem compareBlocks_skip {sector : Nat} (hs : sector ≤ array.sectorCount)
    (h : ∀ i < sector, disk.compareBlock fs i (array.block i) = .ok ()) :
    disk.compareBlocks fs 0 array.blocks =
      disk.compareBlocks fs sector (array.blocks.drop sector) := by
  induction sector with
  | zero => rfl
  | succ sector ih =>
    rw [ih (Nat.le_of_succ_le hs) fun i hi => h i (Nat.lt_succ_of_lt hi),
      SectorArray.drop_blocks hs, compareBlocks, h sector (Nat.lt_succ_self sector)]
    rfl

/-- No sector that is found equal ends the comparison. -/
theorem compareBlocks_of_ok
    (h : ∀ i < array.sectorCount, disk.compareBlock fs i (array.block i) = .ok ()) :
    disk.compareBlocks fs 0 array.blocks = .ok () := by
  have hnone : array.blocks.drop array.sectorCount = [] := List.drop_eq_nil_of_le (Nat.le_refl _)
  rw [compareBlocks_skip (Nat.le_refl _) h, hnone]
  rfl

theorem compareBlock_of_stores (h : disk.Stores array fs) {sector : Nat}
    (hs : sector < array.sectorCount) :
    disk.compareBlock fs sector (array.block sector) = .ok () := by
  simp only [compareBlock, read_block h hs, bind, Except.bind, ne_eq, not_true, if_false]
  rfl

/-- No sector of a disk differs from the bytes that the disk stores. -/
theorem compareSectors_one (h : disk.Stores array fs) {sector : Nat} (hs : sector < array.sectorCount) :
    disk.compareSectors array.bytes.toArray fs 1 sector = .ok () := by
  rw [compareSectors_one_eq h.sectorSize_eq h.fits hs, compareBlock_of_stores h hs]

theorem checkGeometry_eq {image : Image} {count : Nat} (hcount : image.layout.sectorCount = .ok count)
    (hdisk : disk.sectorCount = count) (hsize : disk.sectorSize = image.layout.sectorSize) :
    disk.checkGeometry image = .ok count := by
  unfold checkGeometry
  simp [hcount, hdisk, hsize, bind, Except.bind, pure, Except.pure, liftM, monadLift,
    MonadLift.monadLift, Except.mapError]

variable {boot : List UInt8} {kernel : Option (List UInt8)} {config : Config} {image : Image}

/-- A disk with the geometry of an image is compared with the image's sectors, in their order. -/
theorem verify_eq_compareBlocks (h : Image.Assembled boot kernel config image)
    (hcount : disk.sectorCount = h.array.sectorCount) (hsize : disk.sectorSize = h.array.sectorSize)
    (fs : FileSystem) : disk.verify image fs = disk.compareBlocks fs 0 h.array.blocks := by
  have hcounted : image.layout.sectorCount = .ok h.array.sectorCount := by
    rw [h.sectorCount_eq, h.sectorCount_array]
  have hcompared := @compareSectors_eq disk h.array fs hsize h.fits_array h.array.sectorCount 0
    (Nat.zero_add _)
  rw [h.bytes_array, List.drop_zero] at hcompared
  rw [verify_eq, checkGeometry_eq hcounted hcount hsize, ← hcompared]
  rfl

/-- A disk that stores the sectors of an image passes the comparison. -/
theorem verify_of_stores (h : Image.Assembled boot kernel config image)
    (hs : disk.Stores h.array fs) : disk.verify image fs = .ok () := by
  rw [verify_eq_compareBlocks h hs.sectorCount_eq hs.sectorSize_eq]
  exact compareBlocks_of_ok fun i hi => compareBlock_of_stores hs hi

end Disk

end BootImage
