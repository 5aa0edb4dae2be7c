import Mathlib.Data.Nat.Find
import BootImage.Proofs.Disk.ReadBack
import BootImage.Workbench
/-!
# What a comparison finds

A disk is compared with an image by reading it back, and its file may have become anything by then: it may
have been written by others, cut off or lengthened. `Disk.Finding` says what is due in every case, from
the bytes of the file alone: whether they begin with those of the image, and if not, which is the first
sector in which they do not agree. `Disk.verify_iff_finding` says that the comparison answers just this.
-/

namespace BootImage

open FileSystem

namespace Bytes

/-! ## Sectors of bytes -/

/-- The bytes of a sector, as far as there are any. -/
def sector (size : Nat) (bytes : List UInt8) (i : Nat) : List UInt8 :=
  (bytes.drop (i * size)).take size

theorem length_sector (size : Nat) (bytes : List UInt8) (i : Nat) :
    (sector size bytes i).length = min size (bytes.length - i * size) := by
  rw [sector, List.length_take, List.length_drop]

/-- A sector is not wholly there if the bytes end before it does. -/
theorem length_sector_lt_iff {size : Nat} {bytes : List UInt8} {i : Nat} :
    (sector size bytes i).length < size ↔ bytes.length < (i + 1) * size := by
  rw [length_sector, Nat.add_mul, Nat.one_mul]
  rcases Nat.eq_zero_or_pos size with rfl | hpos
  · simp
  · omega

/-- Only the bytes in front decide about the sectors in front. -/
theorem sector_take {size n i : Nat} (h : i < n) (bytes : List UInt8) :
    sector size (bytes.take (n * size)) i = sector size bytes i := by
  have hroom : size ≤ n * size - i * size := by
    rw [← Nat.sub_mul]
    exact Nat.le_mul_of_pos_left size (by omega)
  rw [sector, List.drop_take, List.take_take, Nat.min_eq_left hroom, sector]

/-- Bytes are the same up to the end of a sector if all sectors up to there are the same. -/
theorem take_eq_iff_sector_eq {size n : Nat} {bytes other : List UInt8} :
    bytes.take (n * size) = other.take (n * size) ↔
      ∀ i < n, sector size bytes i = sector size other i := by
  constructor
  · intro h i hi
    rw [← sector_take hi bytes, h, sector_take hi]
  · intro h
    induction n with
    | zero => simp
    | succ n ih =>
      have hbefore := ih fun i hi => h i (Nat.lt_succ_of_lt hi)
      have hlast := h n (Nat.lt_succ_self n)
      rw [Nat.add_mul, Nat.one_mul, List.take_add, List.take_add, hbefore]
      exact congrArg _ hlast

end Bytes

/-- Some bytes have a sector of an image where the image has it. -/
def Image.Agrees (image : Image) (stored : List UInt8) (i : Nat) : Prop :=
  Bytes.sector image.layout.sectorSize stored i =
    Bytes.sector image.layout.sectorSize image.bytes i

instance (image : Image) (stored : List UInt8) (i : Nat) : Decidable (image.Agrees stored i) :=
  inferInstanceAs (Decidable (_ = _))

namespace Disk

/-- The answer that is due when a disk whose file holds the bytes `stored` is compared with an image of
`count` sectors. -/
inductive Finding (disk : Disk) (image : Image) (count : Nat) (stored : List UInt8) :
    Except (Failure IoError) Unit → Prop
  /-- Nothing is read, so it does not matter what is stored. -/
  | otherGeometry (h : ¬ (disk.sectorCount = count ∧ disk.sectorSize = image.layout.sectorSize)) :
    Finding disk image count stored (.error (.error
      (.geometryMismatch disk.sectorCount disk.sectorSize count image.layout.sectorSize)))
  /-- The whole image is there. What is behind it does not matter. -/
  | same (hcount : disk.sectorCount = count) (hsize : disk.sectorSize = image.layout.sectorSize)
    (hlength : image.layout.imageLen ≤ stored.length)
    (h : stored.take image.layout.imageLen = image.bytes) :
    Finding disk image count stored (.ok ())
  /-- The bytes end before a sector does, and agree with the image before it. -/
  | cutOff {i : Nat} (hcount : disk.sectorCount = count)
    (hsize : disk.sectorSize = image.layout.sectorSize) (hi : i < count)
    (hbefore : ∀ j < i, image.Agrees stored j)
    (h : stored.length < (i + 1) * image.layout.sectorSize) :
    Finding disk image count stored (.error (.error (.system .unexpectedEnd)))
  /-- A sector is there and is another, and the bytes agree with the image before it. -/
  | differs {i : Nat} (hcount : disk.sectorCount = count)
    (hsize : disk.sectorSize = image.layout.sectorSize) (hi : i < count)
    (hbefore : ∀ j < i, image.Agrees stored j)
    (hlength : (i + 1) * image.layout.sectorSize ≤ stored.length) (h : ¬ image.Agrees stored i) :
    Finding disk image count stored (.error (.error (.sectorDiffers i)))

/-! ## One sector -/

variable {disk : Disk} {fs : FileSystem} {array : SectorArray}

/-- A sector is read from the file as it is now. -/
theorem readExactly_eq_sector (fs : FileSystem) (id : FileId) (size i : Nat) :
    fs.readExactly id (i * size) size =
      if (fs.content id).toList.length < (i + 1) * size then .error .unexpectedEnd
      else .ok (Bytes.sector size (fs.content id).toList i) := by
  have hend := @Bytes.length_sector_lt_iff size (fs.content id).toList i
  rw [Bytes.sector] at hend
  simp only [readExactly, FileContent.read_eq, hend, Bytes.sector]

/-- A sector is read at its offset, if that is a word. -/
theorem read_eq_readExactly {i : Nat} (hi : i < disk.sectorCount)
    (hword : i * disk.sectorSize < wordLimit) (fs : FileSystem) :
    disk.read i disk.sectorSize fs =
      liftM (fs.readExactly disk.file (i * disk.sectorSize) disk.sectorSize) := by
  have hcheck : disk.check i disk.sectorSize = .ok () := by
    rw [check, if_neg (Nat.not_le.2 hi), if_neg (not_not.2 rfl)]
  have hoffset : Word.mul i disk.sectorSize = .ok (i * disk.sectorSize) := if_pos hword
  rw [read, hcheck, hoffset]
  rfl

/-- It is compared with what the file has of it. -/
theorem compareBlock_eq {i : Nat} (hi : i < disk.sectorCount) (hword : i * disk.sectorSize < wordLimit)
    (fs : FileSystem) (block : List UInt8) :
    disk.compareBlock fs i block =
      if (fs.content disk.file).toList.length < (i + 1) * disk.sectorSize then
        .error (.error (.system .unexpectedEnd))
      else if Bytes.sector disk.sectorSize (fs.content disk.file).toList i = block then .ok ()
      else .error (.error (.sectorDiffers i)) := by
  rw [compareBlock, read_eq_readExactly hi hword, readExactly_eq_sector]
  split
  · rfl
  · change (if Bytes.sector disk.sectorSize (fs.content disk.file).toList i ≠ block then _ else _) = _
    by_cases hsame : Bytes.sector disk.sectorSize (fs.content disk.file).toList i = block
    · rw [if_neg (not_not.2 hsame), if_pos hsame]
      rfl
    · rw [if_pos hsame, if_neg hsame]
      rfl

/-! ## From one sector to the next -/

/-- The first sector that is not found equal is the one that is told of. -/
theorem compareBlocks_of_error {i : Nat} (hi : i < array.sectorCount) {failure : Failure IoError}
    (hbefore : ∀ j < i, disk.compareBlock fs j (array.block j) = .ok ())
    (h : disk.compareBlock fs i (array.block i) = .error failure) :
    disk.compareBlocks fs 0 array.blocks = .error failure := by
  rw [compareBlocks_skip (Nat.le_of_lt hi) hbefore, SectorArray.drop_blocks hi, compareBlocks, h]
  rfl

/-! ## The whole disk -/

/-- No sector is looked at if the geometry is another. -/
theorem verify_of_otherGeometry {image : Image} {count : Nat}
    (hcount : image.layout.sectorCount = .ok count)
    (h : ¬ (disk.sectorCount = count ∧ disk.sectorSize = image.layout.sectorSize))
    (fs : FileSystem) :
    disk.verify image fs = .error (.error
      (.geometryMismatch disk.sectorCount disk.sectorSize count image.layout.sectorSize)) := by
  have hdiffer : disk.sectorCount ≠ count ∨ disk.sectorSize ≠ image.layout.sectorSize :=
    not_and_or.1 h
  have hrefused : disk.checkGeometry image = .error (.error
      (.geometryMismatch disk.sectorCount disk.sectorSize count image.layout.sectorSize)) := by
    unfold checkGeometry
    rw [hcount]
    exact if_pos hdiffer
  rw [verify_eq, hrefused]
  rfl

section

variable {boot : List UInt8} {kernel : Option (List UInt8)} {config : Config} {image : Image}

/-- A block of the image is its sector. -/
theorem block_array (h : Image.Assembled boot kernel config image) {i : Nat}
    (hi : i < h.array.sectorCount) :
    h.array.block i = Bytes.sector image.layout.sectorSize image.bytes i := by
  rw [← SectorArray.slice_bytes hi, h.bytes_array]
  rfl

/-- Where the geometry is the same, a sector is found equal if it is there and is the image's. -/
theorem compareBlock_array (h : Image.Assembled boot kernel config image)
    (hcount : disk.sectorCount = h.array.sectorCount)
    (hsize : disk.sectorSize = image.layout.sectorSize) {i : Nat} (hi : i < h.array.sectorCount)
    (fs : FileSystem) :
    disk.compareBlock fs i (h.array.block i) =
      if (fs.content disk.file).toList.length < (i + 1) * image.layout.sectorSize then
        .error (.error (.system .unexpectedEnd))
      else if image.Agrees (fs.content disk.file).toList i then .ok ()
      else .error (.error (.sectorDiffers i)) := by
  have hword : i * disk.sectorSize < wordLimit := by
    have hle : i * disk.sectorSize ≤ h.array.sectorSize * h.array.sectorCount := by
      rw [hsize, Nat.mul_comm h.array.sectorSize]
      exact Nat.mul_le_mul_right _ (Nat.le_of_lt hi)
    exact Nat.lt_trans (Nat.lt_of_le_of_lt hle h.fits_array) (by decide)
  rw [compareBlock_eq (hcount ▸ hi) hword, block_array h hi, hsize]
  rfl

/-- Sectors that agree are there: the sectors of the image are not cut off. -/
theorem le_length_of_agrees (h : Image.Assembled boot kernel config image) {stored : List UInt8}
    {i : Nat} (hi : i < h.array.sectorCount) (hagrees : image.Agrees stored i) :
    (i + 1) * image.layout.sectorSize ≤ stored.length := by
  have hwhole : (Bytes.sector image.layout.sectorSize stored i).length = image.layout.sectorSize := by
    rw [hagrees, ← block_array h hi]
    exact SectorArray.length_block hi
  exact Nat.not_lt.1 fun hcut => Nat.ne_of_lt (Bytes.length_sector_lt_iff.2 hcut) hwhole

theorem compareBlock_of_agrees (h : Image.Assembled boot kernel config image)
    (hcount : disk.sectorCount = h.array.sectorCount)
    (hsize : disk.sectorSize = image.layout.sectorSize) {i : Nat} (hi : i < h.array.sectorCount)
    (hagrees : image.Agrees (fs.content disk.file).toList i) :
    disk.compareBlock fs i (h.array.block i) = .ok () := by
  rw [compareBlock_array h hcount hsize hi,
    if_neg (Nat.not_lt.2 (le_length_of_agrees h hi hagrees)), if_pos hagrees]

/-- All sectors agree if, and only if, the bytes begin with the image's. -/
theorem agrees_iff_take_eq (h : Image.Assembled boot kernel config image) {stored : List UInt8} :
    (∀ i < h.array.sectorCount, image.Agrees stored i) ↔
      stored.take image.layout.imageLen = image.bytes := by
  have hlen : h.array.sectorCount * image.layout.sectorSize = image.bytes.length := by
    rw [h.sectorCount_array, h.sectorCount_mul]
  have hiff := @Bytes.take_eq_iff_sector_eq image.layout.sectorSize h.array.sectorCount stored
    image.bytes
  rw [hlen, List.take_length, h.length_bytes] at hiff
  exact hiff.symm

/-- What is due is what the comparison answers. -/
theorem Finding.verify_eq (h : Image.Assembled boot kernel config image)
    {answer : Except (Failure IoError) Unit}
    (hf : disk.Finding image h.array.sectorCount (fs.content disk.file).toList answer) :
    disk.verify image fs = answer := by
  cases hf with
  | otherGeometry hother =>
    refine verify_of_otherGeometry ?_ hother fs
    rw [h.sectorCount_eq, h.sectorCount_array]
  | same hcount hsize hlength hsame =>
    rw [verify_eq_compareBlocks h hcount hsize]
    exact compareBlocks_of_ok fun i hi =>
      compareBlock_of_agrees h hcount hsize hi ((agrees_iff_take_eq h).2 hsame i hi)
  | cutOff hcount hsize hi hbefore hcut =>
    rw [verify_eq_compareBlocks h hcount hsize]
    refine compareBlocks_of_error hi (fun j hj =>
      compareBlock_of_agrees h hcount hsize (Nat.lt_trans hj hi) (hbefore j hj)) ?_
    rw [compareBlock_array h hcount hsize hi, if_pos hcut]
  | differs hcount hsize hi hbefore hlength hdiffers =>
    rw [verify_eq_compareBlocks h hcount hsize]
    refine compareBlocks_of_error hi (fun j hj =>
      compareBlock_of_agrees h hcount hsize (Nat.lt_trans hj hi) (hbefore j hj)) ?_
    rw [compareBlock_array h hcount hsize hi, if_neg (Nat.not_lt.2 hlength), if_neg hdiffers]

/-- Something is due, whatever the file has become. -/
theorem exists_finding (h : Image.Assembled boot kernel config image) (disk : Disk)
    (stored : List UInt8) : ∃ answer, disk.Finding image h.array.sectorCount stored answer := by
  by_cases hgeometry : disk.sectorCount = h.array.sectorCount ∧
      disk.sectorSize = image.layout.sectorSize
  case neg => exact ⟨_, .otherGeometry hgeometry⟩
  obtain ⟨hcount, hsize⟩ := hgeometry
  by_cases hall : ∀ i < h.array.sectorCount, image.Agrees stored i
  · have hsame := (agrees_iff_take_eq h).1 hall
    have hlength : image.layout.imageLen ≤ stored.length := by
      rw [← h.length_bytes, ← hsame, List.length_take]
      exact Nat.min_le_right _ _
    exact ⟨_, .same hcount hsize hlength hsame⟩
  · -- The first sector that does not agree decides.
    have hsome : ∃ i, i < h.array.sectorCount ∧ ¬ image.Agrees stored i := by
      simpa using hall
    obtain ⟨hi, hdiffers⟩ := Nat.find_spec hsome
    have hbefore : ∀ j < Nat.find hsome, image.Agrees stored j := fun j hj =>
      of_not_not fun hnot => Nat.find_min hsome hj ⟨Nat.lt_trans hj hi, hnot⟩
    rcases Nat.lt_or_ge stored.length ((Nat.find hsome + 1) * image.layout.sectorSize) with
      hcut | hlength
    · exact ⟨_, .cutOff hcount hsize hi hbefore hcut⟩
    · exact ⟨_, .differs hcount hsize hi hbefore hlength hdiffers⟩

end

/-- The kinds of the errors of a comparison tell sectors that are cut off from the rest. -/
theorem Finding.kind {image : Image} {count : Nat} {stored : List UInt8}
    {answer : Except (Failure IoError) Unit} (hf : disk.Finding image count stored answer) :
    answer = .ok () ∨ ∃ cause, answer = .error (.error cause) ∧
      cause.kind = if cause = .system .unexpectedEnd then .unexpectedEof else .invalidData := by
  cases hf with
  | same => exact .inl rfl
  | otherGeometry => exact .inr ⟨_, rfl, rfl⟩
  | cutOff => exact .inr ⟨_, rfl, rfl⟩
  | differs => exact .inr ⟨_, rfl, rfl⟩

/-- A disk is compared with an image by what its file holds, whatever was done to the disk or to the file
before, and also if the file has lost its name. The comparison changes neither the disk nor any file. -/
theorem verify_iff_finding {recipe : Recipe} {image : Image} (h : recipe.assemble = .ok image)
    (disk : Disk) :
    ∃ count, image.layout.sectorCount = .ok count ∧
      (∀ fs answer, disk.verify image fs = answer ↔
        disk.Finding image count (fs.content disk.file).toList answer) ∧
      (∀ fs failure, disk.verify image fs = .error failure → ∃ cause, failure = .error cause ∧
        cause.kind = if cause = .system .unexpectedEnd then .unexpectedEof else .invalidData) ∧
      ∀ (bench : Workbench) tag slot, bench.disk? slot = some disk →
        bench.step tag (.verify slot recipe) =
          (Workbench.answer (disk.verify image bench.fs) fun _ => .done, bench) := by
  have ha := Image.assembled_of_assemble h
  have hiff : ∀ fs answer, disk.verify image fs = answer ↔
      disk.Finding image ha.array.sectorCount (fs.content disk.file).toList answer := by
    intro fs answer
    obtain ⟨due, hdue⟩ := exists_finding ha disk (fs.content disk.file).toList
    refine ⟨fun hanswer => ?_, Finding.verify_eq ha⟩
    rw [← hanswer, hdue.verify_eq ha]
    exact hdue
  refine ⟨ha.array.sectorCount, ?_, hiff, ?_, ?_⟩
  · rw [ha.sectorCount_eq, ha.sectorCount_array]
  · intro fs failure hfailed
    rcases ((hiff fs _).1 hfailed).kind with hok | ⟨cause, hcause, hkind⟩
    · cases hok
    · cases hcause
      exact ⟨cause, rfl, hkind⟩
  · intro bench tag slot hslot
    simp only [Workbench.step, hslot, h]

/-- A disk is compared after its sectors have been written, after its staging file has been removed, after
the file has been lengthened, and after it has been cut off inside the second sector. -/
theorem verify_iff_finding_tampered :
    ∃ (image : Image) (disk : Disk) (opened written unlinked longer shorter : FileSystem),
      Recipe.assemble ⟨[1, 2, 3, 4, 5], none, ⟨4, 4, 16, 64⟩⟩ = .ok image ∧
        create ⟨['t']⟩ 4 2 (.ofRandom 0) (.empty []) = (.ok disk, opened) ∧
        (disk.write 0 [1, 2, 3, 4] opened >>= disk.write 1 [5, 0, 0, 0]) = .ok written ∧
        written.removeFile disk.staging = .ok unlinked ∧
        unlinked.setLength disk.file 99 = .ok longer ∧ unlinked.setLength disk.file 6 = .ok shorter ∧
        disk.verify image longer = .ok () ∧
        disk.verify image shorter = .error (.error (.system .unexpectedEnd)) := by
  have hverify := @verify_iff_finding ⟨[1, 2, 3, 4, 5], none, ⟨4, 4, 16, 64⟩⟩ _ rfl
  refine ⟨_, _, _, _, _, _, _, rfl, rfl, rfl, rfl, rfl, rfl, ?_, ?_⟩
  · obtain ⟨count, hcount, hiff, -⟩ := hverify _
    cases hcount
    exact (hiff _ _).2 (.same rfl rfl (by decide) (by decide))
  · obtain ⟨count, hcount, hiff, -⟩ := hverify _
    cases hcount
    -- The file ends inside the second sector, and the first is as it should be.
    exact (hiff _ _).2 (.cutOff (i := 1) rfl rfl (by decide) (by decide) (by decide))

end Disk

end BootImage
