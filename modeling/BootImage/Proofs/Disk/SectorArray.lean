import BootImage.Proofs.Disk.Lifecycle
/-!
# A disk is an array of sectors

A `SectorArray` is what a disk should be: so many blocks of one size, each replaced as a whole.
`Disk.Stores` says that the staging file of a disk holds the blocks of an array, one after the
other. `Disk.read_eq` and `Disk.write_eq` then say that the disk answers as the array does, refuses
what the array refuses, and goes on storing it.
-/

namespace BootImage

open FileSystem

/-- Blocks of equal size. -/
structure SectorArray where
  sectorSize : Nat
  blocks : List (List UInt8)
  length_eq : ∀ block ∈ blocks, block.length = sectorSize

namespace SectorArray

/-- How many blocks there are. -/
def sectorCount (array : SectorArray) : Nat :=
  array.blocks.length

/-- The blocks one after the other. -/
def bytes (array : SectorArray) : List UInt8 :=
  array.blocks.flatten

/-- The block of a sector. -/
def block (array : SectorArray) (sector : Nat) : List UInt8 :=
  array.blocks.getD sector []

/-- An array of zeros. -/
def blank (sectorSize sectorCount : Nat) : SectorArray where
  sectorSize := sectorSize
  blocks := List.replicate sectorCount (List.replicate sectorSize 0)
  length_eq block h := by rw [(List.mem_replicate.1 h).2, List.length_replicate]

/-- The array with another block in place of one. -/
def put (array : SectorArray) (sector : Nat) (data : List UInt8)
    (h : data.length = array.sectorSize) : SectorArray where
  sectorSize := array.sectorSize
  blocks := array.blocks.set sector data
  length_eq block hm := by
    rcases List.mem_or_eq_of_mem_set hm with hm | rfl
    · exact array.length_eq block hm
    · exact h

@[simp] theorem blocks_put (array : SectorArray) (sector : Nat) {data : List UInt8}
    (h : data.length = array.sectorSize) :
    (array.put sector data h).blocks = array.blocks.set sector data :=
  rfl

@[simp] theorem sectorCount_put (array : SectorArray) (sector : Nat) {data : List UInt8}
    (h : data.length = array.sectorSize) :
    (array.put sector data h).sectorCount = array.sectorCount :=
  List.length_set

@[simp] theorem sectorCount_blank (sectorSize sectorCount : Nat) :
    (blank sectorSize sectorCount).sectorCount = sectorCount :=
  List.length_replicate

/-- Why a block of `len` bytes cannot be read or written: there is no such sector, or, if there is,
its size is another. -/
def refusal? (array : SectorArray) (sector len : Nat) : Option IoError :=
  if array.sectorCount ≤ sector then
    some (.sectorOutOfRange sector array.sectorCount)
  else if len ≠ array.sectorSize then
    some (.wrongLength len array.sectorSize)
  else
    none

theorem refusal?_eq_none_iff {array : SectorArray} {sector len : Nat} :
    array.refusal? sector len = none ↔ sector < array.sectorCount ∧ len = array.sectorSize := by
  unfold refusal?
  by_cases hs : array.sectorCount ≤ sector
  · simp [hs, Nat.not_lt.2 hs]
  · by_cases hlen : len = array.sectorSize
    · simp [hs, hlen, Nat.lt_of_not_le hs]
    · simp [hs, hlen]

theorem kind_of_refusal? {array : SectorArray} {sector len : Nat} {cause : IoError}
    (h : array.refusal? sector len = some cause) : cause.kind = .invalidInput := by
  unfold refusal? at h
  split at h
  · cases h
    rfl
  · split at h
    · cases h
      rfl
    · cases h

theorem block_eq {array : SectorArray} {sector : Nat} (h : sector < array.blocks.length) :
    array.block sector = array.blocks[sector] := by
  rw [block, List.getD_eq_getElem?_getD, List.getElem?_eq_getElem h, Option.getD_some]

theorem length_block {array : SectorArray} {sector : Nat} (h : sector < array.sectorCount) :
    (array.block sector).length = array.sectorSize := by
  rw [block_eq h]
  exact array.length_eq _ (List.getElem_mem h)

/-! ## Blocks and bytes -/

theorem flatten_take {size : Nat} {blocks : List (List UInt8)}
    (h : ∀ block ∈ blocks, block.length = size) (n : Nat) :
    (blocks.take n).flatten = blocks.flatten.take (n * size) := by
  induction blocks generalizing n with
  | nil => simp
  | cons block blocks ih =>
    have hb : block.length = size := h block List.mem_cons_self
    cases n with
    | zero => simp
    | succ n =>
      -- The first block is taken whole, and the rest from the blocks behind it.
      have hle : block.length ≤ (n + 1) * size := by
        rw [hb, Nat.add_mul]
        omega
      have hsub : (n + 1) * size - block.length = n * size := by
        rw [hb, Nat.add_mul]
        omega
      rw [List.take_succ_cons, List.flatten_cons, ih (fun b hm => h b (List.mem_cons_of_mem _ hm)),
        List.flatten_cons, List.take_append, List.take_of_length_le hle, hsub]

theorem flatten_drop {size : Nat} {blocks : List (List UInt8)}
    (h : ∀ block ∈ blocks, block.length = size) (n : Nat) :
    (blocks.drop n).flatten = blocks.flatten.drop (n * size) := by
  induction blocks generalizing n with
  | nil => simp
  | cons block blocks ih =>
    have hb : block.length = size := h block List.mem_cons_self
    cases n with
    | zero => simp
    | succ n =>
      have hle : block.length ≤ (n + 1) * size := by
        rw [hb, Nat.add_mul]
        omega
      have hsub : (n + 1) * size - block.length = n * size := by
        rw [hb, Nat.add_mul]
        omega
      rw [List.drop_succ_cons, ih (fun b hm => h b (List.mem_cons_of_mem _ hm)),
        List.flatten_cons, List.drop_append, List.drop_eq_nil_of_le hle, hsub, List.nil_append]

theorem length_bytes (array : SectorArray) :
    array.bytes.length = array.sectorSize * array.sectorCount := by
  have hmap : array.blocks.map List.length =
      List.replicate array.sectorCount array.sectorSize := by
    rw [List.eq_replicate_iff]
    refine ⟨by simp [sectorCount], fun n hn => ?_⟩
    obtain ⟨block, hm, rfl⟩ := List.mem_map.1 hn
    exact array.length_eq block hm
  rw [bytes, List.length_flatten, hmap, List.sum_replicate_nat, Nat.mul_comm]

/-- A block is followed by those behind it. -/
theorem drop_blocks {array : SectorArray} {sector : Nat} (h : sector < array.sectorCount) :
    array.blocks.drop sector = array.block sector :: array.blocks.drop (sector + 1) := by
  rw [block_eq h]
  exact List.drop_eq_getElem_cons h

/-- A block lies in the bytes at its number times the sector size. -/
theorem slice_bytes {array : SectorArray} {sector : Nat} (h : sector < array.sectorCount) :
    (array.bytes.drop (sector * array.sectorSize)).take array.sectorSize =
      array.block sector := by
  rw [bytes, ← flatten_drop array.length_eq, drop_blocks h, List.flatten_cons,
    List.take_left' (length_block h)]

theorem bytes_put {array : SectorArray} {sector : Nat} {data : List UInt8}
    (h : sector < array.sectorCount) (hd : data.length = array.sectorSize) :
    (array.put sector data hd).bytes =
      array.bytes.take (sector * array.sectorSize) ++ data ++
        array.bytes.drop (sector * array.sectorSize + data.length) := by
  have hend : sector * array.sectorSize + data.length = (sector + 1) * array.sectorSize := by
    rw [hd, Nat.add_mul, Nat.one_mul]
  have hblocks : (array.put sector data hd).blocks =
      array.blocks.take sector ++ data :: array.blocks.drop (sector + 1) := by
    rw [blocks_put, List.set_eq_take_append_cons_drop]
    exact if_pos h
  rw [hend, bytes, bytes, ← flatten_take array.length_eq, ← flatten_drop array.length_eq, hblocks,
    List.flatten_append, List.flatten_cons, List.append_assoc]

theorem bytes_blank (sectorSize sectorCount : Nat) :
    (blank sectorSize sectorCount).bytes = List.replicate (sectorSize * sectorCount) 0 := by
  rw [bytes, blank, List.flatten_replicate_replicate, Nat.mul_comm]

end SectorArray

namespace Disk

/-- The staging file of the disk holds the blocks of the array. -/
structure Stores (disk : Disk) (array : SectorArray) (fs : FileSystem) : Prop where
  sectorSize_eq : disk.sectorSize = array.sectorSize
  sectorCount_eq : disk.sectorCount = array.sectorCount
  bytes_eq : (fs.content disk.file).toList = array.bytes
  live : disk.file < fs.contents.length
  /-- So no offset in the file overflows. -/
  fits : array.sectorSize * array.sectorCount < lengthLimit

variable {disk : Disk} {array : SectorArray} {fs : FileSystem}

/-- A disk does not notice changes of other files. -/
theorem Stores.frame {places : Set Location} {ids : Set FileId} {after : FileSystem}
    (h : disk.Stores array fs) (hf : Frame places ids fs after) (hi : disk.file ∉ ids) :
    disk.Stores array after where
  sectorSize_eq := h.sectorSize_eq
  sectorCount_eq := h.sectorCount_eq
  bytes_eq := (congrArg FileContent.toList (hf.content_eq h.live hi)).trans h.bytes_eq
  live := Nat.lt_of_lt_of_le h.live hf.length_le
  fits := h.fits

/-- A disk is opened with zeros. -/
theorem stores_blank_of_create {target : Path} {sectorSize sectorCount : Nat} {tag : Uuid}
    {after : FileSystem} (h : create target sectorSize sectorCount tag fs = (.ok disk, after)) :
    disk.Stores (.blank sectorSize sectorCount) after := by
  obtain ⟨rfl, hfits, hbytes, place, hpending⟩ := create_ok h
  exact {
    sectorSize_eq := rfl
    sectorCount_eq := (SectorArray.sectorCount_blank sectorSize sectorCount).symm
    bytes_eq := by rw [hbytes, SectorArray.bytes_blank]
    live := hpending.staged.live
    fits := by
      rw [SectorArray.sectorCount_blank]
      exact hfits
  }

theorem check_eq (h : disk.Stores array fs) (sector len : Nat) :
    disk.check sector len =
      match array.refusal? sector len with
      | some cause => .error cause
      | none => .ok () := by
  unfold check SectorArray.refusal?
  rw [h.sectorSize_eq, h.sectorCount_eq]
  split
  · rfl
  · split <;> rfl

/-- Where a sector lies in the file, and where the last one ends: no word is too small for it. -/
theorem offset_eq (h : disk.Stores array fs) {sector : Nat} (hs : sector ≤ array.sectorCount) :
    Word.mul sector disk.sectorSize = .ok (sector * array.sectorSize) := by
  have hle : sector * array.sectorSize ≤ array.sectorCount * array.sectorSize :=
    Nat.mul_le_mul_right _ hs
  have hlt : sector * array.sectorSize < wordLimit := by
    have := h.fits
    rw [Nat.mul_comm] at this
    exact Nat.lt_trans (Nat.lt_of_le_of_lt hle this) (by decide)
  rw [Word.mul, h.sectorSize_eq, if_pos hlt]

/-- Reading a disk is reading its array. -/
theorem read_eq (h : disk.Stores array fs) (sector len : Nat) :
    disk.read sector len fs =
      match array.refusal? sector len with
      | some cause => .error (.error cause)
      | none => .ok (array.block sector) := by
  unfold read
  rw [check_eq h]
  cases hr : array.refusal? sector len with
  | some cause => rfl
  | none =>
    obtain ⟨hs, rfl⟩ := SectorArray.refusal?_eq_none_iff.1 hr
    have hbytes : (fs.content disk.file).read (sector * array.sectorSize) array.sectorSize =
        array.block sector := by
      rw [FileContent.read_eq, h.bytes_eq, SectorArray.slice_bytes hs]
    have hread : fs.readExactly disk.file (sector * array.sectorSize) array.sectorSize =
        .ok (array.block sector) := by
      simp [readExactly, hbytes, SectorArray.length_block hs]
    rw [offset_eq h (Nat.le_of_lt hs)]
    simp only [bind, Except.bind, liftM, monadLift, MonadLift.monadLift, Except.mapError, hread]

/-- A write that starts inside a file leaves no gap. -/
theorem toList_write_inside {content : FileContent} {offset : Nat} (h : offset ≤ content.length)
    (bytes : List UInt8) :
    (content.write offset bytes).toList =
      content.toList.take offset ++ bytes ++ content.toList.drop (offset + bytes.length) := by
  by_cases hb : bytes = []
  · simp [hb]
  · rw [FileContent.toList_write hb, Nat.sub_eq_zero_of_le h, List.replicate_zero, List.append_nil]

/-- Writing a disk is writing its array. Only the disk's own file changes. -/
theorem write_eq (h : disk.Stores array fs) (sector : Nat) (data : List UInt8) :
    (∃ cause, array.refusal? sector data.length = some cause ∧
      disk.write sector data fs = .error (.error cause)) ∨
    ∃ (hd : data.length = array.sectorSize) (after : FileSystem), sector < array.sectorCount ∧
      disk.write sector data fs = .ok after ∧ disk.Stores (array.put sector data hd) after ∧
      Frame ∅ {disk.file} fs after := by
  unfold write
  rw [check_eq h]
  cases hr : array.refusal? sector data.length with
  | some cause => exact .inl ⟨cause, rfl, rfl⟩
  | none =>
    obtain ⟨hs, hd⟩ := SectorArray.refusal?_eq_none_iff.1 hr
    have hframe : Frame ∅ {disk.file} fs (fs.writeAt disk.file (sector * array.sectorSize) data) :=
      frame_setContent h.live _
    have hle : sector * array.sectorSize ≤ (fs.content disk.file).length := by
      rw [← FileContent.length_toList, h.bytes_eq, SectorArray.length_bytes, Nat.mul_comm]
      exact Nat.mul_le_mul_left _ (Nat.le_of_lt hs)
    refine .inr ⟨hd, fs.writeAt disk.file (sector * array.sectorSize) data, hs, ?_, ?_, hframe⟩
    · rw [offset_eq h (Nat.le_of_lt hs)]
      rfl
    · exact {
        sectorSize_eq := h.sectorSize_eq
        sectorCount_eq := by rw [SectorArray.sectorCount_put, h.sectorCount_eq]
        bytes_eq := by
          rw [writeAt, content_setContent h.live, if_pos rfl, toList_write_inside hle, h.bytes_eq,
            SectorArray.bytes_put hs hd]
        live := Nat.lt_of_lt_of_le h.live hframe.length_le
        fits := by
          rw [SectorArray.sectorCount_put]
          exact h.fits
      }

end Disk

end BootImage
