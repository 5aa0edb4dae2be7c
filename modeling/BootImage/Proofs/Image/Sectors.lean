import BootImage.Proofs.Disk.SectorArray
import BootImage.Proofs.Image.Contents
/-!
# An image in sectors

The sectors of an assembled image are as many as its layout counts, all of one size, and together
they are its bytes. So they are the blocks of a sector array (`Image.Assembled.array`).
-/

namespace BootImage

namespace Bytes

theorem length_pieces (size count : Nat) (bytes : List UInt8) :
    (pieces size count bytes).length = count := by
  induction count generalizing bytes with
  | zero => rfl
  | succ count ih => rw [pieces, List.length_cons, ih]

theorem length_of_mem_pieces {size count : Nat} {bytes piece : List UInt8}
    (h : count * size ≤ bytes.length) (hm : piece ∈ pieces size count bytes) :
    piece.length = size := by
  induction count generalizing bytes with
  | zero => cases hm
  | succ count ih =>
    rw [Nat.add_mul, Nat.one_mul] at h
    rcases List.mem_cons.1 hm with rfl | hm
    · rw [List.length_take]
      omega
    · apply ih _ hm
      rw [List.length_drop]
      omega

theorem flatten_pieces (size count : Nat) (bytes : List UInt8) :
    (pieces size count bytes).flatten = bytes.take (count * size) := by
  induction count generalizing bytes with
  | zero => simp [pieces]
  | succ count ih =>
    rw [pieces, List.flatten_cons, ih, Nat.add_mul, Nat.one_mul, Nat.add_comm, List.take_add]

end Bytes

namespace Image.Assembled

variable {boot : List UInt8} {kernel : Option (List UInt8)} {config : Config} {image : Image}

theorem sectorSize_pos (h : Assembled boot kernel config image) : 0 < image.layout.sectorSize := by
  rw [h.placed.sectorSize_eq]
  exact Word.pos_of_isPowerOfTwo h.placed.isPowerOfTwo

theorem sectorSize_dvd (h : Assembled boot kernel config image) :
    image.layout.sectorSize ∣ image.layout.imageLen := by
  rw [h.placed.sectorSize_eq]
  exact h.placed.imageLen_eq.dvd

/-- How many sectors the image has. -/
theorem sectorCount_eq (h : Assembled boot kernel config image) :
    image.layout.sectorCount = .ok (image.layout.imageLen / image.layout.sectorSize) := by
  rw [Layout.sectorCount, Word.div, if_neg (Nat.ne_of_gt h.sectorSize_pos)]

theorem sectorCount_mul (h : Assembled boot kernel config image) :
    image.layout.imageLen / image.layout.sectorSize * image.layout.sectorSize =
      image.bytes.length := by
  rw [Nat.div_mul_cancel h.sectorSize_dvd, h.length_bytes]

/-- The sectors of the image as an array. -/
def array (h : Assembled boot kernel config image) : SectorArray where
  sectorSize := image.layout.sectorSize
  blocks := Bytes.pieces image.layout.sectorSize
    (image.layout.imageLen / image.layout.sectorSize) image.bytes
  length_eq _ hm := Bytes.length_of_mem_pieces (Nat.le_of_eq h.sectorCount_mul) hm

theorem sectors_eq (h : Assembled boot kernel config image) :
    image.sectors = .ok h.array.blocks := by
  rw [sectors, h.length_bytes, Word.div, if_neg (Nat.ne_of_gt h.sectorSize_pos)]
  rfl

theorem sectorCount_array (h : Assembled boot kernel config image) :
    h.array.sectorCount = image.layout.imageLen / image.layout.sectorSize :=
  Bytes.length_pieces _ _ _

theorem bytes_array (h : Assembled boot kernel config image) : h.array.bytes = image.bytes := by
  rw [SectorArray.bytes, array, Bytes.flatten_pieces, h.sectorCount_mul, List.take_length]

/-- A file has room for the sectors. -/
theorem fits_array (h : Assembled boot kernel config image) :
    h.array.sectorSize * h.array.sectorCount < lengthLimit := by
  rw [← SectorArray.length_bytes, h.bytes_array, h.length_bytes]
  exact h.imageLen_lt

end Image.Assembled

end BootImage
