import BootImage.Proofs.Disk.ReadBack
import BootImage.Proofs.Report.Identity
/-!
# One geometry for all

The sectors of an image are counted by its layout, cut for writing, cut again by the comparison that
reads them back, and told by the report, each time by arithmetic of its own. `Image.Geometry` says that
all of them mean the same sectors, and `Image.exists_geometry` that every assembled image has such a
geometry. It rests on the two roundings: the payload and the end of the image lie on sector boundaries,
the first ones behind the loader and behind the payload.
-/

namespace BootImage

namespace Image

namespace Assembled

variable {boot : List UInt8} {kernel : Option (List UInt8)} {config : Config} {image : Image}

theorem payloadOffset_dvd (h : Assembled boot kernel config image) :
    image.layout.sectorSize ∣ image.layout.payloadOffset := by
  rw [h.placed.sectorSize_eq]
  exact h.placed.payloadOffset_eq.dvd

theorem payloadSector_eq (h : Assembled boot kernel config image) :
    image.layout.payloadSector = .ok (image.layout.payloadOffset / image.layout.sectorSize) := by
  rw [Layout.payloadSector, Word.div, if_neg (Nat.ne_of_gt h.sectorSize_pos)]

/-- There is a loader, so there is at least one sector. -/
theorem sectorSize_le (h : Assembled boot kernel config image) :
    image.layout.sectorSize ≤ image.layout.imageLen := by
  have hboot : 0 < boot.length := Nat.pos_of_ne_zero h.placed.bootLen_ne
  have hstart := h.boot_le_payloadOffset
  have hend := h.payload_le_imageLen
  exact Nat.le_of_dvd (by omega) h.sectorSize_dvd

theorem report_eq (h : Assembled boot kernel config image) :
    Report.ofLayout image.layout = .ok {
      imageSize := image.layout.imageLen
      sectorSize := image.layout.sectorSize
      sectorCount := image.layout.imageLen / image.layout.sectorSize
      bootSectorLen := image.layout.bootSectorLen
      extensionLen := image.layout.extensionLen
      payloadOffset := image.layout.payloadOffset
      payloadSector := image.layout.payloadOffset / image.layout.sectorSize
      payloadLen := image.layout.payloadLen
    } :=
  Report.ofLayout_of_pos h.sectorSize_pos

/-- A sector of the image is what the comparison expects of it. -/
theorem slice_sector (h : Assembled boot kernel config image) {sector : Nat}
    (hs : sector < h.array.blocks.length) :
    Bytes.slice image.bytes.toArray (sector * image.layout.sectorSize)
      ((sector + 1) * image.layout.sectorSize) = .ok h.array.blocks[sector] := by
  have hslice := @SectorArray.slice_eq h.array sector hs
  rwa [h.bytes_array, SectorArray.block_eq hs] at hslice

end Assembled

/-- The sectors of an image, `count` of them with the payload at the one numbered `start`, as everybody
sees them who has to do with them. -/
structure Geometry (boot : List UInt8) (config : Config) (image : Image) (count start : Nat)
    (sectors : List (List UInt8)) : Prop where
  sectorSize_eq : image.layout.sectorSize = config.sectorSize
  /-- There are so many sectors, and nothing is left behind the last one. -/
  sectorCount_eq : image.layout.sectorCount = .ok count
  sectorCount_mul : count * config.sectorSize = image.layout.imageLen
  payloadSector_eq : image.layout.payloadSector = .ok start
  payloadSector_mul : start * config.sectorSize = image.layout.payloadOffset
  payloadOffset_dvd : config.sectorSize ∣ image.layout.payloadOffset
  imageLen_dvd : config.sectorSize ∣ image.layout.imageLen
  start_le : start ≤ count
  sectorSize_le : config.sectorSize ≤ image.layout.imageLen
  imageLen_le : image.layout.imageLen ≤ config.maxImageSize
  /-- Less than a sector is filled up behind the loader, and less than a sector behind the payload. -/
  loader_le : max boot.length config.bootSectorLen ≤ image.layout.payloadOffset
  loaderPadding_lt :
    image.layout.payloadOffset - max boot.length config.bootSectorLen < config.sectorSize
  payload_le : image.layout.payloadOffset + image.layout.payloadLen.getD 0 ≤ image.layout.imageLen
  tailPadding_lt :
    image.layout.imageLen - (image.layout.payloadOffset + image.layout.payloadLen.getD 0) <
      config.sectorSize
  /-- The image is written in these sectors. -/
  sectors_eq : image.sectors = .ok sectors
  length_sectors : sectors.length = count
  length_sector : ∀ sector ∈ sectors, sector.length = config.sectorSize
  flatten_sectors : sectors.flatten = image.bytes
  /-- It is compared with a disk in the same sectors, each with the bytes between two products. -/
  slice_eq : ∀ i (hi : i < sectors.length),
    Bytes.slice image.bytes.toArray (i * config.sectorSize) ((i + 1) * config.sectorSize) =
      .ok sectors[i]
  verify_eq : ∀ (disk : Disk) (fs : FileSystem), disk.sectorCount = count →
    disk.sectorSize = config.sectorSize → disk.verify image fs = disk.compareBlocks fs 0 sectors
  report_eq : Report.ofLayout image.layout = .ok {
    imageSize := image.layout.imageLen
    sectorSize := config.sectorSize
    sectorCount := count
    bootSectorLen := image.layout.bootSectorLen
    extensionLen := image.layout.extensionLen
    payloadOffset := image.layout.payloadOffset
    payloadSector := start
    payloadLen := image.layout.payloadLen
  }

theorem Assembled.geometry {boot : List UInt8} {kernel : Option (List UInt8)} {config : Config}
    {image : Image} (h : Assembled boot kernel config image) :
    Geometry boot config image (image.layout.imageLen / image.layout.sectorSize)
      (image.layout.payloadOffset / image.layout.sectorSize) h.array.blocks := by
  have hsize := h.placed.sectorSize_eq
  have hloader := h.placed.payloadOffset_eq
  have htail := h.placed.imageLen_eq
  rw [← h.placed.payloadLen_eq] at htail
  have hoffset : image.layout.payloadOffset ≤ image.layout.imageLen :=
    Nat.le_trans (Nat.le_add_right _ _) htail.le
  exact {
    sectorSize_eq := hsize
    sectorCount_eq := h.sectorCount_eq
    sectorCount_mul := hsize ▸ Nat.div_mul_cancel h.sectorSize_dvd
    payloadSector_eq := h.payloadSector_eq
    payloadSector_mul := hsize ▸ Nat.div_mul_cancel h.payloadOffset_dvd
    payloadOffset_dvd := hsize ▸ h.payloadOffset_dvd
    imageLen_dvd := hsize ▸ h.sectorSize_dvd
    start_le := Nat.div_le_div_right hoffset
    sectorSize_le := hsize ▸ h.sectorSize_le
    imageLen_le := h.placed.imageLen_le
    loader_le := hloader.le
    loaderPadding_lt := by
      have hlt := hloader.lt
      have hle := hloader.le
      omega
    payload_le := htail.le
    tailPadding_lt := by
      have hlt := htail.lt
      have hle := htail.le
      omega
    sectors_eq := h.sectors_eq
    length_sectors := h.sectorCount_array
    length_sector := hsize ▸ h.array.length_eq
    flatten_sectors := h.bytes_array
    slice_eq i hi := hsize ▸ h.slice_sector hi
    verify_eq disk fs hcount hdisk :=
      Disk.verify_eq_compareBlocks h (hcount.trans h.sectorCount_array.symm) (hdisk.trans hsize.symm) fs
    report_eq := hsize ▸ h.report_eq
  }

/-- In every image that is assembled the sectors are the same to all: to the layout that counts them,
to the disk that is written in them, to the comparison that reads them back, and to the report. They are
whole sectors and make up the image, its ceiling is kept, and no more is filled up than has to be. -/
theorem exists_geometry {boot : List UInt8} {kernel : Option (List UInt8)} {config : Config}
    {image : Image} (h : assemble boot kernel config = .ok image) :
    ∃ count start sectors, Geometry boot config image count start sectors :=
  ⟨_, _, _, (assembled_of_assemble h).geometry⟩

/-- Three sectors of a boot sector that is no whole number of sectors and of a kernel that does not fill
its last one. -/
theorem exists_geometry_unaligned :
    ∃ image, assemble [1, 2, 3] (some [7, 8]) ⟨4, 6, 16, 64⟩ = .ok image ∧
      Geometry [1, 2, 3] ⟨4, 6, 16, 64⟩ image 3 2 [[1, 2, 3, 0], [0, 0, 0, 0], [7, 8, 0, 0]] := by
  have h : assemble [1, 2, 3] (some [7, 8]) ⟨4, 6, 16, 64⟩ =
      .ok ⟨[1, 2, 3, 0, 0, 0, 0, 0, 7, 8, 0, 0], ⟨4, 6, 0, 8, some 2, 12⟩⟩ := by rfl
  obtain ⟨count, start, sectors, hgeometry⟩ := exists_geometry h
  obtain rfl : 3 = count := Except.ok.inj hgeometry.sectorCount_eq
  obtain rfl : 2 = start := Except.ok.inj hgeometry.payloadSector_eq
  obtain rfl : [[1, 2, 3, 0], [0, 0, 0, 0], [7, 8, 0, 0]] = sectors :=
    Except.ok.inj hgeometry.sectors_eq
  exact ⟨_, h, hgeometry⟩

end Image

end BootImage
