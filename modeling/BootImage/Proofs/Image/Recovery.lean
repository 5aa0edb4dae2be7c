import BootImage.Proofs.Image.Sectors
import BootImage.Proofs.Record.Reading
/-!
# Finding the inputs in an image

The layout of an image says where its inputs are: the loader, filled up to the boot sector, at the
front, and the kernel at the payload's offset. All its numbers fit words, so its record can be read
back, and with it the inputs can be found by somebody who has nothing but the two files.
-/

namespace BootImage

/-- With the layout, the bytes of an image give its inputs back: in front there is the loader, filled
up with zeros if it is shorter than the boot sector, and at the payload's offset the kernel, if there
is one. -/
structure Layout.Recovers (layout : Layout) (bytes boot : List UInt8)
    (kernel : Option (List UInt8)) : Prop where
  loader : bytes.take (layout.bootSectorLen + layout.extensionLen) =
    boot ++ List.replicate (layout.bootSectorLen - boot.length) 0
  payload : layout.payloadLen.map (fun len => (bytes.drop layout.payloadOffset).take len) = kernel

namespace Image.Assembled

variable {boot : List UInt8} {kernel : Option (List UInt8)} {config : Config} {image : Image}

/-- Boot sector and extension together are the loader, or the boot sector if that is longer. -/
theorem loaderEnd_eq (h : Assembled boot kernel config image) :
    image.layout.bootSectorLen + image.layout.extensionLen = max boot.length config.bootSectorLen := by
  rw [h.placed.bootSectorLen_eq, h.placed.extensionLen_eq]
  omega

theorem loaderEnd_le (h : Assembled boot kernel config image) :
    image.layout.bootSectorLen + image.layout.extensionLen ≤ image.layout.payloadOffset :=
  h.loaderEnd_eq ▸ h.max_le_payloadOffset

/-- No number of a layout is larger than the image is long. -/
theorem words (h : Assembled boot kernel config image) : image.layout.Words := by
  have hlimit : image.layout.imageLen < wordLimit := Nat.lt_trans h.imageLen_lt (by decide)
  have hloader := h.loaderEnd_le
  have hpayload := h.payload_le_imageLen
  have hboot : 0 < boot.length := Nat.pos_of_ne_zero h.placed.bootLen_ne
  have hstart := h.boot_le_payloadOffset
  have hsector : image.layout.sectorSize ≤ image.layout.imageLen :=
    Nat.le_of_dvd (by omega) h.sectorSize_dvd
  refine ⟨by omega, by omega, by omega, by omega, ?_, hlimit⟩
  intro len hlen
  rw [h.placed.payloadLen_eq] at hlen
  obtain ⟨payload, rfl, rfl⟩ := Option.map_eq_some_iff.1 hlen
  rw [Option.getD_some] at hpayload
  omega

theorem take_loaderEnd (h : Assembled boot kernel config image) :
    image.bytes.take (image.layout.bootSectorLen + image.layout.extensionLen) =
      boot ++ List.replicate (image.layout.bootSectorLen - boot.length) 0 := by
  have hle := h.max_le_payloadOffset
  have hend := h.loaderEnd_eq
  have hsector := h.placed.bootSectorLen_eq
  have hboot : boot.take (image.layout.bootSectorLen + image.layout.extensionLen) = boot :=
    List.take_of_length_le (by omega)
  have hzeros : min (image.layout.bootSectorLen + image.layout.extensionLen - boot.length)
      (image.layout.payloadOffset - boot.length) = image.layout.bootSectorLen - boot.length := by
    omega
  have hrest : image.layout.bootSectorLen + image.layout.extensionLen -
      (boot ++ List.replicate (image.layout.payloadOffset - boot.length) (0 : UInt8)).length = 0 := by
    rw [List.length_append, List.length_replicate]
    omega
  rw [h.bytes_eq, List.append_assoc, List.take_append, hrest, List.take_zero, List.append_nil,
    List.take_append, hboot, List.take_replicate, hzeros]

theorem payload_eq (h : Assembled boot kernel config image) :
    image.layout.payloadLen.map (fun len => (image.bytes.drop image.layout.payloadOffset).take len) =
      kernel := by
  have hlength : (boot ++ List.replicate (image.layout.payloadOffset - boot.length)
      (0 : UInt8)).length = image.layout.payloadOffset := by
    have hle := h.boot_le_payloadOffset
    rw [List.length_append, List.length_replicate]
    omega
  rw [h.placed.payloadLen_eq]
  cases kernel with
  | none => rfl
  | some payload =>
    rw [Option.map_some, Option.map_some, h.bytes_eq, List.append_assoc, List.drop_left' hlength,
      Option.getD_some, List.take_left' rfl]

theorem recovers (h : Assembled boot kernel config image) :
    image.layout.Recovers image.bytes boot kernel :=
  ⟨h.take_loaderEnd, h.payload_eq⟩

/-- The record of the layout is all that is needed to find the inputs. -/
theorem ofRecord_toRecord (h : Assembled boot kernel config image) :
    Layout.ofRecord image.layout.toRecord = .ok image.layout := by
  have hrecord := Layout.ofRecord_toRecord h.words []
  rwa [List.append_nil] at hrecord

end Image.Assembled

end BootImage
