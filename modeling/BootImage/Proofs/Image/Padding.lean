import BootImage.Proofs.Image.Acceptance
import BootImage.Proofs.Image.Recovery
/-!
# What an image does not tell

A loader that is shorter than the boot sector is filled up with zeros, and the image does not tell where
it ended. It tells everything else: two pairs of inputs have the same image if they differ in nothing but
zeros at the end of such a loader (`Image.assemble_eq_iff_padded`).
-/

namespace BootImage

/-- The bytes, filled up with zeros to a length that they may have already. -/
def Bytes.padded (len : Nat) (bytes : List UInt8) : List UInt8 :=
  bytes ++ List.replicate (len - bytes.length) 0

theorem Bytes.length_padded (len : Nat) (bytes : List UInt8) :
    (padded len bytes).length = max bytes.length len := by
  rw [padded, List.length_append, List.length_replicate]
  omega

theorem Bytes.padded_of_le {len : Nat} {bytes : List UInt8} (h : len ≤ bytes.length) :
    padded len bytes = bytes := by
  rw [padded, Nat.sub_eq_zero_of_le h, List.replicate_zero, List.append_nil]

/-- A layout depends on the loader only through the place where it, or the boot sector, ends. -/
theorem Layout.compute_congr {bootLen other : Nat} {kernelLen : Option Nat} {config : Config}
    {layout : Layout} (hother : other ≠ 0)
    (hend : max other config.bootSectorLen = max bootLen config.bootSectorLen)
    (h : compute bootLen kernelLen config = .ok layout) :
    compute other kernelLen config = .ok layout := by
  have hplaced := placed_of_compute h
  have hceiling := hplaced.bootSectorLen_le
  have hboot := hplaced.bootLen_le
  have hloader : checkLoader bootLen config = .ok () :=
    checkLoader_eq_ok_iff.2 ⟨hplaced.bootLen_ne, hboot⟩
  have hloader' : checkLoader other config = .ok () := checkLoader_eq_ok_iff.2 ⟨hother, by omega⟩
  have hextension : other - config.bootSectorLen = bootLen - config.bootSectorLen := by omega
  unfold compute at h ⊢
  rw [hloader', hextension]
  rw [hloader] at h
  exact h

namespace Image

variable {boot : List UInt8} {kernel : Option (List UInt8)} {config : Config} {image : Image}

namespace Assembled

/-- The zeros behind a short loader come in two parts, up to the boot sector's end and from there. -/
theorem bytes_eq_padded (h : Assembled boot kernel config image) :
    image.bytes = Bytes.padded config.bootSectorLen boot ++
      List.replicate (image.layout.payloadOffset - max boot.length config.bootSectorLen) 0 ++
        kernel.getD [] ++ List.replicate (image.layout.imageLen -
          (image.layout.payloadOffset + (kernel.getD []).length)) 0 := by
  have hle := h.max_le_payloadOffset
  have hzeros : config.bootSectorLen - boot.length +
      (image.layout.payloadOffset - max boot.length config.bootSectorLen) =
        image.layout.payloadOffset - boot.length := by omega
  rw [h.bytes_eq, ← hzeros, ← List.replicate_append_replicate, ← List.append_assoc, Bytes.padded]

/-- The loader is in front of the image, filled up. -/
theorem take_eq_padded (h : Assembled boot kernel config image) :
    image.bytes.take (image.layout.bootSectorLen + image.layout.extensionLen) =
      Bytes.padded config.bootSectorLen boot := by
  rw [h.take_loaderEnd, h.placed.bootSectorLen_eq, Bytes.padded]

/-- A loader that reaches beyond the boot sector has not been filled up. -/
theorem take_eq_boot (h : Assembled boot kernel config image)
    (hextension : 0 < image.layout.extensionLen) :
    image.bytes.take (image.layout.bootSectorLen + image.layout.extensionLen) = boot := by
  rw [h.placed.extensionLen_eq] at hextension
  rw [h.take_eq_padded, Bytes.padded_of_le (by omega)]

/-- Another loader that is filled up to the same bytes has the same image. -/
theorem assemble_of_padded (h : Assembled boot kernel config image) {other : List UInt8}
    (hother : other ≠ [])
    (hpadded : Bytes.padded config.bootSectorLen other = Bytes.padded config.bootSectorLen boot) :
    assemble other kernel config = .ok image := by
  have hend : max other.length config.bootSectorLen = max boot.length config.bootSectorLen := by
    rw [← Bytes.length_padded, ← Bytes.length_padded, hpadded]
  have hcomputed : Layout.compute other.length (kernel.map List.length) config = .ok image.layout :=
    Layout.compute_congr (mt List.length_eq_zero_iff.1 hother) hend h.computed
  obtain ⟨found, hfound, hlayout⟩ := assemble_of_lt hcomputed h.imageLen_lt
  have hbytes : found.bytes = image.bytes := by
    rw [(assembled_of_assemble hfound).bytes_eq_padded, h.bytes_eq_padded, hlayout, hpadded, hend]
  cases found
  cases image
  cases hlayout
  cases hbytes
  exact hfound

/-- What two pairs of inputs with one image have in common. -/
theorem padded_eq_of_assembled {other : List UInt8} {kernel' : Option (List UInt8)}
    (h : Assembled boot kernel config image) (h' : Assembled other kernel' config image) :
    kernel' = kernel ∧
      Bytes.padded config.bootSectorLen other = Bytes.padded config.bootSectorLen boot :=
  ⟨h'.payload_eq.symm.trans h.payload_eq, h'.take_eq_padded.symm.trans h.take_eq_padded⟩

end Assembled

/-- Other inputs have the same image if and only if the kernel is the same and the loaders are, filled up
with zeros to the length of the boot sector. So an image with its layout gives the kernel back, and the
loader too, up to these zeros if it does not reach beyond the boot sector. -/
theorem assemble_eq_iff_padded (h : assemble boot kernel config = .ok image) :
    (∀ (other : List UInt8) (kernel' : Option (List UInt8)), other ≠ [] →
      (assemble other kernel' config = .ok image ↔
        kernel' = kernel ∧
          Bytes.padded config.bootSectorLen other = Bytes.padded config.bootSectorLen boot)) ∧
      image.layout.payloadLen.map
        (fun len => (image.bytes.drop image.layout.payloadOffset).take len) = kernel ∧
      image.bytes.take (image.layout.bootSectorLen + image.layout.extensionLen) =
        Bytes.padded config.bootSectorLen boot ∧
      (0 < image.layout.extensionLen →
        image.bytes.take (image.layout.bootSectorLen + image.layout.extensionLen) = boot) := by
  have ha := assembled_of_assemble h
  refine ⟨fun other kernel' hother => ⟨fun h' => ?_, ?_⟩, ha.payload_eq, ha.take_eq_padded,
    ha.take_eq_boot⟩
  · exact ha.padded_eq_of_assembled (assembled_of_assemble h')
  · rintro ⟨rfl, hpadded⟩
    exact ha.assemble_of_padded hother hpadded

/-- A zero more at the end of a short loader makes no difference, and an empty kernel is not none. -/
theorem assemble_eq_iff_padded_short_loader :
    ∃ image, assemble [1, 2, 3] none ⟨4, 6, 16, 64⟩ = .ok image ∧
      image.bytes = [1, 2, 3, 0, 0, 0, 0, 0] ∧
      assemble [1, 2, 3, 0] none ⟨4, 6, 16, 64⟩ = .ok image ∧
      assemble [1, 2, 3] (some []) ⟨4, 6, 16, 64⟩ ≠ .ok image ∧
      assemble [0, 1, 2, 3] none ⟨4, 6, 16, 64⟩ ≠ .ok image := by
  have h : assemble [1, 2, 3] none ⟨4, 6, 16, 64⟩ =
      .ok ⟨[1, 2, 3, 0, 0, 0, 0, 0], ⟨4, 6, 0, 8, none, 8⟩⟩ := by rfl
  obtain ⟨hiff, -⟩ := assemble_eq_iff_padded h
  refine ⟨_, h, rfl, (hiff [1, 2, 3, 0] none (by decide)).2 ⟨rfl, by rfl⟩, fun hempty => ?_,
    fun hother => ?_⟩
  · have hkernel := ((hiff [1, 2, 3] (some []) (by decide)).1 hempty).1
    cases hkernel
  · have hpadded := ((hiff [0, 1, 2, 3] none (by decide)).1 hother).2
    exact absurd hpadded (by decide)

end Image

end BootImage
