import BootImage.Image
import BootImage.Proofs.Layout.Regions
/-!
# The bytes of an image

An assembled image is the loader, zeros up to the payload, the kernel, and zeros up to the end
(`Image.assembled_of_assemble`). The regions do not overlap, so every byte belongs to one of them
(`Image.byteAt`).
-/

namespace BootImage

namespace Bytes

theorem zeros_eq_ok {len : Nat} {bytes : List UInt8} (h : zeros len = .ok bytes) :
    bytes = List.replicate len 0 ∧ len < lengthLimit := by
  unfold zeros at h
  split at h
  · rename_i hlt
    cases h
    exact ⟨rfl, hlt⟩
  · cases h

theorem overlay_eq_ok {bytes data result : List UInt8} {start : Nat}
    (h : overlay bytes start data = .ok result) :
    result = bytes.take start ++ data ++ bytes.drop (start + data.length) ∧
      start + data.length ≤ bytes.length := by
  unfold overlay at h
  obtain ⟨stop, hstop, h⟩ := bind_eq_ok h
  obtain ⟨rfl, -⟩ := Word.add_eq_ok_iff.1 hstop
  by_cases hle : start + data.length ≤ bytes.length
  · rw [if_pos hle] at h
    cases h
    exact ⟨rfl, hle⟩
  · rw [if_neg hle] at h
    cases h

end Bytes

namespace Image

/-- What an image of a loader and an optional kernel has to be. -/
structure Assembled (boot : List UInt8) (kernel : Option (List UInt8)) (config : Config)
    (image : Image) : Prop where
  computed : Layout.compute boot.length (kernel.map List.length) config = .ok image.layout
  imageLen_lt : image.layout.imageLen < lengthLimit
  bytes_eq : image.bytes =
    boot ++ List.replicate (image.layout.payloadOffset - boot.length) 0 ++ kernel.getD [] ++
      List.replicate (image.layout.imageLen -
        (image.layout.payloadOffset + (kernel.getD []).length)) 0

theorem assembled_of_assemble {boot : List UInt8} {kernel : Option (List UInt8)} {config : Config}
    {image : Image} (h : assemble boot kernel config = .ok image) :
    Assembled boot kernel config image := by
  unfold assemble at h
  obtain ⟨layout, hlayout, h⟩ := bind_eq_ok h
  obtain ⟨blank, hblank, h⟩ := bind_eq_ok h
  obtain ⟨loaded, hloaded, h⟩ := bind_eq_ok h
  have hplaced := Layout.placed_of_compute hlayout
  obtain ⟨rfl, hlimit⟩ := Bytes.zeros_eq_ok (ok_of_liftM_fault hblank)
  obtain ⟨rfl, -⟩ := Bytes.overlay_eq_ok (ok_of_liftM_fault hloaded)
  have hboot : boot.length ≤ layout.payloadOffset :=
    Nat.le_trans (Nat.le_max_left _ _) hplaced.payloadOffset_eq.le
  have hloaded : (List.replicate layout.imageLen (0 : UInt8)).take 0 ++ boot ++
      (List.replicate layout.imageLen 0).drop (0 + boot.length) =
        boot ++ List.replicate (layout.imageLen - boot.length) 0 := by
    rw [List.take_zero, List.nil_append, List.drop_replicate, Nat.zero_add]
  rw [hloaded] at h
  cases kernel with
  | none =>
    cases h
    have hend : layout.payloadOffset ≤ layout.imageLen := hplaced.imageLen_eq.le
    refine ⟨hlayout, hlimit, ?_⟩
    simp only [Option.getD_none, List.append_nil, List.length_nil, Nat.add_zero,
      List.append_assoc, List.replicate_append_replicate]
    congr 2
    omega
  | some payload =>
    obtain ⟨bytes, hbytes, h⟩ := bind_eq_ok h
    cases h
    have hend : layout.payloadOffset + payload.length ≤ layout.imageLen := hplaced.imageLen_eq.le
    obtain ⟨rfl, -⟩ := Bytes.overlay_eq_ok (ok_of_liftM_fault hbytes)
    refine ⟨hlayout, hlimit, ?_⟩
    have hbefore : (boot ++ List.replicate (layout.imageLen - boot.length) (0 : UInt8)).take
        layout.payloadOffset = boot ++ List.replicate (layout.payloadOffset - boot.length) 0 := by
      rw [List.take_append, List.take_of_length_le hboot, List.take_replicate,
        Nat.min_eq_left (by omega)]
    have hbehind : (boot ++ List.replicate (layout.imageLen - boot.length) (0 : UInt8)).drop
        (layout.payloadOffset + payload.length) =
          List.replicate (layout.imageLen - (layout.payloadOffset + payload.length)) 0 := by
      rw [List.drop_append, List.drop_eq_nil_of_le (by omega), List.nil_append,
        List.drop_replicate]
      congr 1
      omega
    rw [hbefore, hbehind, Option.getD_some]

/-! ## Byte by byte -/

/-- The byte that an image has at an index: the loader's, the kernel's, or zero. -/
def byteAt (boot : List UInt8) (kernel : Option (List UInt8)) (payloadOffset i : Nat) : UInt8 :=
  if i < boot.length then
    boot.getD i 0
  else
    match kernel with
    | none => 0
    | some payload =>
      if payloadOffset ≤ i ∧ i < payloadOffset + payload.length then
        payload.getD (i - payloadOffset) 0
      else
        0

section

variable {boot : List UInt8} {kernel : Option (List UInt8)} {payloadOffset i : Nat}

theorem byteAt_loader (h : i < boot.length) : byteAt boot kernel payloadOffset i = boot[i] := by
  unfold byteAt
  rw [if_pos h, List.getD_eq_getElem?_getD, List.getElem?_eq_getElem h, Option.getD_some]

theorem byteAt_kernel (hboot : boot.length ≤ payloadOffset) (hstart : payloadOffset ≤ i)
    (hend : i - payloadOffset < (kernel.getD []).length) :
    byteAt boot kernel payloadOffset i = (kernel.getD [])[i - payloadOffset] := by
  unfold byteAt
  rw [if_neg (by omega)]
  cases kernel with
  | none => exact absurd hend (Nat.not_lt_zero _)
  | some payload =>
    have hlt : i - payloadOffset < payload.length := hend
    simp only [Option.getD_some]
    rw [if_pos ⟨hstart, by omega⟩, List.getD_eq_getElem?_getD, List.getElem?_eq_getElem hlt,
      Option.getD_some]

/-- Before the payload and behind it there are zeros. -/
theorem byteAt_padding (hloader : boot.length ≤ i)
    (hpayload : i < payloadOffset ∨ payloadOffset + (kernel.getD []).length ≤ i) :
    byteAt boot kernel payloadOffset i = 0 := by
  unfold byteAt
  rw [if_neg (Nat.not_lt.2 hloader)]
  cases kernel with
  | none => rfl
  | some payload =>
    rw [Option.getD_some] at hpayload
    exact if_neg (by omega)

end

namespace Assembled

variable {boot : List UInt8} {kernel : Option (List UInt8)} {config : Config} {image : Image}

theorem placed (h : Assembled boot kernel config image) :
    Layout.Placed boot.length (kernel.map List.length) config image.layout :=
  Layout.placed_of_compute h.computed

theorem max_le_payloadOffset (h : Assembled boot kernel config image) :
    max boot.length config.bootSectorLen ≤ image.layout.payloadOffset :=
  h.placed.payloadOffset_eq.le

theorem boot_le_payloadOffset (h : Assembled boot kernel config image) :
    boot.length ≤ image.layout.payloadOffset :=
  Nat.le_trans (Nat.le_max_left _ _) h.max_le_payloadOffset

theorem payload_le_imageLen (h : Assembled boot kernel config image) :
    image.layout.payloadOffset + (kernel.getD []).length ≤ image.layout.imageLen := by
  have hle := h.placed.imageLen_eq.le
  cases kernel <;> exact hle

theorem length_bytes (h : Assembled boot kernel config image) :
    image.bytes.length = image.layout.imageLen := by
  have hboot := h.boot_le_payloadOffset
  have hend := h.payload_le_imageLen
  rw [h.bytes_eq]
  simp only [List.length_append, List.length_replicate]
  omega

theorem getElem?_bytes (h : Assembled boot kernel config image) {i : Nat}
    (hi : i < image.layout.imageLen) :
    image.bytes[i]? = some (byteAt boot kernel image.layout.payloadOffset i) := by
  have hboot := h.boot_le_payloadOffset
  have hend := h.payload_le_imageLen
  have hsum : boot.length + (image.layout.payloadOffset - boot.length) =
      image.layout.payloadOffset := by omega
  rw [h.bytes_eq]
  simp only [List.getElem?_append, List.length_append, List.length_replicate,
    List.getElem?_replicate, hsum]
  -- One case for each of the four regions, from the first to the last.
  by_cases hloader : i < boot.length
  · rw [if_pos (by omega), if_pos (by omega), if_pos hloader, byteAt_loader hloader,
      List.getElem?_eq_getElem hloader]
  by_cases hgap : i < image.layout.payloadOffset
  · rw [if_pos (by omega), if_pos hgap, if_neg hloader, if_pos (by omega),
      byteAt_padding (Nat.le_of_not_lt hloader) (.inl hgap)]
  by_cases hkernel : i < image.layout.payloadOffset + (kernel.getD []).length
  · have hlt : i - image.layout.payloadOffset < (kernel.getD []).length := by omega
    rw [if_pos hkernel, if_neg hgap, List.getElem?_eq_getElem hlt,
      byteAt_kernel hboot (Nat.le_of_not_lt hgap) hlt]
  · rw [if_neg hkernel, if_pos (by omega),
      byteAt_padding (Nat.le_of_not_lt hloader) (.inr (Nat.le_of_not_lt hkernel))]

end Assembled

/-- An image is as long as its layout says, and each of its bytes is the loader's, the kernel's or
zero. The loader ends before the payload starts and the payload before the image ends, so neither
covers the other, and both gaps are zero. -/
theorem bytes_by_region {boot : List UInt8} {kernel : Option (List UInt8)} {config : Config}
    {image : Image} (h : assemble boot kernel config = .ok image) :
    Layout.compute boot.length (kernel.map List.length) config = .ok image.layout ∧
      image.bytes.length = image.layout.imageLen ∧
      (∀ i < image.layout.imageLen,
        image.bytes[i]? = some (byteAt boot kernel image.layout.payloadOffset i)) ∧
      max boot.length config.bootSectorLen ≤ image.layout.payloadOffset ∧
      image.layout.payloadOffset + (kernel.getD []).length ≤ image.layout.imageLen ∧
      (∀ i, boot.length ≤ i → i < image.layout.payloadOffset → image.bytes[i]? = some 0) ∧
      ∀ i, image.layout.payloadOffset + (kernel.getD []).length ≤ i →
        i < image.layout.imageLen → image.bytes[i]? = some 0 := by
  have ha := assembled_of_assemble h
  have hboot := ha.boot_le_payloadOffset
  have hend := ha.payload_le_imageLen
  refine ⟨ha.computed, ha.length_bytes, fun i hi => ha.getElem?_bytes hi, ha.max_le_payloadOffset,
    hend, fun i hb hi => ?_, fun i hp hi => ?_⟩
  · rw [ha.getElem?_bytes (by omega), byteAt_padding hb (.inl hi)]
  · rw [ha.getElem?_bytes hi, byteAt_padding (by omega) (.inr hp)]

/-- Both gaps of a small image: a boot sector that is no whole number of sectors, and a kernel that
does not fill its last one. -/
theorem bytes_by_region_unaligned :
    ∃ image, assemble [1, 2, 3] (some [7, 8]) ⟨4, 6, 16, 64⟩ = .ok image ∧
      image.bytes = [1, 2, 3, 0, 0, 0, 0, 0, 7, 8, 0, 0] ∧
      image.bytes.length = image.layout.imageLen ∧ max 3 6 ≤ image.layout.payloadOffset := by
  have h : assemble [1, 2, 3] (some [7, 8]) ⟨4, 6, 16, 64⟩ =
      .ok ⟨[1, 2, 3, 0, 0, 0, 0, 0, 7, 8, 0, 0], ⟨4, 6, 0, 8, some 2, 12⟩⟩ := by rfl
  obtain ⟨-, hlength, -, hmax, -⟩ := bytes_by_region h
  exact ⟨_, h, rfl, hlength, hmax⟩

end Image

end BootImage
