import BootImage.Proofs.Image.Acceptance
import BootImage.Proofs.Layout.Monotone
/-!
# The kernel is appended

The loader is laid out as if there were no kernel, and the kernel comes behind all of that. So an image
with a kernel begins with the image without it, which can be assembled as well, and goes on with the
kernel and less than a sector of zeros. An empty kernel adds no byte: with it an image is refused for
the same reason, or has the same bytes (`Image.kernel_appended`).
-/

namespace BootImage

namespace Layout

variable {bootLen : Nat} {kernelLen : Option Nat} {config : Config} {layout : Layout}

/-- The layout of the same loader without a kernel: the image ends where the payload would start. -/
def withoutKernel (layout : Layout) : Layout :=
  { layout with payloadLen := none, imageLen := layout.payloadOffset }

/-- The layout with a kernel that has no bytes, instead of none. -/
def withEmptyKernel (layout : Layout) : Layout :=
  { layout with payloadLen := some 0 }

theorem Placed.payloadOffset_le (h : Placed bootLen kernelLen config layout) :
    layout.payloadOffset ≤ layout.imageLen :=
  Nat.le_trans (Nat.le_add_right _ _) h.imageLen_eq.le

theorem Placed.withoutKernel (h : Placed bootLen kernelLen config layout) :
    Placed bootLen none config layout.withoutKernel :=
  { h with
    payloadLen_eq := rfl
    imageLen_eq := Word.isAlignUp_self h.sound.sectorSize_pos h.payloadOffset_eq.dvd
    imageLen_lt := Nat.lt_of_le_of_lt h.payloadOffset_le h.imageLen_lt
    imageLen_le := Nat.le_trans h.payloadOffset_le h.imageLen_le }

/-- What starts at a boundary and has no bytes ends there. -/
theorem imageEnd_empty {offset payloadOffset : Nat} (h : boundary offset config = .ok payloadOffset) :
    imageEnd payloadOffset (some 0) config = imageEnd payloadOffset none config := by
  obtain ⟨hup, hword⟩ := isAlignUp_of_boundary h
  have hpos : 0 < config.sectorSize := by
    have hle := hup.le
    have hlt := hup.lt
    omega
  have hend : EndsAt config payloadOffset (some 0) payloadOffset :=
    (Word.isAlignUp_self hpos hup.dvd).isLeast
  rw [imageEnd_of_endsAt hpos hword hend, if_pos hword]
  rfl

/-- An empty kernel is no reason for another answer. -/
theorem compute_empty_kernel (bootLen : Nat) (config : Config) :
    compute bootLen (some 0) config = (compute bootLen none config).map withEmptyKernel := by
  change _ = withEmptyKernel <$> compute bootLen none config
  simp only [compute, map_bind]
  refine bind_congr fun _ => bind_congr fun _ => bind_congr fun loaderEnd => ?_
  cases h : boundary loaderEnd config with
  | error failure => rfl
  | ok payloadOffset =>
    simp only [bind, Except.bind, imageEnd_empty h]
    cases imageEnd payloadOffset none config with
    | error failure => rfl
    | ok imageLen => cases checkImage imageLen config <;> rfl

end Layout

namespace Image

variable {boot payload : List UInt8} {config : Config} {image plain : Image}

/-- The image with a kernel that has no bytes, instead of none. -/
def withEmptyKernel (image : Image) : Image :=
  { image with layout := image.layout.withEmptyKernel }

/-- Without a kernel there is the loader, and zeros up to where a payload would start. -/
theorem Assembled.bytes_without_kernel (h : Assembled boot none config plain)
    (hend : plain.layout.imageLen = plain.layout.payloadOffset) :
    plain.bytes = boot ++ List.replicate (plain.layout.payloadOffset - boot.length) 0 := by
  rw [h.bytes_eq, hend]
  simp

theorem Assembled.exists_without_kernel (h : Assembled boot (some payload) config image) :
    ∃ plain, assemble boot none config = .ok plain ∧ plain.layout = image.layout.withoutKernel ∧
      image.bytes = plain.bytes ++ payload ++
        List.replicate (image.layout.imageLen - (image.layout.payloadOffset + payload.length)) 0 := by
  have hcomputed := Layout.compute_of_placed h.placed.withoutKernel
  have hlimit : image.layout.payloadOffset < lengthLimit :=
    Nat.lt_of_le_of_lt h.placed.payloadOffset_le h.imageLen_lt
  obtain ⟨plain, hplain, hlayout⟩ := @assemble_of_lt boot none config _ hcomputed hlimit
  have hbytes := (assembled_of_assemble hplain).bytes_without_kernel (by rw [hlayout]; rfl)
  rw [hlayout] at hbytes
  refine ⟨plain, hplain, hlayout, ?_⟩
  rw [hbytes, h.bytes_eq]
  rfl

/-- The kernel fills its last sector up to less than a sector. -/
theorem Assembled.tail_lt (h : Assembled boot (some payload) config image) :
    image.layout.imageLen - (image.layout.payloadOffset + payload.length) < config.sectorSize := by
  have hle : image.layout.payloadOffset + payload.length ≤ image.layout.imageLen :=
    h.placed.imageLen_eq.le
  have hlt : image.layout.imageLen <
      image.layout.payloadOffset + payload.length + config.sectorSize := h.placed.imageLen_eq.lt
  omega

/-- Two assembled images of one loader have the same bytes if one has no kernel and the other has an empty
one. -/
theorem Assembled.eq_withEmptyKernel (h : Assembled boot (some []) config image)
    (h' : Assembled boot none config plain) (hlayout : image.layout = plain.layout.withEmptyKernel) :
    image = plain.withEmptyKernel := by
  have hbytes : image.bytes = plain.bytes := by
    rw [h.bytes_eq, h'.bytes_eq, hlayout]
    rfl
  cases image
  cases hbytes
  cases hlayout
  rfl

theorem assemble_empty_kernel (boot : List UInt8) (config : Config) :
    assemble boot (some []) config = (assemble boot none config).map withEmptyKernel := by
  have hempty := Layout.compute_empty_kernel boot.length config
  cases h : Layout.compute boot.length none config with
  | error failure =>
    rw [h] at hempty
    rw [@assemble_of_refused boot none config _ h, @assemble_of_refused boot (some []) config _ hempty]
    rfl
  | ok layout =>
    rw [h] at hempty
    rcases Nat.lt_or_ge layout.imageLen lengthLimit with hlimit | hlimit
    · obtain ⟨plain, hplain, rfl⟩ := @assemble_of_lt boot none config _ h hlimit
      obtain ⟨image, himage, hlayout⟩ := @assemble_of_lt boot (some []) config _ hempty hlimit
      rw [hplain, himage, (assembled_of_assemble himage).eq_withEmptyKernel
        (assembled_of_assemble hplain) hlayout]
      rfl
    · -- No buffer is long enough for either of them.
      rw [@assemble_of_le boot none config _ h hlimit,
        @assemble_of_le boot (some []) config _ hempty hlimit]
      rfl

/-- If a loader and a kernel make an image, the loader alone makes one too. The layouts differ in nothing
but the kernel's length and the end of the image, and the bytes are those of the loader alone, then the
kernel, then zeros, fewer than fill a sector. Where the kernel is empty, the image of the loader alone
decides: it is refused for the same reason, or it has the same bytes and a layout that tells of a
kernel without bytes and is the same otherwise. -/
theorem kernel_appended (boot : List UInt8) (config : Config) :
    (∀ payload image, assemble boot (some payload) config = .ok image →
      ∃ plain padding, assemble boot none config = .ok plain ∧
        plain.layout = { image.layout with
          payloadLen := none
          imageLen := image.layout.payloadOffset } ∧
        image.bytes = plain.bytes ++ payload ++ List.replicate padding 0 ∧
        padding < config.sectorSize ∧ image.layout.sectorSize = config.sectorSize) ∧
      assemble boot (some []) config = (assemble boot none config).map fun plain =>
        { plain with layout := { plain.layout with payloadLen := some 0 } } := by
  refine ⟨fun payload image h => ?_, assemble_empty_kernel boot config⟩
  have himage := assembled_of_assemble h
  obtain ⟨plain, hplain, hlayout, hbytes⟩ := himage.exists_without_kernel
  exact ⟨plain, _, hplain, hlayout, hbytes, himage.tail_lt, himage.placed.sectorSize_eq⟩

/-- A loader that is shorter than the boot sector, and a kernel that does not fill its last sector. -/
theorem kernel_appended_unaligned :
    ∃ image plain, assemble [1, 2, 3] (some [7, 8]) ⟨4, 6, 16, 64⟩ = .ok image ∧
      assemble [1, 2, 3] none ⟨4, 6, 16, 64⟩ = .ok plain ∧ plain.bytes = [1, 2, 3, 0, 0, 0, 0, 0] ∧
      ∃ padding < 4, image.bytes = plain.bytes ++ [7, 8] ++ List.replicate padding 0 := by
  have h : assemble [1, 2, 3] (some [7, 8]) ⟨4, 6, 16, 64⟩ =
      .ok ⟨[1, 2, 3, 0, 0, 0, 0, 0, 7, 8, 0, 0], ⟨4, 6, 0, 8, some 2, 12⟩⟩ := by rfl
  obtain ⟨plain, padding, hplain, -, hbytes, hpadding, -⟩ :=
    (kernel_appended [1, 2, 3] ⟨4, 6, 16, 64⟩).1 [7, 8] _ h
  have hfound : assemble [1, 2, 3] none ⟨4, 6, 16, 64⟩ =
      .ok ⟨[1, 2, 3, 0, 0, 0, 0, 0], ⟨4, 6, 0, 8, none, 8⟩⟩ := by rfl
  obtain rfl := Except.ok.inj (hplain.symm.trans hfound)
  exact ⟨_, _, h, hfound, rfl, padding, hpadding, hbytes⟩

end Image

end BootImage
