import BootImage.Proofs.CommandLine.Sizes
import BootImage.Proofs.Disk.Opening
import BootImage.Proofs.Image.Faultless
import BootImage.Proofs.Layout.Monotone
/-!
# Layouts that can be had

No check of a layout compares it with the longest buffer or file, so whether an accepted image can be held
in memory and on disk is decided by its length alone (`Layout.materialised_of_affordable` and
`Layout.refused_of_unaffordable`). Only the ceiling can keep the length below the limit. Under a lower one
every accepted layout is affordable; under any other, if anything is accepted, a layout is that ends at
the limit (`Layout.exists_unaffordable`), which is a multiple of every sector size.
-/

namespace BootImage

namespace Layout

variable {bootLen : Nat} {kernelLen : Option Nat} {config : Config} {layout : Layout}

/-- A buffer can be as long as the image, and so can a file. -/
def Affordable (layout : Layout) : Prop :=
  layout.imageLen < lengthLimit

/-! ## Under a ceiling -/

theorem Placed.affordable (h : Placed bootLen kernelLen config layout)
    (hceiling : config.maxImageSize < lengthLimit) : layout.Affordable :=
  Nat.lt_of_le_of_lt h.imageLen_le hceiling

/-- A sector that fits an image is a smaller power of two than the first number that is no word. -/
theorem Placed.sectorSize_dvd_limit (h : Placed bootLen kernelLen config layout) :
    config.sectorSize ∣ lengthLimit := by
  obtain ⟨k, hk⟩ := h.sound.sectorSize
  have hpos : 0 < layout.imageLen := by
    have hboot := h.bootSectorLen_ne
    have hoffset := h.payloadOffset_eq.le
    have hend := h.imageLen_eq.le
    omega
  have hlt : config.sectorSize < wordLimit :=
    Nat.lt_of_le_of_lt (Nat.le_of_dvd hpos h.imageLen_eq.dvd) h.imageLen_lt
  rw [hk] at hlt
  have hle : k ≤ 63 := Nat.le_of_lt_succ ((Nat.pow_lt_pow_iff_right (by decide)).1 hlt)
  rw [hk]
  exact Nat.pow_dvd_pow 2 hle

/-- Behind a payload that starts below the limit, a kernel can be so long that the image ends at the
limit. -/
theorem exists_unaffordable (h : Placed bootLen kernelLen config layout)
    (hceiling : lengthLimit ≤ config.maxImageSize) (haffordable : layout.Affordable) :
    ∃ kernelLen layout, Placed bootLen (some kernelLen) config layout ∧ layout.imageLen = lengthLimit := by
  have hstart : layout.payloadOffset ≤ lengthLimit :=
    Nat.le_trans (Nat.le_trans (Nat.le_add_right _ _) h.imageLen_eq.le) (Nat.le_of_lt haffordable)
  refine ⟨lengthLimit - layout.payloadOffset, { layout with
    payloadLen := some (lengthLimit - layout.payloadOffset), imageLen := lengthLimit }, ?_, rfl⟩
  exact { h with
    payloadLen_eq := rfl
    imageLen_eq := by
      have hend : layout.payloadOffset + (lengthLimit - layout.payloadOffset) = lengthLimit := by omega
      simp only [Option.getD_some, hend]
      exact Word.isAlignUp_self h.sound.sectorSize_pos h.sectorSize_dvd_limit
    imageLen_lt := (by decide : lengthLimit < wordLimit)
    imageLen_le := hceiling
  }

/-! ## In memory and on disk -/

/-- Buffer and disk can be had, and the image is assembled. -/
structure Materialised (boot : List UInt8) (kernel : Option (List UInt8)) (config : Config)
    (layout : Layout) : Prop where
  assembled : ∃ image, Image.assemble boot kernel config = .ok image ∧ image.layout = layout
  created : ∀ target tag before made, before.createFile (Path.staging target tag) = .ok made →
    ∃ count disk, layout.sectorCount = .ok count ∧
      (Disk.create target layout.sectorSize count tag before).1 = .ok disk

/-- The assembly breaks when it asks for its buffer, and a disk is refused for its length. -/
structure Refused (boot : List UInt8) (kernel : Option (List UInt8)) (config : Config)
    (layout : Layout) : Prop where
  assembled : Image.assemble boot kernel config = .error (.fault .capacity)
  created : ∀ target tag before made, before.createFile (Path.staging target tag) = .ok made →
    ∃ count, layout.sectorCount = .ok count ∧
      (Disk.create target layout.sectorSize count tag before).1 =
        .error (.error (.system .lengthTooLarge))

section

variable {boot : List UInt8} {kernel : Option (List UInt8)}

theorem Regular.length_eq (h : layout.Regular) :
    layout.sectorSize * (layout.imageLen / layout.sectorSize) = layout.imageLen := by
  have hlength := h.diskLength
  unfold Word.mul at hlength
  split at hlength
  · exact Except.ok.inj hlength
  · cases hlength

theorem materialised_of_affordable
    (h : compute boot.length (kernel.map List.length) config = .ok layout)
    (haffordable : layout.Affordable) : Materialised boot kernel config layout where
  assembled := Image.assemble_of_lt h haffordable
  created := by
    intro target tag before made hmade
    have hregular := (placed_of_compute h).regular
    refine ⟨_, _, hregular.sectorCount, (Disk.create_fst_of_made hmade).trans (if_pos ?_)⟩
    rwa [hregular.length_eq]

theorem refused_of_unaffordable
    (h : compute boot.length (kernel.map List.length) config = .ok layout)
    (hunaffordable : ¬ layout.Affordable) : Refused boot kernel config layout where
  assembled := Image.assemble_of_le h (Nat.le_of_not_lt hunaffordable)
  created := by
    intro target tag before made hmade
    have hregular := (placed_of_compute h).regular
    refine ⟨_, hregular.sectorCount, (Disk.create_fst_of_made hmade).trans ?_⟩
    have hlong : ¬ layout.imageLen < lengthLimit := hunaffordable
    rw [hregular.length_eq, if_neg hlong, if_pos (placed_of_compute h).imageLen_lt]

end

/-- All layouts that are accepted under a ceiling are shorter than the limit of buffers and files if and
only if the ceiling itself is, or nothing is accepted at all. An accepted layout that is shorter is
materialised; with any other the assembly breaks, and no disk of that size can be opened. -/
theorem affordable_iff (config : Config) :
    ((∀ bootLen kernelLen layout, compute bootLen kernelLen config = .ok layout → layout.Affordable) ↔
      config.maxImageSize < lengthLimit ∨
        ∀ bootLen kernelLen layout, compute bootLen kernelLen config ≠ .ok layout) ∧
    ∀ boot kernel layout, compute boot.length (kernel.map List.length) config = .ok layout →
      (layout.Affordable ∧ Materialised boot kernel config layout ∨
        ¬ layout.Affordable ∧ Refused boot kernel config layout) := by
  refine ⟨⟨?_, ?_⟩, ?_⟩
  · intro hall
    refine or_iff_not_imp_left.2 fun hceiling bootLen kernelLen layout hlayout => ?_
    obtain ⟨kernelLen', layout', hplaced, hlength⟩ := exists_unaffordable (placed_of_compute hlayout)
      (Nat.le_of_not_lt hceiling) (hall _ _ _ hlayout)
    have hlt : layout'.imageLen < lengthLimit := hall _ _ _ (compute_of_placed hplaced)
    exact absurd hlength (Nat.ne_of_lt hlt)
  · rintro (hceiling | hnone) bootLen kernelLen layout hlayout
    · exact (placed_of_compute hlayout).affordable hceiling
    · exact absurd hlayout (hnone bootLen kernelLen layout)
  · intro boot kernel layout hlayout
    by_cases haffordable : layout.Affordable
    · exact .inl ⟨haffordable, materialised_of_affordable hlayout haffordable⟩
    · exact .inr ⟨haffordable, refused_of_unaffordable hlayout haffordable⟩

/-- With the default parameters every accepted layout is affordable, and one that is accepted is
materialised. -/
theorem affordable_iff_default :
    (∀ bootLen kernelLen layout, compute bootLen kernelLen {} = .ok layout → layout.Affordable) ∧
      ∃ layout, compute 1 (some 1) {} = .ok layout ∧ Materialised [1] (some [2]) {} layout := by
  have hlayout : compute 1 (some 1) {} = .ok ⟨512, 512, 0, 512, some 1, 1024⟩ := by decide
  have hall := (affordable_iff {}).1.2 (.inl (by decide))
  refine ⟨hall, _, hlayout, ?_⟩
  rcases (affordable_iff {}).2 [1] (some [2]) _ hlayout with ⟨-, h⟩ | ⟨hnot, -⟩
  · exact h
  · exact absurd (hall _ _ _ hlayout) hnot

/-- A sector of the length that no buffer has, under a ceiling of the same length: all parameters are words,
and a loader of one byte is accepted that can neither be assembled nor put on a disk. -/
theorem accepted_unaffordable :
    ∃ config layout, config.Words ∧ compute 1 none config = .ok layout ∧
      layout.imageLen = lengthLimit ∧
      Image.assemble [0xaa] none config = .error (.fault .capacity) ∧
      (Disk.create ⟨['o']⟩ layout.sectorSize 1 (.ofRandom 0) (.empty [])).1 =
        .error (.error (.system .lengthTooLarge)) := by
  let config : Config := ⟨Nat.pow 2 63, 512, 32768, Nat.pow 2 63⟩
  have hwords : config.Words := by constructor <;> decide
  exact ⟨config, ⟨Nat.pow 2 63, 512, 0, Nat.pow 2 63, none, Nat.pow 2 63⟩, hwords, by decide, rfl,
    by decide, by decide +kernel⟩

end Layout

end BootImage
