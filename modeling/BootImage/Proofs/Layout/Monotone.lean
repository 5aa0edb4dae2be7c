import BootImage.Proofs.Layout.Verdict
/-!
# Layouts of smaller inputs

A layout is computed if and only if all its regions are in their places and below their ceilings
(`Layout.compute_eq_ok_iff`). Rounding up is monotone, so inputs that are no longer than some that are
accepted end no later, and are accepted too, under these ceilings and under all higher ones. The ceilings
do nothing else: where two of them let a layout through, it is the same one (`Layout.compute_monotone`).
-/

namespace BootImage

namespace Word

variable {align len other n m : Nat}

theorem IsAlignUp.unique (h : IsAlignUp align len n) (h' : IsAlignUp align len m) : n = m :=
  h.isLeast.unique h'.isLeast

theorem IsAlignUp.mono (h : IsAlignUp align len n) (h' : IsAlignUp align other m) (hle : len ≤ other) :
    n ≤ m :=
  h.isLeast.2 ⟨h'.dvd, Nat.le_trans hle h'.le⟩

end Word

namespace Config

/-- Both parameters agree that decide where the regions of an image lie. -/
structure SameSectors (config other : Config) : Prop where
  sectorSize_eq : other.sectorSize = config.sectorSize
  bootSectorLen_eq : other.bootSectorLen = config.bootSectorLen

/-- The ceilings are no lower, and the other parameters agree. -/
structure Within (config wider : Config) : Prop extends SameSectors config wider where
  maxLoaderSize_le : config.maxLoaderSize ≤ wider.maxLoaderSize
  maxImageSize_le : config.maxImageSize ≤ wider.maxImageSize

end Config

namespace Layout

variable {bootLen other : Nat} {kernelLen otherKernel : Option Nat} {config wider : Config}
variable {layout otherLayout : Layout}

/-! ## What is in its place is computed -/

theorem Placed.sound (h : Placed bootLen kernelLen config layout) : config.Sound :=
  ⟨Word.isPowerOfTwo_iff.1 h.isPowerOfTwo, h.bootSectorLen_ne, h.bootSectorLen_le⟩

theorem Placed.endsAt (h : Placed bootLen kernelLen config layout) :
    EndsAt config layout.payloadOffset kernelLen layout.imageLen := by
  have hend := h.imageLen_eq
  cases kernelLen with
  | none =>
    -- Rounding up what is a multiple already changes nothing.
    exact hend.unique (Word.isAlignUp_self h.sound.sectorSize_pos h.payloadOffset_eq.dvd)
  | some len => exact hend.isLeast

theorem Placed.ends (h : Placed bootLen kernelLen config layout) :
    Ends bootLen kernelLen config layout.payloadOffset layout.imageLen :=
  ⟨h.sound, h.bootLen_ne, h.bootLen_le, h.payloadOffset_eq.isLeast, h.endsAt⟩

/-- Loader and boot sector end before the image does, so their lengths are words. -/
theorem compute_of_placed (h : Placed bootLen kernelLen config layout) :
    compute bootLen kernelLen config = .ok layout := by
  have hloader := h.payloadOffset_eq.le
  have hend := h.imageLen_eq.le
  have hword := h.imageLen_lt
  rw [(Verdict.accepted h.ends h.imageLen_le hword).compute_eq (by omega) (by omega)]
  have hextension : max bootLen config.bootSectorLen - config.bootSectorLen = layout.extensionLen := by
    have hlen := h.extensionLen_eq
    omega
  rw [hextension, ← h.sectorSize_eq, ← h.bootSectorLen_eq, ← h.payloadLen_eq]

theorem compute_eq_ok_iff :
    compute bootLen kernelLen config = .ok layout ↔ Placed bootLen kernelLen config layout :=
  ⟨placed_of_compute, compute_of_placed⟩

/-! ## Less is in its place too -/

/-- Ceilings have no part in where regions lie. -/
theorem Placed.unique (h : Placed bootLen kernelLen config layout)
    (h' : Placed bootLen kernelLen wider otherLayout) (hsame : config.SameSectors wider) :
    otherLayout = layout := by
  have hsize : otherLayout.sectorSize = layout.sectorSize := by
    rw [h'.sectorSize_eq, h.sectorSize_eq, hsame.sectorSize_eq]
  have hsector : otherLayout.bootSectorLen = layout.bootSectorLen := by
    rw [h'.bootSectorLen_eq, h.bootSectorLen_eq, hsame.bootSectorLen_eq]
  have hextension : otherLayout.extensionLen = layout.extensionLen := by
    rw [h'.extensionLen_eq, h.extensionLen_eq, hsame.bootSectorLen_eq]
  have hpayload : otherLayout.payloadLen = layout.payloadLen := by
    rw [h'.payloadLen_eq, h.payloadLen_eq]
  have hstart := h'.payloadOffset_eq
  rw [hsame.sectorSize_eq, hsame.bootSectorLen_eq] at hstart
  have hoffset := hstart.unique h.payloadOffset_eq
  have hstop := h'.imageLen_eq
  rw [hsame.sectorSize_eq, hoffset] at hstop
  have hend := hstop.unique h.imageLen_eq
  cases layout
  cases otherLayout
  rw [Layout.mk.injEq]
  exact ⟨hsize, hsector, hextension, hoffset, hpayload, hend⟩

/-- A shorter loader and a shorter kernel find their places, and none of them lies further behind. -/
theorem Placed.exists_smaller (h : Placed bootLen kernelLen config layout) (hne : other ≠ 0)
    (hboot : other ≤ bootLen) (hkernel : otherKernel.getD 0 ≤ kernelLen.getD 0)
    (hwithin : config.Within wider) :
    ∃ smaller, Placed other otherKernel wider smaller ∧
      smaller.payloadOffset ≤ layout.payloadOffset ∧ smaller.imageLen ≤ layout.imageLen := by
  have hsize := hwithin.sectorSize_eq
  have hsector := hwithin.bootSectorLen_eq
  have hpos := h.sound.sectorSize_pos
  obtain ⟨payloadOffset, hoffset⟩ : ∃ n,
      Word.IsAlignUp config.sectorSize (max other config.bootSectorLen) n :=
    ⟨_, Word.isAlignUp_div_mul hpos _⟩
  obtain ⟨imageLen, hend⟩ : ∃ n,
      Word.IsAlignUp config.sectorSize (payloadOffset + otherKernel.getD 0) n :=
    ⟨_, Word.isAlignUp_div_mul hpos _⟩
  have hoffset_le : payloadOffset ≤ layout.payloadOffset :=
    hoffset.mono h.payloadOffset_eq (by omega)
  have hend_le : imageLen ≤ layout.imageLen := hend.mono h.imageLen_eq (by omega)
  refine ⟨⟨config.sectorSize, config.bootSectorLen, other - config.bootSectorLen, payloadOffset,
    otherKernel, imageLen⟩, ?_, hoffset_le, hend_le⟩
  exact {
    sectorSize_eq := hsize.symm
    bootSectorLen_eq := hsector.symm
    extensionLen_eq := by rw [hsector]
    payloadLen_eq := rfl
    isPowerOfTwo := hsize ▸ h.isPowerOfTwo
    bootSectorLen_ne := hsector ▸ h.bootSectorLen_ne
    bootSectorLen_le := hsector ▸ Nat.le_trans h.bootSectorLen_le hwithin.maxLoaderSize_le
    bootLen_ne := hne
    bootLen_le := Nat.le_trans hboot (Nat.le_trans h.bootLen_le hwithin.maxLoaderSize_le)
    payloadOffset_eq := by rwa [hsize, hsector]
    imageLen_eq := by rwa [hsize]
    imageLen_lt := Nat.lt_of_le_of_lt hend_le h.imageLen_lt
    imageLen_le := Nat.le_trans hend_le (Nat.le_trans h.imageLen_le hwithin.maxImageSize_le)
  }

/-- What is accepted stays accepted when the loader gets shorter, as long as there is one, when the kernel
gets shorter or is left out, and when ceilings are raised, and neither the payload nor the end of the
image moves back by it. With the same lengths and sectors, all ceilings that let a layout through let the
same one through. -/
theorem compute_monotone (h : compute bootLen kernelLen config = .ok layout) :
    (∀ other otherKernel wider, 1 ≤ other → other ≤ bootLen →
      otherKernel.getD 0 ≤ kernelLen.getD 0 → config.Within wider →
        ∃ smaller, compute other otherKernel wider = .ok smaller ∧
          smaller.payloadOffset ≤ layout.payloadOffset ∧ smaller.imageLen ≤ layout.imageLen) ∧
      ∀ otherConfig otherLayout, config.SameSectors otherConfig →
        compute bootLen kernelLen otherConfig = .ok otherLayout → otherLayout = layout := by
  have hplaced := placed_of_compute h
  constructor
  · intro other otherKernel wider hpos hboot hkernel hwithin
    obtain ⟨smaller, hsmaller, hoffset, hend⟩ :=
      hplaced.exists_smaller (Nat.ne_of_gt hpos) hboot hkernel hwithin
    exact ⟨smaller, compute_of_placed hsmaller, hoffset, hend⟩
  · intro otherConfig otherLayout hsame hother
    exact hplaced.unique (placed_of_compute hother) hsame

/-- A boot sector that is no whole number of sectors, and ceilings that are none either. The loader gets
shorter than the boot sector and the kernel is left out; ceilings that nothing more would fit under give
the same layout. -/
theorem compute_monotone_unaligned :
    ∃ layout smaller lowest, compute 600 (some 10) ⟨512, 446, 1024, 1600⟩ = .ok layout ∧
      compute 1 none ⟨512, 446, 1024, 1700⟩ = .ok smaller ∧
      smaller.payloadOffset ≤ layout.payloadOffset ∧ smaller.imageLen ≤ layout.imageLen ∧
      compute 600 (some 10) ⟨512, 446, 600, 1536⟩ = .ok lowest ∧ lowest = layout := by
  have h : compute 600 (some 10) ⟨512, 446, 1024, 1600⟩ =
      .ok ⟨512, 446, 154, 1024, some 10, 1536⟩ := by rfl
  have hlow : compute 600 (some 10) ⟨512, 446, 600, 1536⟩ =
      .ok ⟨512, 446, 154, 1024, some 10, 1536⟩ := by rfl
  obtain ⟨hsmaller, hsame⟩ := compute_monotone h
  obtain ⟨smaller, hcomputed, hoffset, hend⟩ := hsmaller 1 none ⟨512, 446, 1024, 1700⟩ (by decide)
    (by decide) (by decide) ⟨⟨rfl, rfl⟩, by decide, by decide⟩
  exact ⟨_, smaller, _, h, hcomputed, hoffset, hend, hlow, hsame _ _ ⟨rfl, rfl⟩ hlow⟩

end Layout

end BootImage
