import BootImage.Layout
/-!
# Where a layout puts the regions

`Layout.Placed` says what a layout is for given lengths and parameters: the payload starts at the
first sector boundary behind the loader, the image ends at the first one behind the payload, and
both are within their ceilings. `Layout.compute` answers with nothing else.
-/

namespace BootImage

/-! ## Computations that can fail -/

/-- A computation in two parts succeeds if both parts do. -/
theorem bind_eq_ok {ε α β : Type} {x : Except ε α} {f : α → Except ε β} {b : β}
    (h : (x >>= f) = .ok b) : ∃ a, x = .ok a ∧ f a = .ok b := by
  cases x with
  | error e => cases h
  | ok a => exact ⟨a, rfl, h⟩

theorem ok_of_liftM_fault {ε α : Type} {x : Except Fault α} {a : α}
    (h : (liftM x : Except (Failure ε) α) = .ok a) : x = .ok a := by
  cases x with
  | error e => cases h
  | ok b => exact congrArg Except.ok (Except.ok.inj h)

theorem ok_of_liftM_error {ε α : Type} {x : Except ε α} {a : α}
    (h : (liftM x : Except (Failure ε) α) = .ok a) : x = .ok a := by
  cases x with
  | error e => cases h
  | ok b => exact congrArg Except.ok (Except.ok.inj h)

namespace Word

/-! ## Multiples -/

/-- The first multiple of `align` that is not below `len`. -/
structure IsAlignUp (align len n : Nat) : Prop where
  dvd : align ∣ n
  le : len ≤ n
  lt : n < len + align

theorem isAlignUp_self {align n : Nat} (hpos : 0 < align) (h : align ∣ n) : IsAlignUp align n n :=
  ⟨h, Nat.le_refl n, Nat.lt_add_of_pos_right hpos⟩

theorem isAlignUp_div_mul {align : Nat} (hpos : 0 < align) (len : Nat) :
    IsAlignUp align len ((len + align - 1) / align * align) := by
  have hmod := Nat.mod_lt (len + align - 1) hpos
  have hdiv := Nat.div_add_mod (len + align - 1) align
  rw [Nat.mul_comm] at hdiv
  exact ⟨Nat.dvd_mul_left _ _, by omega, by omega⟩

theorem isAlignUp_of_alignUp {len align n : Nat} (h : alignUp len align = .ok (some n)) :
    IsAlignUp align len n ∧ n < wordLimit := by
  unfold alignUp at h
  split at h
  · cases h
  · rename_i hne
    have hup := isAlignUp_div_mul (Nat.pos_of_ne_zero hne) len
    simp only [Except.ok.injEq] at h
    split at h
    · rename_i hlt
      cases h
      exact ⟨hup, hlt⟩
    · cases h

theorem add_eq_ok_iff {a b n : Nat} : add a b = .ok n ↔ n = a + b ∧ a + b < wordLimit := by
  unfold add
  by_cases h : a + b < wordLimit
  · simp [h, eq_comm]
  · simp [h]

theorem pos_of_isPowerOfTwo {n : Nat} (h : isPowerOfTwo n = true) : 0 < n := by
  simp only [isPowerOfTwo, beq_iff_eq] at h
  rw [h]
  exact Nat.two_pow_pos _

end Word

/-! ## Parameters -/

/-- All parameters fit words. -/
structure Config.Words (config : Config) : Prop where
  sectorSize : config.sectorSize < wordLimit
  bootSectorLen : config.bootSectorLen < wordLimit
  maxLoaderSize : config.maxLoaderSize < wordLimit
  maxImageSize : config.maxImageSize < wordLimit

theorem Config.flaw?_eq_none_iff {config : Config} :
    config.flaw? = none ↔ Word.isPowerOfTwo config.sectorSize = true ∧ config.bootSectorLen ≠ 0 ∧
      config.bootSectorLen ≤ config.maxLoaderSize := by
  unfold flaw?
  cases Word.isPowerOfTwo config.sectorSize with
  | false => simp
  | true =>
    by_cases hboot : config.bootSectorLen = 0
    · simp [hboot]
    · by_cases hceiling : config.maxLoaderSize < config.bootSectorLen
      · simp [hboot, hceiling, Nat.not_le.2 hceiling]
      · simp [hboot, hceiling, Nat.le_of_not_lt hceiling]

theorem Config.validate_eq_ok_iff {config : Config} :
    config.validate = .ok () ↔ config.flaw? = none := by
  unfold validate
  cases config.flaw? with
  | none => simp
  | some flaw => simp

namespace Layout

/-! ## Layouts that fit -/

/-- What the layout of a loader of `bootLen` bytes and a kernel of `kernelLen` bytes has to be. -/
structure Placed (bootLen : Nat) (kernelLen : Option Nat) (config : Config) (layout : Layout) :
    Prop where
  sectorSize_eq : layout.sectorSize = config.sectorSize
  bootSectorLen_eq : layout.bootSectorLen = config.bootSectorLen
  extensionLen_eq : layout.extensionLen = bootLen - config.bootSectorLen
  payloadLen_eq : layout.payloadLen = kernelLen
  isPowerOfTwo : Word.isPowerOfTwo config.sectorSize = true
  bootSectorLen_ne : config.bootSectorLen ≠ 0
  bootSectorLen_le : config.bootSectorLen ≤ config.maxLoaderSize
  bootLen_ne : bootLen ≠ 0
  bootLen_le : bootLen ≤ config.maxLoaderSize
  payloadOffset_eq :
    Word.IsAlignUp config.sectorSize (max bootLen config.bootSectorLen) layout.payloadOffset
  imageLen_eq :
    Word.IsAlignUp config.sectorSize (layout.payloadOffset + kernelLen.getD 0) layout.imageLen
  imageLen_lt : layout.imageLen < wordLimit
  imageLen_le : layout.imageLen ≤ config.maxImageSize

theorem checkLoader_eq_ok_iff {bootLen : Nat} {config : Config} :
    checkLoader bootLen config = .ok () ↔ bootLen ≠ 0 ∧ bootLen ≤ config.maxLoaderSize := by
  unfold checkLoader
  by_cases hempty : bootLen = 0
  · simp [hempty]
  · by_cases hlong : config.maxLoaderSize < bootLen
    · simp [hempty, hlong, Nat.not_le.2 hlong]
    · simp [hempty, hlong, Nat.le_of_not_lt hlong]

theorem checkImage_eq_ok_iff {imageLen : Nat} {config : Config} :
    checkImage imageLen config = .ok () ↔ imageLen ≤ config.maxImageSize := by
  unfold checkImage
  by_cases hlong : config.maxImageSize < imageLen
  · simp [hlong, Nat.not_le.2 hlong]
  · simp [hlong, Nat.le_of_not_lt hlong]

theorem isAlignUp_of_boundary {offset n : Nat} {config : Config}
    (h : boundary offset config = .ok n) :
    Word.IsAlignUp config.sectorSize offset n ∧ n < wordLimit := by
  unfold boundary at h
  split at h
  · cases h
  · rename_i aligned ha
    cases h
    exact Word.isAlignUp_of_alignUp ha
  · cases h

theorem isAlignUp_of_imageEnd {payloadOffset n : Nat} {kernelLen : Option Nat} {config : Config}
    (hpos : 0 < config.sectorSize) (hdvd : config.sectorSize ∣ payloadOffset)
    (hlt : payloadOffset < wordLimit) (h : imageEnd payloadOffset kernelLen config = .ok n) :
    Word.IsAlignUp config.sectorSize (payloadOffset + kernelLen.getD 0) n ∧ n < wordLimit := by
  unfold imageEnd Word.add? at h
  cases kernelLen with
  | none =>
    cases h
    exact ⟨Word.isAlignUp_self hpos hdvd, hlt⟩
  | some len =>
    by_cases hsum : payloadOffset + len < wordLimit
    · simp only [hsum, if_true] at h
      exact isAlignUp_of_boundary h
    · simp [hsum] at h

theorem placed_of_compute {bootLen : Nat} {kernelLen : Option Nat} {config : Config}
    {layout : Layout} (h : compute bootLen kernelLen config = .ok layout) :
    Placed bootLen kernelLen config layout := by
  unfold compute at h
  obtain ⟨⟨⟩, hvalid, h⟩ := bind_eq_ok h
  obtain ⟨⟨⟩, hloader, h⟩ := bind_eq_ok h
  obtain ⟨loaderEnd, hadd, h⟩ := bind_eq_ok h
  obtain ⟨payloadOffset, hoffset, h⟩ := bind_eq_ok h
  obtain ⟨imageLen, hend, h⟩ := bind_eq_ok h
  obtain ⟨⟨⟩, himage, h⟩ := bind_eq_ok h
  cases h
  obtain ⟨hpower, hboot, hceiling⟩ :=
    Config.flaw?_eq_none_iff.1 (Config.validate_eq_ok_iff.1 (ok_of_liftM_error hvalid))
  obtain ⟨hne, hle⟩ := checkLoader_eq_ok_iff.1 (ok_of_liftM_error hloader)
  obtain ⟨hsum, -⟩ := Word.add_eq_ok_iff.1 (ok_of_liftM_fault hadd)
  have hloaderEnd : loaderEnd = max bootLen config.bootSectorLen := by omega
  subst hloaderEnd
  obtain ⟨hup, hlt⟩ := isAlignUp_of_boundary hoffset
  obtain ⟨hup', hlt'⟩ :=
    isAlignUp_of_imageEnd (Word.pos_of_isPowerOfTwo hpower) hup.dvd hlt hend
  exact {
    sectorSize_eq := rfl
    bootSectorLen_eq := rfl
    extensionLen_eq := rfl
    payloadLen_eq := rfl
    isPowerOfTwo := hpower
    bootSectorLen_ne := hboot
    bootSectorLen_le := hceiling
    bootLen_ne := hne
    bootLen_le := hle
    payloadOffset_eq := hup
    imageLen_eq := hup'
    imageLen_lt := hlt'
    imageLen_le := checkImage_eq_ok_iff.1 (ok_of_liftM_error himage)
  }

end Layout

end BootImage
