import BootImage.Proofs.Layout.Regions
import Mathlib.Order.Bounds.Basic
/-!
# What a layout computation answers

`Layout.Verdict` says for all parameters and lengths which answer is due: the refusal of the first
check that fails, or else a layout. It speaks of sums and multiples that no word bounds.
`Layout.verdict_iff_compute_eq` says that `Layout.compute` answers just this, so neither an overflow
on the way nor the order of the checks is ever wrong.
-/

namespace BootImage

namespace Word

/-! ## Least multiples -/

/-- The multiples of a number that are not below another. -/
def multiplesFrom (align len : Nat) : Set Nat :=
  {n | align ∣ n ∧ len ≤ n}

theorem IsAlignUp.isLeast {align len n : Nat} (h : IsAlignUp align len n) :
    IsLeast (multiplesFrom align len) n := by
  refine ⟨⟨h.dvd, h.le⟩, ?_⟩
  rintro m ⟨hdvd, hle⟩
  obtain ⟨k, rfl⟩ := h.dvd
  obtain ⟨j, rfl⟩ := hdvd
  -- A smaller multiple would be smaller by a whole `align`, and so below `len`.
  by_contra hlt
  have hpos : 0 < align := by
    have hbelow := h.lt
    omega
  have hjk : j + 1 ≤ k := Nat.lt_of_mul_lt_mul_left (Nat.lt_of_not_le hlt)
  have hstep : align * (j + 1) ≤ align * k := Nat.mul_le_mul_left align hjk
  have hbelow := h.lt
  rw [Nat.mul_add] at hstep
  omega

theorem exists_isLeast_multiplesFrom {align : Nat} (hpos : 0 < align) (len : Nat) :
    ∃ n, IsLeast (multiplesFrom align len) n :=
  ⟨_, (isAlignUp_div_mul hpos len).isLeast⟩

/-- Rounding up finds the least multiple, unless it is too large for a word. -/
theorem alignUp_of_isLeast {align len n : Nat} (hpos : 0 < align)
    (h : IsLeast (multiplesFrom align len) n) :
    alignUp len align = .ok (if n < wordLimit then some n else none) := by
  have hn : (len + align - 1) / align * align = n := (isAlignUp_div_mul hpos len).isLeast.unique h
  simp only [alignUp, Nat.ne_of_gt hpos, if_false, hn]

theorem isPowerOfTwo_iff {n : Nat} : isPowerOfTwo n = true ↔ n.isPowerOfTwo := by
  simp only [isPowerOfTwo, beq_iff_eq]
  constructor
  · intro h
    exact ⟨n.log2, h⟩
  · rintro ⟨k, rfl⟩
    rw [Nat.log2_two_pow]
    rfl

end Word

/-! ## Parameters -/

namespace Config

/-- An image can be built with the parameters, if it is small enough. -/
structure Sound (config : Config) : Prop where
  sectorSize : config.sectorSize.isPowerOfTwo
  bootSectorLen : config.bootSectorLen ≠ 0
  maxLoaderSize : config.bootSectorLen ≤ config.maxLoaderSize

/-- The first of the checks that the parameters do not pass. -/
inductive Flawed (config : Config) : ConfigFlaw → Prop
  | sectorSize (h : ¬ config.sectorSize.isPowerOfTwo) :
    Flawed config (.sectorSizeNotPowerOfTwo config.sectorSize)
  | bootSector (hsize : config.sectorSize.isPowerOfTwo) (h : config.bootSectorLen = 0) :
    Flawed config .emptyBootSector
  | loaderCeiling (hsize : config.sectorSize.isPowerOfTwo) (hboot : config.bootSectorLen ≠ 0)
    (h : config.maxLoaderSize < config.bootSectorLen) :
    Flawed config (.loaderCeilingBelowBootSector config.maxLoaderSize config.bootSectorLen)

theorem sound_or_flawed (config : Config) : config.Sound ∨ ∃ flaw, config.Flawed flaw := by
  by_cases hsize : config.sectorSize.isPowerOfTwo
  · by_cases hboot : config.bootSectorLen = 0
    · exact .inr ⟨_, .bootSector hsize hboot⟩
    · by_cases hceiling : config.maxLoaderSize < config.bootSectorLen
      · exact .inr ⟨_, .loaderCeiling hsize hboot hceiling⟩
      · exact .inl ⟨hsize, hboot, Nat.le_of_not_lt hceiling⟩
  · exact .inr ⟨_, .sectorSize hsize⟩

theorem Sound.validate {config : Config} (h : config.Sound) : config.validate = .ok () :=
  validate_eq_ok_iff.2 (flaw?_eq_none_iff.2
    ⟨Word.isPowerOfTwo_iff.2 h.sectorSize, h.bootSectorLen, h.maxLoaderSize⟩)

theorem Sound.sectorSize_pos {config : Config} (h : config.Sound) : 0 < config.sectorSize :=
  Word.pos_of_isPowerOfTwo (Word.isPowerOfTwo_iff.2 h.sectorSize)

theorem Flawed.validate {config : Config} {flaw : ConfigFlaw} (h : config.Flawed flaw) :
    config.validate = .error (.invalidConfig flaw.reason) := by
  have hflaw : config.flaw? = some flaw := by
    cases h with
    | sectorSize h => simp [flaw?, mt Word.isPowerOfTwo_iff.1 h]
    | bootSector hsize h => simp [flaw?, Word.isPowerOfTwo_iff.2 hsize, h]
    | loaderCeiling hsize hboot h => simp [flaw?, Word.isPowerOfTwo_iff.2 hsize, hboot, h]
  rw [Config.validate, hflaw]

end Config

namespace Layout

/-! ## The verdict -/

/-- Where an image ends whose payload starts at `payloadOffset`: there, if it has no kernel, and at
the first sector boundary behind the kernel otherwise. -/
def EndsAt (config : Config) (payloadOffset : Nat) : Option Nat → Nat → Prop
  | none, imageLen => imageLen = payloadOffset
  | some len, imageLen =>
    IsLeast (Word.multiplesFrom config.sectorSize (payloadOffset + len)) imageLen

/-- The parameters and the loader pass their checks, and these are the places where payload and
image end up, however large they are. -/
structure Ends (bootLen : Nat) (kernelLen : Option Nat) (config : Config)
    (payloadOffset imageLen : Nat) : Prop where
  sound : config.Sound
  bootLen_ne : bootLen ≠ 0
  bootLen_le : bootLen ≤ config.maxLoaderSize
  offset_least :
    IsLeast (Word.multiplesFrom config.sectorSize (max bootLen config.bootSectorLen)) payloadOffset
  endsAt : EndsAt config payloadOffset kernelLen imageLen

/-- The answer that is due for a loader of `bootLen` bytes and a kernel of `kernelLen` bytes. -/
inductive Verdict (bootLen : Nat) (kernelLen : Option Nat) (config : Config) :
    Except (Failure AssemblyError) Layout → Prop
  | invalidConfig {flaw} (h : config.Flawed flaw) :
    Verdict bootLen kernelLen config (.error (.error (.invalidConfig flaw.reason)))
  | emptyLoader (sound : config.Sound) (h : bootLen = 0) :
    Verdict bootLen kernelLen config (.error (.error .emptyLoader))
  | oversizedLoader (sound : config.Sound) (hne : bootLen ≠ 0) (h : config.maxLoaderSize < bootLen) :
    Verdict bootLen kernelLen config
      (.error (.error (.oversizedLoader bootLen config.maxLoaderSize)))
  /-- A size that no word can tell is told as the largest word. -/
  | oversizedImage {payloadOffset imageLen}
    (ends : Ends bootLen kernelLen config payloadOffset imageLen)
    (h : config.maxImageSize < imageLen ∨ wordLimit ≤ imageLen) :
    Verdict bootLen kernelLen config
      (.error (.error (.oversizedImage (if imageLen < wordLimit then imageLen else wordLimit - 1)
        config.maxImageSize)))
  | accepted {payloadOffset imageLen} (ends : Ends bootLen kernelLen config payloadOffset imageLen)
    (hmax : imageLen ≤ config.maxImageSize) (hword : imageLen < wordLimit) :
    Verdict bootLen kernelLen config (.ok {
      sectorSize := config.sectorSize
      bootSectorLen := config.bootSectorLen
      extensionLen := max bootLen config.bootSectorLen - config.bootSectorLen
      payloadOffset
      payloadLen := kernelLen
      imageLen
    })

variable {bootLen : Nat} {kernelLen : Option Nat} {config : Config} {payloadOffset imageLen : Nat}

theorem exists_verdict (bootLen : Nat) (kernelLen : Option Nat) (config : Config) :
    ∃ answer, Verdict bootLen kernelLen config answer := by
  rcases config.sound_or_flawed with hsound | ⟨flaw, hflaw⟩
  · by_cases hempty : bootLen = 0
    · exact ⟨_, .emptyLoader hsound hempty⟩
    by_cases hlong : config.maxLoaderSize < bootLen
    · exact ⟨_, .oversizedLoader hsound hempty hlong⟩
    obtain ⟨payloadOffset, hoffset⟩ := Word.exists_isLeast_multiplesFrom hsound.sectorSize_pos
      (max bootLen config.bootSectorLen)
    have hend : ∃ imageLen, EndsAt config payloadOffset kernelLen imageLen := by
      cases kernelLen with
      | none => exact ⟨payloadOffset, rfl⟩
      | some len => exact Word.exists_isLeast_multiplesFrom hsound.sectorSize_pos _
    obtain ⟨imageLen, hend⟩ := hend
    have hends : Ends bootLen kernelLen config payloadOffset imageLen :=
      ⟨hsound, hempty, Nat.le_of_not_lt hlong, hoffset, hend⟩
    by_cases hbig : config.maxImageSize < imageLen ∨ wordLimit ≤ imageLen
    · exact ⟨_, .oversizedImage hends hbig⟩
    · rw [not_or, Nat.not_lt, Nat.not_le] at hbig
      exact ⟨_, .accepted hends hbig.1 hbig.2⟩
  · exact ⟨_, .invalidConfig hflaw⟩

/-! ## The computation gives it -/

theorem boundary_of_isLeast {offset n : Nat} (hpos : 0 < config.sectorSize)
    (h : IsLeast (Word.multiplesFrom config.sectorSize offset) n) :
    boundary offset config = if n < wordLimit then .ok n else .error (beyondWords config) := by
  rw [boundary, Config.align, Word.alignUp_of_isLeast hpos h]
  by_cases hn : n < wordLimit
  · simp only [hn, if_true]
  · simp only [hn, if_false]

theorem EndsAt.le (h : EndsAt config payloadOffset kernelLen imageLen) : payloadOffset ≤ imageLen := by
  cases kernelLen with
  | none => exact Nat.le_of_eq (Eq.symm h)
  | some len => exact Nat.le_trans (Nat.le_add_right _ _) h.1.2

theorem imageEnd_of_endsAt (hpos : 0 < config.sectorSize) (hoffset : payloadOffset < wordLimit)
    (h : EndsAt config payloadOffset kernelLen imageLen) :
    imageEnd payloadOffset kernelLen config =
      if imageLen < wordLimit then .ok imageLen else .error (beyondWords config) := by
  cases kernelLen with
  | none =>
    cases h
    rw [imageEnd, if_pos hoffset]
  | some len =>
    have hle : payloadOffset + len ≤ imageLen := h.1.2
    by_cases hsum : payloadOffset + len < wordLimit
    · simp only [imageEnd, Word.add?, hsum, if_true]
      exact boundary_of_isLeast hpos h
    · -- The sum is too large for a word already, and so is what it is rounded up to.
      simp only [imageEnd, Word.add?, hsum, if_false]
      rw [if_neg (by omega)]

theorem compute_of_loader_refused {cause : AssemblyError} (hvalid : config.validate = .ok ())
    (hloader : checkLoader bootLen config = .error cause) :
    compute bootLen kernelLen config = .error (.error cause) := by
  simp only [compute, hvalid, hloader]
  rfl

/-- With sound parameters and a loader that may be, the sizes alone decide. -/
theorem Ends.compute_eq (h : Ends bootLen kernelLen config payloadOffset imageLen)
    (hboot : bootLen < wordLimit) (hsector : config.bootSectorLen < wordLimit) :
    compute bootLen kernelLen config =
      if imageLen < wordLimit then
        (checkImage imageLen config).mapError .error |>.map fun _ => {
          sectorSize := config.sectorSize
          bootSectorLen := config.bootSectorLen
          extensionLen := bootLen - config.bootSectorLen
          payloadOffset
          payloadLen := kernelLen
          imageLen
        }
      else .error (beyondWords config) := by
  have hpos := h.sound.sectorSize_pos
  have hloader : checkLoader bootLen config = .ok () :=
    checkLoader_eq_ok_iff.2 ⟨h.bootLen_ne, h.bootLen_le⟩
  have hsum : config.bootSectorLen + (bootLen - config.bootSectorLen) =
      max bootLen config.bootSectorLen := by omega
  have hadd : Word.add config.bootSectorLen (bootLen - config.bootSectorLen) =
      .ok (max bootLen config.bootSectorLen) :=
    Word.add_eq_ok_iff.2 ⟨hsum.symm, by omega⟩
  have hle := h.endsAt.le
  simp only [compute, h.sound.validate, hloader, hadd, bind, Except.bind, liftM, monadLift,
    MonadLift.monadLift, Except.mapError, boundary_of_isLeast hpos h.offset_least]
  by_cases hoffset : payloadOffset < wordLimit
  · simp only [hoffset, if_true, imageEnd_of_endsAt hpos hoffset h.endsAt]
    by_cases hword : imageLen < wordLimit
    · simp only [hword, if_true]
      cases checkImage imageLen config <;> rfl
    · simp only [hword, if_false]
  · simp only [hoffset, if_false]
    rw [if_neg (by omega)]

/-- A loader has to be a word only if its ceiling lets it pass. -/
theorem Verdict.compute_eq_of_le {answer : Except (Failure AssemblyError) Layout}
    (h : Verdict bootLen kernelLen config answer)
    (hboot : bootLen ≤ config.maxLoaderSize → bootLen < wordLimit)
    (hsector : config.bootSectorLen < wordLimit) : compute bootLen kernelLen config = answer := by
  cases h with
  | invalidConfig h =>
    simp only [compute, h.validate]
    rfl
  | emptyLoader sound h =>
    apply compute_of_loader_refused sound.validate
    simp [checkLoader, h]
  | oversizedLoader sound hne h =>
    apply compute_of_loader_refused sound.validate
    simp [checkLoader, hne, h]
  | @oversizedImage payloadOffset imageLen ends h =>
    rw [ends.compute_eq (hboot ends.bootLen_le) hsector]
    by_cases hword : imageLen < wordLimit
    · have hmax : config.maxImageSize < imageLen := h.resolve_right (Nat.not_le.2 hword)
      simp only [hword, if_true, checkImage, hmax]
      rfl
    · simp only [hword, if_false, beyondWords]
  | accepted ends hmax hword =>
    have hextension : max bootLen config.bootSectorLen - config.bootSectorLen =
        bootLen - config.bootSectorLen := by omega
    rw [ends.compute_eq (hboot ends.bootLen_le) hsector, if_pos hword,
      checkImage_eq_ok_iff.2 hmax, hextension]
    rfl

theorem Verdict.compute_eq {answer : Except (Failure AssemblyError) Layout}
    (h : Verdict bootLen kernelLen config answer) (hboot : bootLen < wordLimit)
    (hsector : config.bootSectorLen < wordLimit) : compute bootLen kernelLen config = answer :=
  h.compute_eq_of_le (fun _ => hboot) hsector

/-- The layout that is computed, or the error, is the one that is due: the first flaw of the
parameters, or else a loader that is empty or too long, or else an image whose end, at the least
multiples of the sector size, is above its ceiling or beyond all words, or else the layout with these
multiples. There is no other answer; in particular no sum and no product overflows. -/
theorem verdict_iff_compute_eq (hboot : bootLen < wordLimit)
    (hsector : config.bootSectorLen < wordLimit) (answer : Except (Failure AssemblyError) Layout) :
    compute bootLen kernelLen config = answer ↔ Verdict bootLen kernelLen config answer := by
  constructor
  · rintro rfl
    obtain ⟨due, hdue⟩ := exists_verdict bootLen kernelLen config
    rwa [hdue.compute_eq hboot hsector]
  · intro h
    exact h.compute_eq hboot hsector

/-- A kernel that ends one byte below the last word, so that the image would end right behind it:
its size cannot be told, and the largest word is told instead. -/
theorem verdict_iff_compute_eq_at_word_limit :
    512 < wordLimit ∧
      Verdict 512 (some (wordLimit - 513)) ⟨512, 512, wordLimit - 1, wordLimit - 1⟩
        (.error (.error (.oversizedImage (wordLimit - 1) (wordLimit - 1)))) := by
  have hword : 512 < wordLimit := by decide
  exact ⟨hword, (verdict_iff_compute_eq hword hword _).1 (by decide)⟩

end Layout

end BootImage
