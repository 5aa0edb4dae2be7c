import BootImage.Proofs.Build.Decision
import BootImage.Proofs.Layout.Verdict
/-!
# What is told of a size above its ceiling

An assembly that is refused for a size tells the size and the ceiling, and says that the one exceeds the
other. `Build.oversize_exceeds_iff` says when this is true. A size that no word can hold is told as the
largest word, which is above every ceiling but one: where the ceiling is the largest word itself, the
two numbers are the same (`Layout.Untold`). In every other case the size that is told is above the
ceiling that is told, and this is the ceiling that was set.
-/

namespace BootImage

namespace AssemblyError

/-- A size that an error tells is above the ceiling that it tells. -/
def Exceeds : AssemblyError → Prop
  | .oversizedLoader size max => max < size
  | .oversizedImage size max => max < size
  | .emptyLoader => True
  | .invalidConfig _ => True

/-- A ceiling that an error tells is the one that was set, for the loader or for the image. -/
def TellsCeiling (config : Config) : AssemblyError → Prop
  | .oversizedLoader _ max => max = config.maxLoaderSize
  | .oversizedImage _ max => max = config.maxImageSize
  | .emptyLoader => True
  | .invalidConfig _ => True

end AssemblyError

namespace Layout

/-- The image would end beyond all words, and no word is above its ceiling. -/
structure Untold (bootLen : Nat) (kernelLen : Option Nat) (config : Config) : Prop where
  maxImageSize_eq : config.maxImageSize = wordLimit - 1
  beyond : ∃ payloadOffset imageLen, Ends bootLen kernelLen config payloadOffset imageLen ∧
    wordLimit ≤ imageLen

/-- An error tells its ceiling, and a size above it wherever a word is above it. -/
structure Told (bootLen : Nat) (kernelLen : Option Nat) (config : Config) (cause : AssemblyError) :
    Prop where
  ceiling : cause.TellsCeiling config
  exceeds_iff : cause.Exceeds ↔ ¬ Untold bootLen kernelLen config

variable {bootLen : Nat} {kernelLen : Option Nat} {config : Config} {cause : AssemblyError}
variable {answer : Except (Failure AssemblyError) Layout}

/-- The verdict is given if the parameters are words, for a loader of any length. -/
theorem Verdict.compute_eq_of_words (h : Verdict bootLen kernelLen config answer)
    (hconfig : config.Words) : compute bootLen kernelLen config = answer :=
  h.compute_eq_of_le (fun hle => Nat.lt_of_le_of_lt hle hconfig.maxLoaderSize) hconfig.bootSectorLen

/-- What cannot be told is refused all the same, with the largest word in both places. -/
theorem Untold.compute_eq (h : Untold bootLen kernelLen config) (hconfig : config.Words) :
    compute bootLen kernelLen config =
      .error (.error (.oversizedImage (wordLimit - 1) (wordLimit - 1))) := by
  obtain ⟨payloadOffset, imageLen, hends, hbeyond⟩ := h.beyond
  rw [(Verdict.oversizedImage hends (.inr hbeyond)).compute_eq_of_words hconfig,
    if_neg (Nat.not_lt.2 hbeyond), h.maxImageSize_eq]

theorem Verdict.tellsCeiling (h : Verdict bootLen kernelLen config (.error (.error cause))) :
    cause.TellsCeiling config := by
  cases h with
  | invalidConfig _ => trivial
  | emptyLoader _ _ => trivial
  | oversizedLoader _ _ _ => exact rfl
  | oversizedImage _ _ => exact rfl

/-- The stand-in for a size beyond all words is above every ceiling that is not itself the largest
word. -/
theorem Verdict.exceeds (h : Verdict bootLen kernelLen config (.error (.error cause)))
    (hmax : config.maxImageSize < wordLimit) (htold : ¬ Untold bootLen kernelLen config) :
    cause.Exceeds := by
  cases h with
  | invalidConfig _ => trivial
  | emptyLoader _ _ => trivial
  | oversizedLoader _ _ hlong => exact hlong
  | @oversizedImage payloadOffset imageLen hends hbig =>
    change config.maxImageSize < if imageLen < wordLimit then imageLen else wordLimit - 1
    by_cases hword : imageLen < wordLimit
    · rw [if_pos hword]
      exact hbig.resolve_right (Nat.not_le.2 hword)
    · rw [if_neg hword]
      have hne : config.maxImageSize ≠ wordLimit - 1 := fun heq =>
        htold ⟨heq, payloadOffset, imageLen, hends, Nat.le_of_not_lt hword⟩
      exact Nat.lt_of_le_of_ne (Nat.le_sub_one_of_lt hmax) hne

theorem told_of_compute (hconfig : config.Words)
    (h : compute bootLen kernelLen config = .error (.error cause)) :
    Told bootLen kernelLen config cause := by
  obtain ⟨answer, hverdict⟩ := exists_verdict bootLen kernelLen config
  have hanswer : answer = .error (.error cause) := (hverdict.compute_eq_of_words hconfig).symm.trans h
  rw [hanswer] at hverdict
  refine ⟨hverdict.tellsCeiling, fun hexceeds huntold => ?_, hverdict.exceeds hconfig.maxImageSize⟩
  rw [huntold.compute_eq hconfig] at h
  cases h
  exact Nat.lt_irrefl _ hexceeds

end Layout

namespace Build

/-- Whoever is told of an exceeded ceiling, by the layout, by the assembly or by a build, is told the
ceiling that was set. The size is above it unless the image would end beyond all words and the ceiling is
the largest word; then the image is refused as well, and the size that is told is the ceiling. -/
theorem oversize_exceeds_iff {config : Config} (hconfig : config.Words) :
    (∀ bootLen kernelLen cause, Layout.compute bootLen kernelLen config = .error (.error cause) →
      Layout.Told bootLen kernelLen config cause) ∧
    (∀ boot kernel cause, Image.assemble boot kernel config = .error (.error cause) →
      Layout.Told boot.length (kernel.map List.length) config cause) ∧
    (∀ options tag before attempt cause, options.config = config →
      (run options tag before).result = .error (.error ⟨attempt, .assembly cause⟩) →
        ∃ boot kernel, Inputs options before boot kernel ∧
          Layout.Told boot.length (kernel.map List.length) config cause) ∧
    ∀ bootLen kernelLen, Layout.Untold bootLen kernelLen config →
      Layout.compute bootLen kernelLen config =
        .error (.error (.oversizedImage (wordLimit - 1) (wordLimit - 1))) := by
  refine ⟨fun _ _ _ => Layout.told_of_compute hconfig, ?_, ?_, fun _ _ h => h.compute_eq hconfig⟩
  · intro boot kernel cause hrefused
    exact Layout.told_of_compute hconfig (Image.compute_of_refused hrefused)
  · rintro options tag before attempt cause rfl hfailed
    obtain ⟨boot, kernel, hinputs, hrefused⟩ := assembly_iff.1 ⟨attempt, hfailed⟩
    exact ⟨boot, kernel, hinputs,
      Layout.told_of_compute hconfig (Image.compute_of_refused hrefused)⟩

/-- The greatest ceiling with a word above it, and an image that ends beyond all words. -/
theorem oversize_exceeds_iff_below_last_word :
    ∃ config, config.Words ∧
      Layout.compute 512 (some (wordLimit - 1)) config =
        .error (.error (.oversizedImage (wordLimit - 1) (wordLimit - 2))) ∧
      AssemblyError.Exceeds (.oversizedImage (wordLimit - 1) (wordLimit - 2)) := by
  let config : Config := ⟨512, 512, wordLimit - 1, wordLimit - 2⟩
  have hconfig : config.Words := by
    constructor <;> decide
  have hrefused : Layout.compute 512 (some (wordLimit - 1)) config =
      .error (.error (.oversizedImage (wordLimit - 1) (wordLimit - 2))) := by
    decide
  have htold := (oversize_exceeds_iff hconfig).1 _ _ _ hrefused
  refine ⟨config, hconfig, hrefused, htold.exceeds_iff.2 fun huntold => ?_⟩
  exact absurd huntold.maxImageSize_eq (by decide)

/-- The largest word as a ceiling: a command line asks for it, and the message that an image of this size
exceeds it is false. -/
theorem oversize_told_as_ceiling :
    ∃ arguments options before cause, CommandLine.parse arguments = .ok (.build options) ∧
      (run options (.ofRandom 0) before).result =
        .error (.error ⟨"cannot assemble `out.bin`", .assembly cause⟩) ∧
      Layout.compute 1 (some 1) options.config = .error (.error cause) ∧
      cause.message = "Image would be 18446744073709551615 bytes, exceeding the maximum image size " ++
        "of 18446744073709551615 bytes" ∧
      ¬ cause.Exceeds := by
  let arguments := ["--quiet", "-b", "boot.bin", "-k", "kernel.bin", "-o", "out.bin",
    "--sector-size", "9223372036854775808", "--max-image-size", "18446744073709551615"]
  let options : Options := ⟨.ofString "boot.bin", some (.ofString "kernel.bin"), .ofString "out.bin",
    none, false, true, ⟨Nat.pow 2 63, 512, 32768, wordLimit - 1⟩⟩
  let before := ((FileSystem.empty []).addFile ["boot.bin".toList] (.ofList [0xaa])).addFile
    ["kernel.bin".toList] (.ofList [0xbb])
  exact ⟨arguments, options, before, .oversizedImage (wordLimit - 1) (wordLimit - 1), by rfl,
    by decide +kernel, by decide, by decide, Nat.lt_irrefl _⟩

end Build

end BootImage
