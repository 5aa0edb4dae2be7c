import BootImage.Proofs.Layout.Verdict
import BootImage.Proofs.Text.Numerals
/-!
# The text of an error tells the error

Two errors of the assembly that read the same are the same (`AssemblyError.message_eq_iff`), whatever
their sizes and reasons, and two flaws of a configuration that read the same are the same
(`ConfigFlaw.reason_eq_iff`). Most are told apart by the first letters. Where a number and a word stand
behind the same letters, the word does not begin with a digit.

The reason of a refused configuration may be any text as far as the type goes. An assembly gives only the
flaws as reasons, and then the whole text is `Inline`: it fits on a line, and no quoted path ends in it.
-/

namespace BootImage

namespace Text

variable {letters letters' : List Char} {text text' more : String}

/-! ## How a text begins -/

def Begins (letters : List Char) (text : String) : Prop :=
  letters <+: text.toList

instance (letters : List Char) (text : String) : Decidable (Begins letters text) :=
  inferInstanceAs (Decidable (_ <+: _))

theorem Begins.append (h : Begins letters text) (more : String) : Begins letters (text ++ more) := by
  unfold Begins at h ⊢
  rw [String.toList_append]
  exact h.trans (List.prefix_append _ _)

/-- Of each length, a text has one beginning. -/
theorem Begins.unique (h : Begins letters text) (h' : Begins letters' text') (htext : text = text')
    (hlength : letters.length = letters'.length) : letters = letters' := by
  subst htext
  exact (List.prefix_of_prefix_length_le h h' (Nat.le_of_eq hlength)).eq_of_length hlength

/-! ## Text within a line -/

/-- The text has no line break and no quote of a path in it. -/
def Inline (text : String) : Prop :=
  '\n' ∉ text.toList ∧ '\x60' ∉ text.toList

instance (text : String) : Decidable (Inline text) :=
  inferInstanceAs (Decidable (_ ∧ _))

theorem inline_append : Inline (text ++ more) ↔ Inline text ∧ Inline more := by
  simp only [Inline, String.toList_append, List.mem_append, not_or]
  exact and_and_and_comm

theorem inline_toString (n : Nat) : Inline (toString n) :=
  ⟨not_mem_toString (by decide) n, not_mem_toString (by decide) n⟩

end Text

open Text

/-! ## Flaws of a configuration -/

namespace ConfigFlaw

variable {flaw other : ConfigFlaw}

/-- The first letter of a flaw in words, which tells the kinds apart. -/
def opening : ConfigFlaw → List Char
  | .sectorSizeNotPowerOfTwo _ => ['s']
  | .emptyBootSector => ['b']
  | .loaderCeilingBelowBootSector _ _ => ['m']

theorem length_opening (flaw : ConfigFlaw) : flaw.opening.length = 1 := by
  cases flaw <;> rfl

theorem reason_begins (flaw : ConfigFlaw) : Begins flaw.opening flaw.reason := by
  cases flaw with
  | sectorSizeNotPowerOfTwo sectorSize =>
    exact ((by decide : Begins ['s'] "sector size ").append _).append _
  | emptyBootSector => exact (by decide : Begins ['b'] "boot sector length must be non-zero")
  | loaderCeilingBelowBootSector maxLoaderSize bootSectorLen =>
    exact ((((by decide : Begins ['m'] "max loader size ").append _).append _).append _).append _

/-- The reason tells what is wrong, and the parameters that it speaks of. -/
theorem reason_eq_iff : flaw.reason = other.reason ↔ flaw = other := by
  refine ⟨fun h => ?_, congrArg reason⟩
  have hopening := flaw.reason_begins.unique other.reason_begins h
    (flaw.length_opening.trans other.length_opening.symm)
  cases flaw <;> cases other <;>
    simp only [opening, List.cons.injEq, Char.reduceEq, and_true] at hopening
  case sectorSizeNotPowerOfTwo.sectorSizeNotPowerOfTwo sectorSize sectorSize' =>
    unfold reason at h
    simp (disch := decide) only [String.append_assoc, String.append_right_inj, toString_append_inj,
      and_true] at h
    rw [h]
  case emptyBootSector.emptyBootSector => rfl
  case loaderCeilingBelowBootSector.loaderCeilingBelowBootSector =>
    obtain ⟨rfl, rfl⟩ := (two_toString_inj (by decide) (by decide)).1 h
    rfl

theorem inline_reason (flaw : ConfigFlaw) : Inline flaw.reason := by
  cases flaw with
  | sectorSizeNotPowerOfTwo sectorSize =>
    unfold reason
    simp only [inline_append, inline_toString, and_true]
    decide
  | emptyBootSector => exact (by decide : Inline "boot sector length must be non-zero")
  | loaderCeilingBelowBootSector maxLoaderSize bootSectorLen =>
    unfold reason
    simp only [inline_append, inline_toString, and_true]
    decide

end ConfigFlaw

/-! ## Errors of the assembly -/

namespace AssemblyError

variable {error other : AssemblyError}

/-- The first letters of the text. They are the same for the two errors about the loader only. -/
def opening : AssemblyError → List Char
  | .emptyLoader => ['B', 'o']
  | .oversizedLoader _ _ => ['B', 'o']
  | .oversizedImage _ _ => ['I', 'm']
  | .invalidConfig _ => ['I', 'n']

theorem length_opening (error : AssemblyError) : error.opening.length = 2 := by
  cases error <;> rfl

theorem message_begins (error : AssemblyError) : Begins error.opening error.message := by
  cases error with
  | emptyLoader =>
    exact (by decide : Begins ['B', 'o'] "Bootloader is empty: an image needs boot sector content")
  | oversizedLoader size max =>
    exact ((((by decide : Begins ['B', 'o'] "Bootloader is ").append _).append _).append _).append _
  | oversizedImage size max =>
    exact ((((by decide : Begins ['I', 'm'] "Image would be ").append _).append _).append _).append _
  | invalidConfig reason =>
    exact (by decide : Begins ['I', 'n'] "Invalid layout configuration: ").append _

/-- Behind the same words there is a number or the word that there is nothing. -/
theorem message_emptyLoader_ne (size max : Nat) :
    emptyLoader.message ≠ (oversizedLoader size max).message := by
  have hwords : "Bootloader is empty: an image needs boot sector content" =
      "Bootloader is " ++ "empty: an image needs boot sector content" := by decide
  unfold message
  simp only [hwords, String.append_assoc, ne_eq, String.append_right_inj]
  exact (toString_append_ne size _ (by decide)).symm

/-- The text tells what is wrong, and both sizes or the reason. -/
theorem message_eq_iff : error.message = other.message ↔ error = other := by
  refine ⟨fun h => ?_, congrArg message⟩
  have hopening := error.message_begins.unique other.message_begins h
    (error.length_opening.trans other.length_opening.symm)
  -- The letters leave the pairs of one kind, and the two errors about the loader.
  cases error <;> cases other <;>
    simp only [opening, List.cons.injEq, Char.reduceEq, and_true, and_false] at hopening
  case emptyLoader.emptyLoader => rfl
  case emptyLoader.oversizedLoader size max => exact absurd h (message_emptyLoader_ne size max)
  case oversizedLoader.emptyLoader size max => exact absurd h.symm (message_emptyLoader_ne size max)
  case oversizedLoader.oversizedLoader =>
    obtain ⟨rfl, rfl⟩ := (two_toString_inj (by decide) (by decide)).1 h
    rfl
  case oversizedImage.oversizedImage =>
    obtain ⟨rfl, rfl⟩ := (two_toString_inj (by decide) (by decide)).1 h
    rfl
  case invalidConfig.invalidConfig => rw [(String.append_right_inj _).1 h]

/-! ## Errors that an assembly gives -/

/-- A configuration is refused for one of its flaws. -/
def Explained : AssemblyError → Prop
  | .invalidConfig reason => ∃ flaw : ConfigFlaw, reason = flaw.reason
  | .emptyLoader => True
  | .oversizedLoader _ _ => True
  | .oversizedImage _ _ => True

theorem Explained.inline_message (h : error.Explained) : Inline error.message := by
  cases error with
  | emptyLoader =>
    exact (by decide : Inline "Bootloader is empty: an image needs boot sector content")
  | oversizedLoader size max =>
    unfold message
    simp only [inline_append, inline_toString, and_true]
    decide
  | oversizedImage size max =>
    unfold message
    simp only [inline_append, inline_toString, and_true]
    decide
  | invalidConfig reason =>
    obtain ⟨flaw, rfl⟩ := h
    unfold message
    simp only [inline_append, flaw.inline_reason, and_true]
    decide

end AssemblyError

theorem Layout.Verdict.explained {bootLen : Nat} {kernelLen : Option Nat} {config : Config}
    {cause : AssemblyError} (h : Verdict bootLen kernelLen config (.error (.error cause))) :
    cause.Explained := by
  cases h with
  | invalidConfig _ => exact ⟨_, rfl⟩
  | emptyLoader _ _ => trivial
  | oversizedLoader _ _ _ => trivial
  | oversizedImage _ _ => trivial

end BootImage
