import BootImage.Proofs.Build.Footprint
import BootImage.Proofs.Build.Phases
import BootImage.Proofs.CommandLine.Sizes
import BootImage.Proofs.Image.Acceptance
import BootImage.Proofs.Image.Publishable
/-!
# The first phase that fails decides

A build succeeds if all its phases do, and otherwise it returns the error of the first that fails
(`Build.Decided`). There is one failure that is no error: an image that passes all checks and is longer
than any buffer may be (`Build.Unaffordable`). Such a build faults, and every other one is decided by its
phases (`Build.decided_iff`).
-/

namespace BootImage

open FileSystem

namespace Build

variable {options : Options} {tag : Uuid} {before : FileSystem}
variable {boot : List UInt8} {kernel : Option (List UInt8)} {image : Image}

/-- A build succeeds if all its phases succeed, and otherwise it fails with the error of the first phase
that fails. -/
structure Decided (options : Options) (tag : Uuid) (before : FileSystem)
    (result : Except (Failure Problem) Report) : Prop where
  ok_iff : (∃ report, result = .ok report) ↔
    ∀ phase ∈ phases options, phase.Succeeds options tag before
  error : (∀ report, result ≠ .ok report) → ∃ (phase : Phase) (cause : BuildError),
    phase.FailsFirst options tag before (.error cause) ∧
      result = .error (.error ⟨phase.complaint ++ " " ++ quote phase.path, cause⟩)

/-- An image passes all checks, and it is longer than any buffer may be. -/
def Unaffordable (options : Options) (before : FileSystem) : Prop :=
  ∃ boot kernel layout, Inputs options before boot kernel ∧
    Layout.compute boot.length (kernel.map List.length) options.config = .ok layout ∧
      lengthLimit ≤ layout.imageLen

theorem Inputs.result_of_refused {refusal : Failure AssemblyError}
    (h : Inputs options before boot kernel)
    (hrefused : Image.assemble boot kernel options.config = .error refusal) :
    (run options tag before).result =
      .error (failed "cannot assemble" options.output (refusal.map .assembly)) := by
  rw [run_of_course (.unassembled h hrefused)]

/-- A build fails at the assembly, or the system has refused it something. -/
theorem refused_or_io {failure : Failure Problem} (h : (run options tag before).result = .error failure) :
    (∃ boot kernel refusal, Inputs options before boot kernel ∧
      Image.assemble boot kernel options.config = .error refusal ∧
        failure = failed "cannot assemble" options.output (refusal.map .assembly)) ∨
      ∃ attempt cause, failure = .error ⟨attempt, .io cause⟩ := by
  have hcourse := course_of_run options tag before
  generalize run options tag before = outcome at h hcourse
  cases hcourse with
  | loaderUnread _ =>
    cases h
    exact .inr ⟨_, _, rfl⟩
  | kernelUnread _ _ _ =>
    cases h
    exact .inr ⟨_, _, rfl⟩
  | unassembled inputs hrefused =>
    cases h
    exact .inl ⟨_, _, _, inputs, hrefused, rfl⟩
  | unpublished prepared _ hfailed =>
    obtain ⟨cause, rfl⟩ := (Image.assembled_of_assemble prepared.assembled).publish_error hfailed
    cases h
    exact .inr ⟨_, _, rfl⟩
  | unrecorded _ _ _ _ _ =>
    cases h
    exact .inr ⟨_, _, rfl⟩
  | complete _ _ _ _ => cases h

theorem fault_iff (hword : options.config.maxLoaderSize < wordLimit) {fault : Fault} :
    (run options tag before).result = .error (.fault fault) ↔
      fault = .capacity ∧ Unaffordable options before := by
  constructor
  · intro h
    rcases refused_or_io h with ⟨boot, kernel, refusal, hinputs, hrefused, hfault⟩ | ⟨_, _, hio⟩
    · cases refusal with
      | fault cause =>
        cases hfault
        obtain ⟨rfl, layout, hlayout, hlong⟩ := (Image.assemble_eq_fault_iff hword).1 hrefused
        exact ⟨rfl, boot, kernel, layout, hinputs, hlayout, hlong⟩
      | error cause => cases hfault
    · cases hio
  · rintro ⟨rfl, boot, kernel, layout, hinputs, hlayout, hlong⟩
    exact hinputs.result_of_refused (Image.assemble_of_le hlayout hlong)

theorem assembly_iff {cause : AssemblyError} :
    (∃ attempt, (run options tag before).result = .error (.error ⟨attempt, .assembly cause⟩)) ↔
      ∃ boot kernel, Inputs options before boot kernel ∧
        Image.assemble boot kernel options.config = .error (.error cause) := by
  constructor
  · rintro ⟨attempt, h⟩
    rcases refused_or_io h with ⟨boot, kernel, refusal, hinputs, hrefused, herror⟩ | ⟨_, _, hio⟩
    · cases refusal with
      | fault fault => cases herror
      | error cause =>
        cases herror
        exact ⟨boot, kernel, hinputs, hrefused⟩
    · cases hio
  · rintro ⟨boot, kernel, hinputs, hrefused⟩
    exact ⟨_, hinputs.result_of_refused hrefused⟩

theorem decided_of_goes {lines : List Notice} {result : Except (Failure Problem) Report}
    (h : Goes options tag before (phases options) lines (result.map fun _ => ()))
    (hreturns : ∀ fault, result ≠ .error (.fault fault)) : Decided options tag before result where
  ok_iff := by
    rw [← h.ok_iff]
    cases result <;> simp [Except.map]
  error hfailed := by
    cases result with
    | ok report => exact absurd rfl (hfailed report)
    | error failure =>
      obtain ⟨earlier, phase, later, cause, hphases, hearlier, hends, rfl⟩ := h.failure
      cases cause with
      | fault fault => exact absurd rfl (hreturns fault)
      | error cause => exact ⟨phase, cause, ⟨earlier, later, hphases, hearlier, hends⟩, rfl⟩

/-! ## From the command line on -/

theorem printAll_of_not_quiet {reporter : Reporter} (h : reporter.quiet = false)
    (notices : List Notice) :
    reporter.printAll notices = String.join (notices.map (Notice.text reporter.colour)) := by
  have hprint : reporter.print = Notice.text reporter.colour := by
    funext notice
    simp [Reporter.print, h]
  rw [Reporter.printAll, hprint]

/-- A build that a command line asks for succeeds if all its phases succeed and otherwise returns the
error of the first one that fails, unless its image is longer than any buffer may be: then it faults, and
nothing has changed. The error is one of the assembly if and only if the inputs have been read and do not
make an image. What has been told are the lines of the phases that it came to, and the success and the
report if and only if it succeeds; what has been changed is the output and the record at most. -/
theorem decided_iff {arguments : List String} {options : Options}
    (h : CommandLine.parse arguments = .ok (.build options)) (colour : Bool) (tag : Uuid)
    (before : FileSystem) :
    (Decided options tag before (run options tag before).result ↔ ¬ Unaffordable options before) ∧
      (Unaffordable options before →
        (run options tag before).result = .error (.fault .capacity) ∧
          SameOutside ∅ before (run options tag before).fs) ∧
      (∀ cause,
        (∃ attempt, (run options tag before).result = .error (.error ⟨attempt, .assembly cause⟩)) ↔
          ∃ boot kernel, Inputs options before boot kernel ∧
            Image.assemble boot kernel options.config = .error (.error cause)) ∧
      (∃ lines, Goes options tag before (phases options) lines
          ((run options tag before).result.map fun _ => ()) ∧
        (options.quiet = false → (Program.execute arguments colour tag before).stdout =
          String.join ((lines ++ closing options (run options tag before).result).map
            (Notice.text colour)))) ∧
      Footprint options tag before (Program.execute arguments colour tag before).fs := by
  have hword := (CommandLine.words_of_parse h).maxLoaderSize
  have hexecute : Program.execute arguments colour tag before =
      Program.conclude { quiet := options.quiet, colour } (run options tag before) := by
    simp only [Program.execute, h]
  obtain ⟨lines, hgoes, hnotices⟩ := goes_of_run options tag before
  refine ⟨⟨?_, ?_⟩, ?_, fun cause => assembly_iff, ⟨lines, hgoes, ?_⟩, ?_⟩
  · intro hdecided hlong
    have hfault := (@fault_iff options tag before hword _).2 ⟨rfl, hlong⟩
    obtain ⟨phase, cause, -, herror⟩ := hdecided.error (by rw [hfault]; exact nofun)
    rw [hfault] at herror
    cases herror
  · intro haffordable
    exact decided_of_goes hgoes fun fault hfault => haffordable ((fault_iff hword).1 hfault).2
  · rintro ⟨boot, kernel, layout, hinputs, hlayout, hlimit⟩
    rw [run_of_course (.unassembled hinputs (Image.assemble_of_le hlayout hlimit))]
    exact ⟨rfl, .refl before⟩
  · intro hquiet
    rw [hexecute, stdout_conclude, printAll_of_not_quiet hquiet, hnotices]
  · rw [hexecute, fs_conclude]
    exact footprint_of_run options tag before

/-- A kernel that is not there: the second phase fails, after two lines. -/
theorem decided_iff_kernel_missing :
    ∃ arguments options before, CommandLine.parse arguments = .ok (.build options) ∧
      Decided options (.ofRandom 0) before (run options (.ofRandom 0) before).result ∧
      (run options (.ofRandom 0) before).result =
        .error (.error ⟨"failed to read kernel `k`", .io (.system .noSuchEntry)⟩) ∧
      (Program.execute arguments false (.ofRandom 0) before).stdout =
        "Reading bootloader b\nReading kernel k\n" ∧
      Footprint options (.ofRandom 0) before
        (Program.execute arguments false (.ofRandom 0) before).fs := by
  let arguments := ["-b", "b", "-k", "k", "-o", "o", "--layout", "l"]
  let options : Options := ⟨⟨['b']⟩, some ⟨['k']⟩, ⟨['o']⟩, some ⟨['l']⟩, false, false, {}⟩
  let before := (FileSystem.empty []).addFile [['b']] (.ofList [1, 2, 3])
  have hparse : CommandLine.parse arguments = .ok (.build options) := by
    subst arguments options
    rfl
  have hmissing : before.readAll ⟨['k']⟩ = .error .noSuchEntry := by rfl
  have haffordable : ¬ Unaffordable options before := by
    rintro ⟨boot, kernel, layout, hinputs, -⟩
    obtain ⟨bytes, hread⟩ := hinputs.exists_kernel rfl
    rw [hmissing] at hread
    cases hread
  obtain ⟨hdecided, -, -, -, hfootprint⟩ := decided_iff hparse false (.ofRandom 0) before
  exact ⟨arguments, options, before, hparse, hdecided.2 haffordable, by rfl, by decide +kernel,
    hfootprint⟩

/-- A sector of half of all words: the image passes all checks, and no buffer is as long. -/
theorem not_decided_beyond_buffers :
    ∃ arguments options before, CommandLine.parse arguments = .ok (.build options) ∧
      before.readAll options.boot = .ok [0xaa] ∧
      ¬ Decided options (.ofRandom 0) before (run options (.ofRandom 0) before).result := by
  let arguments := ["--quiet", "-b", "boot.bin", "-o", "out.bin", "--sector-size",
    "9223372036854775808", "--max-image-size", "9223372036854775808"]
  let options : Options := ⟨.ofString "boot.bin", none, .ofString "out.bin", none, false, true,
    ⟨Nat.pow 2 63, 512, 32768, Nat.pow 2 63⟩⟩
  let before := (FileSystem.empty []).addFile ["boot.bin".toList] (.ofList [0xaa])
  have hrun : (run options (.ofRandom 0) before).result = .error (.fault .capacity) := by
    subst options before
    decide +kernel
  refine ⟨arguments, options, before, by rfl, by rfl, fun hdecided => ?_⟩
  obtain ⟨phase, cause, -, herror⟩ := hdecided.error (by rw [hrun]; exact nofun)
  rw [hrun] at herror
  cases herror

end Build

end BootImage
