import BootImage.Proofs.AssemblyError.Message
import BootImage.Proofs.Build.Oversize
import BootImage.Proofs.Build.Presentation
/-!
# What standard error tells of a refused assembly

The line that a program prints when it cannot assemble an image names the output and the error. An output
may be named in any way, with quotes and colons and the words of another error. But the text of an error
has no quote in it, so the output ends at the last quote of the line (`Text.quote_append_inj`), and what
stands behind is the text of the error. No other end of the program prints such a line: a usage error has
another mark in front (`UsageError.output_ne_error`), and a build that faults or fails in another phase
goes on with another word (`Build.complaint_cases`).
-/

namespace BootImage

open Text

/-! ## Quoted paths -/

namespace Text

variable {path path' : Path} {rest rest' : String} {front behind : List Char} {c : Char}

theorem takeWhile_reverse (h : c ∉ behind) :
    (front ++ c :: behind).reverse.takeWhile (· != c) = behind.reverse := by
  have hbehind : ∀ d ∈ behind.reverse, (d != c) = true := by
    intro d hd
    rw [bne_iff_ne]
    rintro rfl
    exact h (List.mem_reverse.1 hd)
  rw [List.reverse_append, List.reverse_cons, List.append_assoc, List.takeWhile_append_of_pos hbehind]
  simp

theorem toList_quote_append (path : Path) (rest : String) :
    (Build.quote path ++ rest).toList = '\x60' :: path.chars ++ '\x60' :: rest.toList := by
  simp [Build.quote, Path.text]

/-- A path ends at the last quote, whatever is in it. -/
theorem quote_append_inj (h : Inline rest) (h' : Inline rest') :
    Build.quote path ++ rest = Build.quote path' ++ rest' ↔ path = path' ∧ rest = rest' := by
  constructor
  · intro heq
    have hchars := congrArg String.toList heq
    rw [toList_quote_append, toList_quote_append] at hchars
    have hbehind := congrArg (fun cs => cs.reverse.takeWhile (· != '\x60')) hchars
    simp only [takeWhile_reverse h.2, takeWhile_reverse h'.2, List.reverse_inj] at hbehind
    obtain rfl := String.toList_injective hbehind
    have hfront := (List.cons.inj ((List.append_left_inj _).1 hchars)).2
    cases path
    cases path'
    exact ⟨congrArg Path.mk hfront, rfl⟩
  · rintro ⟨rfl, rfl⟩
    rfl

end Text

/-! ## Marks in front -/

namespace Reporter

/-- How an error line begins, in colour and without. -/
def errorMark (colour : Bool) : List Char :=
  if colour then ['\x1b', '[', '1', ';'] else ['❌', ' ', 'E', 'r']

theorem length_errorMark (colour : Bool) : (errorMark colour).length = 4 := by
  cases colour <;> rfl

theorem errorMark_inj {colour colour' : Bool} (h : errorMark colour = errorMark colour') :
    colour = colour' := by
  revert h
  cases colour <;> cases colour' <;> decide

theorem error_begins (reporter : Reporter) (chain : List String) :
    Begins (errorMark reporter.colour) (reporter.error chain) := by
  have hmark : Begins (errorMark reporter.colour) (Style.failure.paint reporter.colour "❌ Error:") := by
    cases reporter.colour <;> decide
  exact ((hmark.append _).append _).append _

/-- The line tells whether it is coloured, and what is behind the mark. -/
theorem error_inj {reporter reporter' : Reporter} {chain chain' : List String}
    (h : reporter.error chain = reporter'.error chain') :
    reporter.colour = reporter'.colour ∧ ": ".intercalate chain = ": ".intercalate chain' := by
  have hcolour : reporter.colour = reporter'.colour :=
    errorMark_inj ((reporter.error_begins chain).unique (reporter'.error_begins chain') h
      ((length_errorMark _).trans (length_errorMark _).symm))
  refine ⟨hcolour, ?_⟩
  unfold error at h
  rw [hcolour] at h
  simpa only [String.append_left_inj, String.append_right_inj] using h

theorem error_ne_empty (reporter : Reporter) (chain : List String) : reporter.error chain ≠ "" := by
  intro hempty
  have hbegins := reporter.error_begins chain
  rw [hempty] at hbegins
  revert hbegins
  cases reporter.colour <;> decide

end Reporter

namespace CommandLine

/-- How a usage error begins, in colour and without. -/
def usageMark (colour : Bool) : List Char :=
  if colour then ['\x1b', '[', '1', 'm'] else ['e', 'r', 'r', 'o']

theorem usageMark_ne_errorMark (colour colour' : Bool) :
    usageMark colour ≠ Reporter.errorMark colour' := by
  cases colour <;> cases colour' <;> decide

namespace UsageError

theorem styled_append (error : UsageError) (more : String) :
    ∃ rest, error.styled ++ more = Style.usageError.wrap "error:" ++ rest := by
  unfold styled
  simp only [String.append_assoc]
  exact ⟨_, rfl⟩

theorem output_begins (error : UsageError) (colour : Bool) (more : String) :
    Begins (usageMark colour) (Style.output colour (error.styled ++ more)) := by
  obtain ⟨rest, hstyled⟩ := error.styled_append more
  rw [hstyled]
  cases colour with
  | true => exact (by decide : Begins _ (Style.usageError.wrap "error:")).append rest
  | false =>
    -- The colours around the word are not shown, and what follows is shown behind it.
    have hshown : ControlSequence.shown .pauses .text false
        ((Style.usageError.wrap "error:").toList ++ rest.toList) =
          "error:".toList ++ ControlSequence.shown .pauses .text false rest.toList := by rfl
    simp only [Style.output, ControlSequence.stripOutput, Bool.false_eq_true, if_false, Begins,
      String.toList_append, String.toList_ofList, hshown]
    exact (by decide : usageMark false <+: "error:".toList).trans (List.prefix_append _ _)

theorem output_ne_error (error : UsageError) (colour : Bool) (more : String) (reporter : Reporter)
    (chain : List String) : Style.output colour (error.styled ++ more) ≠ reporter.error chain := by
  intro h
  have hlength : (usageMark colour).length = (Reporter.errorMark reporter.colour).length := by
    rw [Reporter.length_errorMark]
    cases colour <;> rfl
  exact usageMark_ne_errorMark _ _
    ((error.output_begins colour more).unique (reporter.error_begins chain) h hlength)

end UsageError

end CommandLine

/-! ## Builds -/

namespace Build

variable {output output' : Path} {cause cause' : AssemblyError}

/-- What is said of an assembly that is refused. -/
def refusal (output : Path) (cause : AssemblyError) : List String :=
  ["cannot assemble" ++ " " ++ quote output, cause.message]

theorem refusal_inj (hexplained : cause.Explained) (hexplained' : cause'.Explained)
    (h : ": ".intercalate (refusal output cause) = ": ".intercalate (refusal output' cause')) :
    output = output' ∧ cause = cause' := by
  have hinline : Inline (": " ++ cause.message) :=
    inline_append.2 ⟨by decide, hexplained.inline_message⟩
  have hinline' : Inline (": " ++ cause'.message) :=
    inline_append.2 ⟨by decide, hexplained'.inline_message⟩
  simp only [refusal, String.intercalate_cons_cons, String.intercalate_singleton, String.append_assoc,
    String.append_right_inj] at h
  obtain ⟨rfl, hmessage⟩ := (quote_append_inj hinline hinline').1 h
  exact ⟨rfl, AssemblyError.message_eq_iff.1 ((String.append_right_inj _).1 hmessage)⟩

/-- What begins with other letters is not said of a refused assembly. -/
theorem ne_refusal {letters : List Char} {text : String} (h : Begins letters text)
    (hlength : letters.length = 3) (hne : letters ≠ ['c', 'a', 'n']) (output : Path)
    (cause : AssemblyError) : text ≠ ": ".intercalate (refusal output cause) := by
  have hrefusal : Begins ['c', 'a', 'n'] (": ".intercalate (refusal output cause)) := by
    simp only [refusal, String.intercalate_cons_cons, String.append_assoc]
    exact (by decide : Begins _ "cannot assemble").append _
  exact fun heq => hne (h.unique hrefusal heq hlength)

theorem failed_ne_refusal {what : String} (h : Begins ['f', 'a', 'i'] what) (path : Path)
    (failure : BuildError) (output : Path) (cause : AssemblyError) :
    ": ".intercalate (complaint (.error (failed what path (.error failure)))) ≠
      ": ".intercalate (refusal output cause) := by
  simp only [complaint, failed, Failure.map, Problem.chain, String.intercalate_cons_cons,
    String.append_assoc]
  exact ne_refusal (h.append _) rfl (by decide) output cause

theorem fault_ne_refusal (fault : Fault) (output : Path) (cause : AssemblyError) :
    ": ".intercalate [fault.message] ≠ ": ".intercalate (refusal output cause) := by
  rw [String.intercalate_singleton]
  apply ne_refusal (List.take_prefix 3 fault.message.toList)
  · cases fault <;> decide
  · cases fault <;> decide

/-- A build succeeds, or its assembly is refused, or what is said of it is said of no refused assembly. -/
theorem complaint_cases (options : Options) (tag : Uuid) (before : FileSystem) :
    (∃ report, (run options tag before).result = .ok report) ∨
      (∃ attempt cause,
        (run options tag before).result = .error (.error ⟨attempt, .assembly cause⟩)) ∨
      ∀ output cause, ": ".intercalate (complaint (run options tag before).result) ≠
        ": ".intercalate (refusal output cause) := by
  have hcourse := course_of_run options tag before
  generalize run options tag before = outcome at hcourse ⊢
  cases hcourse with
  | loaderUnread _ => exact .inr (.inr (failed_ne_refusal (by decide) _ _))
  | kernelUnread _ _ _ => exact .inr (.inr (failed_ne_refusal (by decide) _ _))
  | @unassembled _ _ failure _ _ =>
    cases failure with
    | fault fault => exact .inr (.inr (fault_ne_refusal fault))
    | error cause => exact .inr (.inl ⟨_, cause, rfl⟩)
  | unpublished prepared _ hfailed =>
    obtain ⟨cause, rfl⟩ := (Image.assembled_of_assemble prepared.assembled).publish_error hfailed
    exact .inr (.inr (failed_ne_refusal (by decide) _ _))
  | unrecorded _ _ _ _ _ => exact .inr (.inr (failed_ne_refusal (by decide) _ _))
  | complete _ _ _ _ => exact .inl ⟨_, rfl⟩

end Build

/-! ## The program -/

namespace Program

variable {arguments others : List String} {colour colour' : Bool} {tag tag' : Uuid}
variable {before before' : FileSystem} {output output' : Path} {cause cause' : AssemblyError}

/-- The arguments ask for a build that writes to `output`, and its assembly is refused. -/
def Refuses (arguments : List String) (tag : Uuid) (before : FileSystem) (output : Path)
    (cause : AssemblyError) : Prop :=
  ∃ options attempt, CommandLine.parse arguments = .ok (.build options) ∧ options.output = output ∧
    (Build.run options tag before).result = .error (.error ⟨attempt, .assembly cause⟩)

/-- What the program says then. -/
def errorLine (colour : Bool) (output : Path) (cause : AssemblyError) : String :=
  Reporter.error { quiet := false, colour } (Build.refusal output cause)

theorem Refuses.explained (h : Refuses arguments tag before output cause) : cause.Explained := by
  obtain ⟨options, attempt, hparse, -, hresult⟩ := h
  obtain ⟨boot, kernel, -, hrefused⟩ := Build.assembly_iff.1 ⟨attempt, hresult⟩
  obtain ⟨answer, hverdict⟩ :=
    Layout.exists_verdict boot.length (kernel.map List.length) options.config
  have hanswer : answer = .error (.error cause) :=
    (hverdict.compute_eq_of_words (CommandLine.words_of_parse hparse)).symm.trans
      (Image.compute_of_refused hrefused)
  rw [hanswer] at hverdict
  exact hverdict.explained

theorem Refuses.printed (h : Refuses arguments tag before output cause) (colour : Bool) :
    (execute arguments colour tag before).exitCode = 1 ∧
      (execute arguments colour tag before).stderr = errorLine colour output cause := by
  obtain ⟨options, attempt, hparse, rfl, hresult⟩ := h
  obtain ⟨boot, kernel, hinputs, hrefused⟩ := Build.assembly_iff.1 ⟨attempt, hresult⟩
  simp only [Program.execute, hparse, conclude, hinputs.result_of_refused hrefused]
  exact ⟨rfl, rfl⟩

/-- No program that does not refuse an assembly prints such a line. -/
theorem refuses_of_stderr
    (h : (execute arguments colour tag before).stderr = errorLine colour' output cause) :
    ∃ output cause, Refuses arguments tag before output cause := by
  unfold errorLine at h
  cases hparse : CommandLine.parse arguments with
  | error error =>
    simp only [execute, hparse] at h
    exact absurd h (error.output_ne_error colour _ _ _)
  | ok request =>
    cases request with
    | help =>
      simp only [execute, hparse] at h
      exact absurd h.symm (Reporter.error_ne_empty _ _)
    | version =>
      simp only [execute, hparse] at h
      exact absurd h.symm (Reporter.error_ne_empty _ _)
    | build options =>
      simp only [execute, hparse, Build.stderr_conclude] at h
      rcases Build.complaint_cases options tag before with
        ⟨report, hresult⟩ | ⟨attempt, found, hresult⟩ | hother
      · rw [hresult] at h
        exact absurd h.symm (Reporter.error_ne_empty _ _)
      · exact ⟨_, found, options, attempt, hparse, rfl, hresult⟩
      · split at h
        · exact absurd h.symm (Reporter.error_ne_empty _ _)
        · exact absurd (Reporter.error_inj h).2 (hother output cause)

theorem Refuses.of_stderr_eq (h : Refuses arguments tag before output cause)
    (heq : (execute arguments colour tag before).stderr = (execute others colour' tag' before').stderr) :
    Refuses others tag' before' output cause := by
  rw [(h.printed colour).2] at heq
  obtain ⟨output', cause', hothers⟩ := refuses_of_stderr heq.symm
  rw [(hothers.printed colour').2] at heq
  obtain ⟨rfl, rfl⟩ := Build.refusal_inj h.explained hothers.explained (Reporter.error_inj heq).2
  exact hothers

/-- Errors of the assembly with the same text are the same, whatever sizes and reasons they have, and so
are the flaws of a configuration that are given as reasons. A program that refuses an assembly prints this
text behind the output, in one line. Whatever prints the same on standard error, with other arguments and
files, in colour or not, refuses an assembly for the same error and the same output. -/
theorem error_line_identifies :
    (∀ error other : AssemblyError, error.message = other.message → error = other) ∧
      (∀ flaw other : ConfigFlaw, flaw.reason = other.reason → flaw = other) ∧
      (∀ arguments tag before output cause, Refuses arguments tag before output cause →
        cause.Explained ∧ '\n' ∉ cause.message.toList ∧
          ∀ colour, (execute arguments colour tag before).exitCode = 1 ∧
            (execute arguments colour tag before).stderr = errorLine colour output cause) ∧
      ∀ arguments others colour colour' tag tag' before before',
        (execute arguments colour tag before).stderr = (execute others colour' tag' before').stderr →
          ∀ output cause, Refuses arguments tag before output cause ↔
            Refuses others tag' before' output cause := by
  refine ⟨fun _ _ => AssemblyError.message_eq_iff.1, fun _ _ => ConfigFlaw.reason_eq_iff.1, ?_, ?_⟩
  · intro arguments tag before output cause h
    exact ⟨h.explained, h.explained.inline_message.1, h.printed⟩
  · intro arguments others colour colour' tag tag' before before' heq output cause
    exact ⟨fun h => h.of_stderr_eq heq, fun h => h.of_stderr_eq heq.symm⟩

/-- A loader of five bytes where four are allowed, for an output whose name has the text of another error in
it. Two runs that have little else in common print the same. -/
theorem error_line_identifies_misleading_output :
    ∃ arguments others before before',
      (execute arguments true (.ofRandom 0) before).stderr =
        "\x1b[1;31m❌ Error:\x1b[0m cannot assemble `o`: Bootloader is empty`: " ++
          "Bootloader is 5 bytes, exceeding the loader region limit of 4 bytes\n" ∧
      (execute others true (.ofRandom 1) before').stderr =
        (execute arguments true (.ofRandom 0) before).stderr ∧
      Refuses others (.ofRandom 1) before' (.ofString "o`: Bootloader is empty")
        (.oversizedLoader 5 4) ∧
      (execute others true (.ofRandom 1) before').exitCode = 1 ∧
      AssemblyError.message (.oversizedLoader 1 12) ≠ AssemblyError.message (.oversizedLoader 11 2) ∧
      ConfigFlaw.reason (.loaderCeilingBelowBootSector 1 12) ≠
        ConfigFlaw.reason (.loaderCeilingBelowBootSector 0 12) := by
  let arguments := ["-b", "b", "-o", "o`: Bootloader is empty", "--boot-sector-len", "4",
    "--max-loader-size", "4"]
  let others := ["--quiet", "--verify", "--boot=x", "-ky", "--output", "o`: Bootloader is empty",
    "--sector-size", "16", "--boot-sector-len", "2", "--max-loader-size", "+04"]
  let before := (FileSystem.empty []).addFile [['b']] (.ofList [1, 2, 3, 4, 5])
  let before' := ((FileSystem.empty []).addFile [['x']] (.ofList [9, 8, 7, 6, 5])).addFile [['y']]
    (.ofList [1])
  let options : Options := ⟨⟨['b']⟩, none, .ofString "o`: Bootloader is empty", none, false, false,
    ⟨512, 4, 4, 16777216⟩⟩
  have hline : (execute arguments true (.ofRandom 0) before).stderr =
      "\x1b[1;31m❌ Error:\x1b[0m cannot assemble `o`: Bootloader is empty`: " ++
        "Bootloader is 5 bytes, exceeding the loader region limit of 4 bytes\n" := by
    subst arguments before
    decide +kernel
  have hsame : (execute others true (.ofRandom 1) before').stderr =
      (execute arguments true (.ofRandom 0) before).stderr := by
    subst arguments others before before'
    decide +kernel
  have hresult : (Build.run options (.ofRandom 0) before).result = .error (.error
      ⟨"cannot assemble `o`: Bootloader is empty`", .assembly (.oversizedLoader 5 4)⟩) := by
    subst options before
    decide +kernel
  have hrefuses : Refuses arguments (.ofRandom 0) before (.ofString "o`: Bootloader is empty")
      (.oversizedLoader 5 4) :=
    ⟨options, _, by rfl, rfl, hresult⟩
  obtain ⟨hmessage, hreason, hprinted, hidentifies⟩ := error_line_identifies
  have hothers := (hidentifies _ _ _ _ _ _ _ _ hsame _ _).2 hrefuses
  obtain ⟨-, -, hends⟩ := hprinted _ _ _ _ _ hothers
  refine ⟨arguments, others, before, before', hline, hsame, hothers, (hends true).1, ?_, ?_⟩
  · intro hequal
    exact absurd (hmessage _ _ hequal) (by decide)
  · intro hequal
    exact absurd (hreason _ _ hequal) (by decide)

end Program

end BootImage
