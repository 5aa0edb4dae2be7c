import BootImage.Proofs.Build.FreshTags
import BootImage.Proofs.Terminal.Colours
/-!
# How a build is shown makes no difference

A build is quiet or not, and coloured or not. Being quiet reaches the build itself as a progress that is
not shown, which nothing looks at (`Image.publish_progress`), so the outcome is the same on every way that
a build can go (`Build.run_quiet`). Colour comes in only when the outcome is printed.
-/

namespace BootImage

open FileSystem

/-! ## Nothing looks at the progress -/

theorem Disk.writeSectors_progress (disk : Disk) (sectors : List (List UInt8)) (first : Nat)
    (fs : FileSystem) (progress other : Progress) :
    (disk.writeSectors sectors first fs progress).1 = (disk.writeSectors sectors first fs other).1 ∧
      (disk.writeSectors sectors first fs progress).2.1 =
        (disk.writeSectors sectors first fs other).2.1 := by
  induction sectors generalizing first fs progress other with
  | nil => exact ⟨rfl, rfl⟩
  | cons data sectors ih =>
    unfold writeSectors
    cases disk.write first data fs with
    | error failure => exact ⟨rfl, rfl⟩
    | ok written => exact ih (first + 1) written progress.advance other.advance

theorem Image.publish_progress (image : Image) (output : Path) (verify : Bool) (tag : Uuid)
    (fs : FileSystem) (progress other : Progress) :
    (image.publish output verify tag progress fs).result =
        (image.publish output verify tag other fs).result ∧
      (image.publish output verify tag progress fs).fs =
        (image.publish output verify tag other fs).fs := by
  unfold publish publishThrough
  cases image.layout.sectorCount with
  | error fault => exact ⟨rfl, rfl⟩
  | ok count =>
    simp only
    rcases Disk.create output image.layout.sectorSize count tag fs with ⟨failure | disk, created⟩
    · exact ⟨rfl, rfl⟩
    · cases image.sectors with
      | error fault => exact ⟨rfl, rfl⟩
      | ok sectors =>
        simp only
        obtain ⟨hresult, hfs⟩ := disk.writeSectors_progress sectors 0 created
          (progress.ofLength count) (other.ofLength count)
        generalize disk.writeSectors sectors 0 created (progress.ofLength count) = first at hresult hfs ⊢
        generalize disk.writeSectors sectors 0 created (other.ofLength count) = second at hresult hfs ⊢
        obtain ⟨result, written, reached⟩ := first
        obtain ⟨result', written', reached'⟩ := second
        obtain rfl : result = result' := hresult
        obtain rfl : written = written' := hfs
        cases result with
        | error failure => exact ⟨rfl, rfl⟩
        | ok _ =>
          simp only
          cases (if verify = true then disk.verify image written else .ok () :
              Except (Failure IoError) Unit) with
          | error failure => exact ⟨rfl, rfl⟩
          | ok _ =>
            simp only
            rcases disk.commit written with ⟨cause | _, after⟩ <;> exact ⟨rfl, rfl⟩

namespace Build

variable {options : Options} {tag again : Uuid} {before : FileSystem}

theorem deliver_quiet (options : Options) (quiet : Bool) (image : Image) (report : Report) (tag : Uuid)
    (fs : FileSystem) :
    deliver { options with quiet } image report tag fs = deliver options image report tag fs := by
  obtain ⟨hresult, hfs⟩ := image.publish_progress options.output options.verify tag fs
    (Reporter.progress { quiet, colour := false })
    (Reporter.progress { quiet := options.quiet, colour := false })
  unfold deliver
  simp only
  generalize image.publish options.output options.verify tag (Reporter.progress ⟨quiet, false⟩) fs =
    first at hresult hfs ⊢
  generalize image.publish options.output options.verify tag
    (Reporter.progress ⟨options.quiet, false⟩) fs = second at hresult hfs ⊢
  obtain ⟨result, written, reached⟩ := first
  obtain ⟨result', written', reached'⟩ := second
  obtain rfl : result = result' := hresult
  obtain rfl : written = written' := hfs
  cases result <;> rfl

/-- A quiet build does the same, and has the same to tell. -/
theorem run_quiet (options : Options) (quiet : Bool) (tag : Uuid) (fs : FileSystem) :
    run { options with quiet } tag fs = run options tag fs := by
  have hprepare : prepare { options with quiet } fs = prepare options fs := rfl
  unfold run
  simp only [hprepare, deliver_quiet]

/-! ## What is printed -/

/-- What is said of a result on standard error. -/
def complaint : Except (Failure Problem) Report → List String
  | .ok _ => []
  | .error (.error problem) => problem.chain
  | .error (.fault fault) => [fault.message]

/-- All messages that a program prints of a build. -/
def printed (quiet : Bool) (outcome : Outcome) : List String :=
  Reporter.messages quiet outcome.notices ++ complaint outcome.result

theorem exitCode_conclude {reporter reporter' : Reporter} {outcome outcome' : Outcome}
    (h : outcome'.result = outcome.result) :
    (Program.conclude reporter' outcome').exitCode = (Program.conclude reporter outcome).exitCode := by
  unfold Program.conclude
  rw [h]
  rcases outcome.result with (fault | problem) | report <;> rfl

theorem stderr_conclude (reporter : Reporter) (outcome : Outcome) :
    (Program.conclude reporter outcome).stderr =
      if complaint outcome.result = [] then "" else reporter.error (complaint outcome.result) := by
  unfold Program.conclude
  rcases outcome.result with (fault | problem) | report <;> rfl

/-- Two runs end alike, apart from what is printed on the way: the exit code is the same, and so is the
tree that they leave. -/
structure EndsAlike (first second : Execution) : Prop where
  exitCode : second.exitCode = first.exitCode
  fs : SameOutside ∅ first.fs second.fs

theorem Repeats.endsAlike {first second : Outcome} (h : Repeats first second)
    (reporter reporter' : Reporter) :
    EndsAlike (Program.conclude reporter first) (Program.conclude reporter' second) where
  exitCode := exitCode_conclude h.result
  fs := by
    rw [fs_conclude, fs_conclude]
    exact h.fs

theorem Repeats.stderr {first second : Outcome} (h : Repeats first second) (quiet quiet' colour : Bool) :
    (Program.conclude ⟨quiet', colour⟩ second).stderr =
      (Program.conclude ⟨quiet, colour⟩ first).stderr := by
  rw [stderr_conclude, stderr_conclude, h.result]
  rfl

theorem withoutColours_stdout {quiet : Bool} {outcome : Outcome}
    (h : ∀ message ∈ printed quiet outcome, Plain message) :
    withoutColours (Program.conclude ⟨quiet, true⟩ outcome).stdout =
      (Program.conclude ⟨quiet, false⟩ outcome).stdout := by
  rw [stdout_conclude, stdout_conclude]
  exact Reporter.withoutColours_printAll fun message hm => h message (List.mem_append_left _ hm)

theorem withoutColours_stderr {quiet : Bool} {outcome : Outcome}
    (h : ∀ message ∈ printed quiet outcome, Plain message) :
    withoutColours (Program.conclude ⟨quiet, true⟩ outcome).stderr =
      (Program.conclude ⟨quiet, false⟩ outcome).stderr := by
  rw [stderr_conclude, stderr_conclude]
  split
  · exact (Fades.of_plain (by decide)).eq
  · exact Reporter.withoutColours_error fun part hm => h part (List.mem_append_right _ hm)

/-- Two command lines ask for the same build, up to whether it is quiet, and each is run under any setting
of colours. The tags are the same, or no file has either. Then the builds return the same and leave the
same tree, the program exits with the same code, and what it says of an error depends on the colours
alone. A quiet run prints nothing on standard output. Where no message has an escape character of its
own, what is printed in colour is, without its colour sequences, what is printed without colour. -/
theorem presentation_irrelevant {arguments others : List String} {quiet : Bool}
    (h : CommandLine.parse arguments = .ok (.build options))
    (h' : CommandLine.parse others = .ok (.build { options with quiet }))
    (htags : again = tag ∨ Fresh options.output tag before ∧ Fresh options.output again before)
    (colour colour' : Bool) :
    Repeats (run options tag before) (run { options with quiet } again before) ∧
      EndsAlike (Program.execute arguments colour tag before)
        (Program.execute others colour' again before) ∧
      (colour' = colour → (Program.execute others colour' again before).stderr =
        (Program.execute arguments colour tag before).stderr) ∧
      (options.quiet = true → (Program.execute arguments colour tag before).stdout = "") ∧
      ((∀ message ∈ printed options.quiet (run options tag before), Plain message) →
        withoutColours (Program.execute arguments true tag before).stdout =
            (Program.execute arguments false tag before).stdout ∧
          withoutColours (Program.execute arguments true tag before).stderr =
            (Program.execute arguments false tag before).stderr) := by
  have hrepeats : Repeats (run options tag before) (run { options with quiet } again before) := by
    rw [run_quiet options quiet again before]
    rcases htags with rfl | ⟨hfresh, hagain⟩
    · exact ⟨rfl, rfl, .refl _⟩
    · exact repeats_of_fresh hfresh hagain
  simp only [Program.execute, h, h']
  refine ⟨hrepeats, hrepeats.endsAlike _ _, ?_, ?_, ?_⟩
  · rintro rfl
    exact hrepeats.stderr _ _ _
  · intro hquiet
    rw [stdout_conclude]
    exact Reporter.printAll_of_quiet hquiet _
  · intro hplain
    exact ⟨withoutColours_stdout hplain, withoutColours_stderr hplain⟩

/-- An image of one sector, told in colour and built quietly, with two fresh tags. -/
theorem presentation_irrelevant_one_sector :
    ∃ arguments others options before,
      CommandLine.parse arguments = .ok (.build options) ∧
        CommandLine.parse others = .ok (.build { options with quiet := true }) ∧
        (Program.execute arguments true (.ofRandom 0) before).fs.readAll options.output =
          .ok [1, 2, 3, 0] ∧
        EndsAlike (Program.execute arguments true (.ofRandom 0) before)
          (Program.execute others true (.ofRandom 1) before) ∧
        withoutColours (Program.execute arguments true (.ofRandom 0) before).stdout =
          (Program.execute arguments false (.ofRandom 0) before).stdout := by
  let arguments := ["-b", "b", "-o", "o", "--sector-size", "4", "--boot-sector-len", "4"]
  let others := "--quiet" :: arguments
  let options : Options := ⟨⟨['b']⟩, none, ⟨['o']⟩, none, false, false, ⟨4, 4, 32768, 16777216⟩⟩
  let before := (FileSystem.empty []).addFile [['b']] (.ofList [1, 2, 3])
  have hparse : CommandLine.parse arguments = .ok (.build options) := by
    subst arguments options
    rfl
  have hparse' : CommandLine.parse others = .ok (.build { options with quiet := true }) := by
    subst others arguments options
    rfl
  have hstaging : ∀ n ∈ [0, 1],
      (before.locate? (options.output.staging (.ofRandom n))).bind before.entry? = none := by
    subst options before
    decide +kernel
  have hfresh : ∀ n ∈ [0, 1], Fresh options.output (.ofRandom n) before := by
    intro n hn place hplace
    have hnone := hstaging n hn
    rwa [hplace, Option.bind_some] at hnone
  have hread : (Program.execute arguments true (.ofRandom 0) before).fs.readAll options.output =
      .ok [1, 2, 3, 0] := by
    subst arguments options before
    decide +kernel
  have hplain : ∀ message ∈ printed options.quiet (run options (.ofRandom 0) before), Plain message := by
    subst options before
    decide +kernel
  obtain ⟨-, hends, -, -, hcolours⟩ := presentation_irrelevant hparse hparse'
    (.inr ⟨hfresh 0 (by decide), hfresh 1 (by decide)⟩) true true
  exact ⟨arguments, others, options, before, hparse, hparse', hread, hends, (hcolours hplain).1⟩

end Build

end BootImage
