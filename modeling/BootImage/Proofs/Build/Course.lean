import BootImage.Program
import BootImage.Proofs.FileSystem.Replace
import BootImage.Proofs.Image.Geometry
import BootImage.Proofs.Image.Publish
/-!
# How a build goes

`Build.Course` has a constructor for each way in which a build can end, with what was done before and
with what it leaves. `Build.course_of_run` says that every build goes one of these ways, and
`Build.run_of_course` that it goes no other than the one that is open to it. What is to be shown of a build
is shown of each of them.
-/

namespace BootImage

open FileSystem

theorem Image.Assembled.exists_report {boot : List UInt8} {kernel : Option (List UInt8)}
    {config : Config} {image : Image} (h : Image.Assembled boot kernel config image) :
    ∃ report, Report.ofLayout image.layout = .ok report :=
  ⟨_, h.report_eq⟩

namespace Build

/-! ## What is told on the way -/

def loaderLines (options : Options) : List Notice :=
  [.step ("Reading bootloader " ++ options.boot.text)]

def kernelLines (options : Options) : List Notice :=
  match options.kernel with
  | none => []
  | some path => [.step ("Reading kernel " ++ path.text)]

/-- The lines of a build that has come to its kernel. -/
def inputLines (options : Options) : List Notice :=
  loaderLines options ++ kernelLines options

/-- The lines of a build that has come to its image. -/
def assemblyLines (options : Options) : List Notice :=
  inputLines options ++ [.step "Assembling image..."]

/-- The lines of a build that has come to its output. -/
def writingLines (options : Options) (report : Report) : List Notice :=
  assemblyLines options ++ [.step ("Writing " ++ toString report.sectorCount ++ " sectors to " ++
    options.output.text)]

/-- The lines of a build that has come to its end. -/
def allLines (options : Options) (report : Report) : List Notice :=
  writingLines options report ++
    [.success ("Image written to " ++ options.output.text), .report report]

/-! ## What is done -/

/-- What the inputs hold. -/
structure Inputs (options : Options) (fs : FileSystem) (boot : List UInt8)
    (kernel : Option (List UInt8)) : Prop where
  boot : fs.readAll options.boot = .ok boot
  kernel : Option.Rel (fun path bytes => fs.readAll path = .ok bytes) options.kernel kernel

/-- What the inputs hold, and the image of it. -/
structure Prepared (options : Options) (fs : FileSystem) (boot : List UInt8)
    (kernel : Option (List UInt8)) (image : Image) : Prop where
  inputs : Inputs options fs boot kernel
  assembled : Image.assemble boot kernel options.config = .ok image

/-- What comes of writing the image. -/
def publication (options : Options) (image : Image) (tag : Uuid) (fs : FileSystem) : Publication :=
  image.publish options.output options.verify tag
    (Reporter.progress { quiet := options.quiet, colour := false }) fs

theorem publish_eq_publication (options : Options) (image : Image) (tag : Uuid) (fs : FileSystem) :
    image.publish options.output options.verify tag
      (Reporter.progress { quiet := options.quiet, colour := false }) fs =
        publication options image tag fs := rfl

/-- What becomes of a build, and how it came to that. -/
inductive Course (options : Options) (tag : Uuid) (before : FileSystem) : Outcome → Prop
  | loaderUnread {cause} (h : before.readAll options.boot = .error cause) :
    Course options tag before
      ⟨.error (refused "failed to read bootloader" options.boot cause), loaderLines options, before⟩
  | kernelUnread {boot path cause} (loader : before.readAll options.boot = .ok boot)
    (given : options.kernel = some path) (h : before.readAll path = .error cause) :
    Course options tag before
      ⟨.error (refused "failed to read kernel" path cause), inputLines options, before⟩
  | unassembled {boot kernel failure} (inputs : Inputs options before boot kernel)
    (h : Image.assemble boot kernel options.config = .error failure) :
    Course options tag before
      ⟨.error (failed "cannot assemble" options.output (failure.map .assembly)),
        assemblyLines options, before⟩
  | unpublished {boot kernel image report failure}
    (prepared : Prepared options before boot kernel image)
    (summary : Report.ofLayout image.layout = .ok report)
    (h : (publication options image tag before).result = .error failure) :
    Course options tag before
      ⟨.error (failed "failed to write image" options.output (failure.map .io)),
        writingLines options report, (publication options image tag before).fs⟩
  | unrecorded {boot kernel image report path cause}
    (prepared : Prepared options before boot kernel image)
    (summary : Report.ofLayout image.layout = .ok report)
    (published : (publication options image tag before).result = .ok ())
    (given : options.layout = some path)
    (h : (publication options image tag before).fs.writeAll path image.layout.toRecord =
      .error cause) :
    Course options tag before
      ⟨.error (refused "failed to write layout" path cause), writingLines options report,
        (publication options image tag before).fs⟩
  | complete {boot kernel image report after}
    (prepared : Prepared options before boot kernel image)
    (summary : Report.ofLayout image.layout = .ok report)
    (published : (publication options image tag before).result = .ok ())
    (recorded : saveLayout options image.layout (publication options image tag before).fs =
      .ok after) :
    Course options tag before ⟨.ok report, allLines options report, after⟩

/-! ## Every build goes one of these ways -/

variable {options : Options} {tag : Uuid} {before : FileSystem}

theorem readKernel_eq (options : Options) (fs : FileSystem) :
    (∃ kernel, readKernel options fs = (kernelLines options, .ok kernel) ∧
      Option.Rel (fun path bytes => fs.readAll path = .ok bytes) options.kernel kernel) ∨
    ∃ path cause, options.kernel = some path ∧ fs.readAll path = .error cause ∧
      readKernel options fs =
        (kernelLines options, .error (refused "failed to read kernel" path cause)) := by
  unfold readKernel kernelLines
  cases options.kernel with
  | none => exact .inl ⟨none, rfl, .none⟩
  | some path =>
    cases hread : fs.readAll path with
    | ok bytes => exact .inl ⟨some bytes, by simp only [hread], .some hread⟩
    | error cause => exact .inr ⟨path, cause, rfl, hread, by simp only [hread]⟩

theorem saveLayout_eq_error {layout : Layout} {fs : FileSystem} {failure : Failure Problem}
    (h : saveLayout options layout fs = .error failure) :
    ∃ path cause, options.layout = some path ∧ fs.writeAll path layout.toRecord = .error cause ∧
      failure = refused "failed to write layout" path cause := by
  unfold saveLayout at h
  split at h
  · cases h
  · rename_i path hpath
    split at h
    · cases h
    · rename_i cause hwrite
      cases h
      exact ⟨path, cause, hpath, hwrite, rfl⟩

/-- Once there is an image, a build can end in three ways. -/
theorem Prepared.course {boot : List UInt8} {kernel : Option (List UInt8)} {image : Image}
    {report : Report} (h : Prepared options before boot kernel image)
    (hreport : Report.ofLayout image.layout = .ok report) :
    Course options tag before
      { deliver options image report tag before with
        notices := assemblyLines options ++ (deliver options image report tag before).notices } := by
  simp only [deliver, publish_eq_publication]
  rcases hrun : publication options image tag before with ⟨failure | ⟨⟩, published, reached⟩
  · have hfailed : (publication options image tag before).result = .error failure := by rw [hrun]
    have hcourse := Course.unpublished h hreport hfailed
    rw [hrun] at hcourse
    exact hcourse
  · have hdone : (publication options image tag before).result = .ok () := by rw [hrun]
    have hfs : (publication options image tag before).fs = published := by rw [hrun]
    cases hsave : saveLayout options image.layout published with
    | error failure =>
      obtain ⟨path, cause, hgiven, hwrite, rfl⟩ := saveLayout_eq_error hsave
      have hcourse := Course.unrecorded h hreport hdone hgiven (hfs ▸ hwrite)
      rw [hfs] at hcourse
      simp only [hsave]
      exact hcourse
    | ok after =>
      have hcourse := Course.complete h hreport hdone (hfs ▸ hsave)
      simp only [hsave, ← List.append_assoc]
      exact hcourse

theorem course_of_run (options : Options) (tag : Uuid) (before : FileSystem) :
    Course options tag before (run options tag before) := by
  unfold run prepare
  cases hboot : before.readAll options.boot with
  | error cause => exact .loaderUnread hboot
  | ok boot =>
    rcases readKernel_eq options before with
      ⟨kernel, hread, hkernel⟩ | ⟨path, cause, hgiven, hkernel, hread⟩
    · simp only [hread]
      cases hassemble : Image.assemble boot kernel options.config with
      | error failure => exact .unassembled ⟨hboot, hkernel⟩ hassemble
      | ok image =>
        obtain ⟨report, hreport⟩ := (Image.assembled_of_assemble hassemble).exists_report
        simp only [hreport]
        exact Prepared.course ⟨⟨hboot, hkernel⟩, hassemble⟩ hreport
    · simp only [hread]
      exact .kernelUnread hboot hgiven hkernel

theorem Inputs.readKernel_eq {fs : FileSystem} {boot : List UInt8} {kernel : Option (List UInt8)}
    (h : Inputs options fs boot kernel) :
    readKernel options fs = (kernelLines options, .ok kernel) := by
  have hkernel := h.kernel
  unfold readKernel kernelLines
  generalize options.kernel = given at hkernel ⊢
  cases hkernel with
  | none => rfl
  | some hread => simp only [hread]

/-- Once there is an image, it is delivered. -/
theorem Prepared.run_eq {boot : List UInt8} {kernel : Option (List UInt8)} {image : Image}
    {report : Report} (h : Prepared options before boot kernel image)
    (summary : Report.ofLayout image.layout = .ok report) :
    run options tag before =
      { deliver options image report tag before with
        notices := assemblyLines options ++ (deliver options image report tag before).notices } := by
  simp only [run, prepare, h.inputs.boot, h.inputs.readKernel_eq, h.assembled, summary]
  rfl

/-- A build goes no other way than the one that is open to it. -/
theorem run_of_course {outcome : Outcome} (h : Course options tag before outcome) :
    run options tag before = outcome := by
  cases h with
  | loaderUnread h =>
    simp only [run, prepare, h]
    rfl
  | kernelUnread loader given h =>
    simp only [run, prepare, loader, readKernel, given, h, inputLines, kernelLines]
    rfl
  | unassembled inputs h =>
    simp only [run, prepare, inputs.boot, inputs.readKernel_eq, h]
    rfl
  | @unpublished boot kernel image report failure prepared summary h =>
    rw [prepared.run_eq summary]
    simp only [deliver, publish_eq_publication]
    generalize publication options image tag before = written at h ⊢
    obtain ⟨result, fs, reached⟩ := written
    cases h
    rfl
  | @unrecorded boot kernel image report path cause prepared summary published given h =>
    rw [prepared.run_eq summary]
    simp only [deliver, publish_eq_publication]
    generalize publication options image tag before = written at published h ⊢
    obtain ⟨result, fs, reached⟩ := written
    cases published
    simp only [saveLayout, given, h]
    rfl
  | @complete boot kernel image report after prepared summary published recorded =>
    rw [prepared.run_eq summary]
    simp only [deliver, publish_eq_publication]
    generalize publication options image tag before = written at published recorded ⊢
    obtain ⟨result, fs, reached⟩ := written
    cases published
    simp only [recorded, allLines, writingLines, List.append_assoc]

/-- What has gone well when a build succeeds. -/
theorem complete_of_ok {report : Report} (h : (run options tag before).result = .ok report) :
    ∃ boot kernel image after, Prepared options before boot kernel image ∧
      Report.ofLayout image.layout = .ok report ∧
      (publication options image tag before).result = .ok () ∧
      saveLayout options image.layout (publication options image tag before).fs = .ok after ∧
      run options tag before = ⟨.ok report, allLines options report, after⟩ := by
  have hcourse := course_of_run options tag before
  generalize run options tag before = outcome at h hcourse ⊢
  cases hcourse with
  | loaderUnread _ => cases h
  | kernelUnread _ _ _ => cases h
  | unassembled _ _ => cases h
  | unpublished _ _ _ => cases h
  | unrecorded _ _ _ _ _ => cases h
  | complete prepared summary published recorded =>
    cases h
    exact ⟨_, _, _, _, prepared, summary, published, recorded, rfl⟩

/-! ## What the phases that write change -/

theorem Inputs.unique {fs : FileSystem} {boot boot' : List UInt8} {kernel kernel' : Option (List UInt8)}
    (h : Inputs options fs boot kernel) (h' : Inputs options fs boot' kernel') :
    boot = boot' ∧ kernel = kernel' := by
  refine ⟨Except.ok.inj (h.boot.symm.trans h'.boot), ?_⟩
  obtain ⟨-, hkernel⟩ := h
  obtain ⟨-, hkernel'⟩ := h'
  generalize options.kernel = given at hkernel hkernel'
  cases hkernel with
  | none =>
    cases hkernel'
    rfl
  | some hread =>
    cases hkernel' with
    | some hread' => rw [Except.ok.inj (hread.symm.trans hread')]

theorem Inputs.exists_kernel {fs : FileSystem} {boot : List UInt8} {kernel : Option (List UInt8)}
    {path : Path} (h : Inputs options fs boot kernel) (given : options.kernel = some path) :
    ∃ bytes, fs.readAll path = .ok bytes := by
  have hkernel := h.kernel
  rw [given] at hkernel
  cases hkernel with
  | some hread => exact ⟨_, hread⟩

variable {boot : List UInt8} {kernel : Option (List UInt8)} {image : Image}

/-- There is only one image. -/
theorem Prepared.unique {boot' : List UInt8} {kernel' : Option (List UInt8)} {image' : Image}
    (h : Prepared options before boot kernel image)
    (h' : Prepared options before boot' kernel' image') :
    boot = boot' ∧ kernel = kernel' ∧ image = image' := by
  obtain ⟨rfl, rfl⟩ := h.inputs.unique h'.inputs
  exact ⟨rfl, rfl, Except.ok.inj (h.assembled.symm.trans h'.assembled)⟩

theorem Prepared.replaced (h : Prepared options before boot kernel image)
    (hdone : (publication options image tag before).result = .ok ()) :
    ∃ goal, before.locate? options.output = some goal ∧
      Replaced goal image.bytes before (publication options image tag before).fs := by
  have hcases := (Image.assembled_of_assemble h.assembled).publish_cases options.output
    options.verify tag (Reporter.progress { quiet := options.quiet, colour := false }) before
  unfold publication at hdone ⊢
  rcases hcases with ⟨failure, after, reached, hrun, -⟩ | ⟨after, goal, staged, count, hrun, -, hp⟩
  · rw [hrun] at hdone
    cases hdone
  · rw [hrun]
    refine ⟨goal, hp.locate_output, hp.frame.replaced (by simp) ?_ hp.entry_goal⟩
    -- A directory would still be there.
    intro hdirectory
    have hstays := entry?_of_directory (hp.frame.directories goal hdirectory)
    rw [hp.entry_goal] at hstays
    cases hstays

theorem Prepared.sameOutside {failure : Failure IoError} (h : Prepared options before boot kernel image)
    (hfailed : (publication options image tag before).result = .error failure) :
    SameOutside ∅ before (publication options image tag before).fs := by
  have hcases := (Image.assembled_of_assemble h.assembled).publish_cases options.output
    options.verify tag (Reporter.progress { quiet := options.quiet, colour := false }) before
  unfold publication at hfailed ⊢
  rcases hcases with ⟨failure, after, reached, hrun, hframe⟩ | ⟨after, goal, staged, count, hrun, -⟩
  · rw [hrun]
    exact hframe.sameOutside
  · rw [hrun] at hfailed
    cases hfailed

/-- Keeping the record replaces one file, if it is wanted at all. -/
theorem saveLayout_eq_ok {layout : Layout} {fs after : FileSystem}
    (h : saveLayout options layout fs = .ok after) :
    options.layout = none ∧ after = fs ∨
      ∃ path place, options.layout = some path ∧ fs.locate? path = some place ∧
        Replaced place layout.toRecord fs after := by
  unfold saveLayout at h
  split at h
  · rename_i hpath
    cases h
    exact .inl ⟨hpath, rfl⟩
  · rename_i path hpath
    split at h
    · rename_i written hwrite
      cases h
      obtain ⟨place, hlocate, hreplaced⟩ := replaced_of_writeAll hwrite
      exact .inr ⟨path, place, hpath, hlocate, hreplaced⟩
    · cases h

/-! ## What the program makes of an outcome -/

theorem stdout_conclude (reporter : Reporter) (outcome : Outcome) :
    (Program.conclude reporter outcome).stdout = reporter.printAll outcome.notices := by
  unfold Program.conclude
  rcases outcome.result with (fault | problem) | report <;> rfl

theorem fs_conclude (reporter : Reporter) (outcome : Outcome) :
    (Program.conclude reporter outcome).fs = outcome.fs := by
  unfold Program.conclude
  rcases outcome.result with (fault | problem) | report <;> rfl

end Build

end BootImage
