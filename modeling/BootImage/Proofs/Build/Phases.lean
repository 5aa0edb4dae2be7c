import BootImage.Proofs.Build.Course
/-!
# A build goes through its phases

A build has three to five phases (`Build.phases`). `Phase.Ends` says of each of them when a build comes to
it, what it tells then, and what comes of it. A build goes through them up to the first that fails
(`Build.Goes`), and this says all of what it returns and tells (`Build.goes_of_run`).
-/

namespace BootImage

open FileSystem

namespace Build

/-! ## Phases -/

/-- A part of a build that can fail, with the path that the error will name. -/
inductive Phase
  | readLoader (path : Path)
  | readKernel (path : Path)
  | assemble (path : Path)
  | publish (path : Path)
  | record (path : Path)
deriving DecidableEq, Repr

namespace Phase

/-- What has failed, as the error tells it. -/
def complaint : Phase → String
  | .readLoader _ => "failed to read bootloader"
  | .readKernel _ => "failed to read kernel"
  | .assemble _ => "cannot assemble"
  | .publish _ => "failed to write image"
  | .record _ => "failed to write layout"

def path : Phase → Path
  | .readLoader path => path
  | .readKernel path => path
  | .assemble path => path
  | .publish path => path
  | .record path => path

end Phase

/-- The phases of a build in their order. Two of them have to be wanted. -/
def phases (options : Options) : List Phase :=
  .readLoader options.boot :: ((options.kernel.map .readKernel).toList ++
    .assemble options.output :: .publish options.output :: (options.layout.map .record).toList)

/-- Whether something has succeeded, and if not, why the build fails. -/
def verdict {ε α : Type} (f : ε → Failure BuildError) :
    Except ε α → Except (Failure BuildError) Unit
  | .ok _ => .ok ()
  | .error cause => .error (f cause)

/-- The build fails because the system has refused something. -/
def systemFailure (cause : SystemError) : Failure BuildError :=
  .error (.io (.system cause))

/-- A build comes to a phase, tells something, and the phase succeeds or fails. It comes there only
because what is needed for the phase has been read, assembled or published before. -/
inductive Phase.Ends (options : Options) (tag : Uuid) (before : FileSystem) :
    Phase → List Notice → Except (Failure BuildError) Unit → Prop
  | readLoader {read} (h : before.readAll options.boot = read) :
    Ends options tag before (.readLoader options.boot)
      [.step ("Reading bootloader " ++ options.boot.text)] (verdict systemFailure read)
  | readKernel {boot path read} (loader : before.readAll options.boot = .ok boot)
    (given : options.kernel = some path) (h : before.readAll path = read) :
    Ends options tag before (.readKernel path) [.step ("Reading kernel " ++ path.text)]
      (verdict systemFailure read)
  | assemble {boot kernel assembled} (inputs : Inputs options before boot kernel)
    (h : Image.assemble boot kernel options.config = assembled) :
    Ends options tag before (.assemble options.output) [.step "Assembling image..."]
      (verdict (Failure.map .assembly) assembled)
  | publish {boot kernel image count published} (prepared : Prepared options before boot kernel image)
    (counted : image.layout.sectorCount = .ok count)
    (h : (publication options image tag before).result = published) :
    Ends options tag before (.publish options.output)
      [.step ("Writing " ++ toString count ++ " sectors to " ++ options.output.text)]
      (verdict (Failure.map .io) published)
  | record {boot kernel image path written} (prepared : Prepared options before boot kernel image)
    (published : (publication options image tag before).result = .ok ())
    (given : options.layout = some path)
    (h : (publication options image tag before).fs.writeAll path image.layout.toRecord = written) :
    Ends options tag before (.record path) [] (verdict systemFailure written)

/-- A build goes through phases up to the first that fails, and this is what it tells on its way. -/
inductive Goes (options : Options) (tag : Uuid) (before : FileSystem) :
    List Phase → List Notice → Except (Failure Problem) Unit → Prop
  | done : Goes options tag before [] [] (.ok ())
  | stops {phase : Phase} {rest lines cause}
    (h : phase.Ends options tag before lines (.error cause)) :
    Goes options tag before (phase :: rest) lines
      (.error (failed phase.complaint phase.path cause))
  | goesOn {phase : Phase} {rest lines more result}
    (h : phase.Ends options tag before lines (.ok ()))
    (next : Goes options tag before rest more result) :
    Goes options tag before (phase :: rest) (lines ++ more) result

/-- What is told when all phases are behind. -/
def closing (options : Options) : Except (Failure Problem) Report → List Notice
  | .ok report => [.success ("Image written to " ++ options.output.text), .report report]
  | .error _ => []

variable {options : Options} {tag : Uuid} {before : FileSystem}

/-! ## A phase has one end -/

theorem Phase.Ends.unique {phase : Phase} {lines lines' : List Notice}
    {result result' : Except (Failure BuildError) Unit}
    (h : phase.Ends options tag before lines result)
    (h' : phase.Ends options tag before lines' result') : lines = lines' ∧ result = result' := by
  cases h with
  | readLoader hread =>
    cases h' with
    | readLoader hread' =>
      subst hread hread'
      exact ⟨rfl, rfl⟩
  | readKernel _ _ hread =>
    cases h' with
    | readKernel _ _ hread' =>
      subst hread hread'
      exact ⟨rfl, rfl⟩
  | assemble inputs hassemble =>
    cases h' with
    | assemble inputs' hassemble' =>
      obtain ⟨rfl, rfl⟩ := inputs.unique inputs'
      subst hassemble hassemble'
      exact ⟨rfl, rfl⟩
  | publish prepared counted hpublished =>
    cases h' with
    | publish prepared' counted' hpublished' =>
      obtain ⟨-, -, rfl⟩ := prepared.unique prepared'
      subst hpublished hpublished'
      rw [Except.ok.inj (counted.symm.trans counted')]
      exact ⟨rfl, rfl⟩
  | record prepared _ _ hwritten =>
    cases h' with
    | record prepared' _ _ hwritten' =>
      obtain ⟨-, -, rfl⟩ := prepared.unique prepared'
      subst hwritten hwritten'
      exact ⟨rfl, rfl⟩

/-- The phase is reached and succeeds. -/
def Phase.Succeeds (options : Options) (tag : Uuid) (before : FileSystem) (phase : Phase) : Prop :=
  ∃ lines, phase.Ends options tag before lines (.ok ())

/-- The phase is reached and fails, and those before it have succeeded. -/
def Phase.FailsFirst (options : Options) (tag : Uuid) (before : FileSystem) (phase : Phase)
    (cause : Failure BuildError) : Prop :=
  ∃ earlier later, phases options = earlier ++ phase :: later ∧
    (∀ done ∈ earlier, done.Succeeds options tag before) ∧
      ∃ lines, phase.Ends options tag before lines (.error cause)

theorem Goes.ok_iff {list : List Phase} {lines : List Notice} {result : Except (Failure Problem) Unit}
    (h : Goes options tag before list lines result) :
    result = .ok () ↔ ∀ phase ∈ list, phase.Succeeds options tag before := by
  induction h with
  | done => simp
  | @stops phase rest lines cause hends =>
    refine iff_of_false nofun fun hall => ?_
    obtain ⟨lines', hok⟩ := hall phase List.mem_cons_self
    exact absurd (hends.unique hok).2 nofun
  | @goesOn phase _ lines _ _ hends _ ih =>
    have hphase : phase.Succeeds options tag before := ⟨lines, hends⟩
    rw [ih, List.forall_mem_cons, and_iff_right hphase]

theorem Goes.failure {list : List Phase} {lines : List Notice} {failure : Failure Problem}
    (h : Goes options tag before list lines (.error failure)) :
    ∃ earlier phase later cause, list = earlier ++ phase :: later ∧
      (∀ done ∈ earlier, done.Succeeds options tag before) ∧
      (∃ lines, phase.Ends options tag before lines (.error cause)) ∧
      failure = failed phase.complaint phase.path cause := by
  generalize hresult : Except.error failure = result at h
  induction h with
  | done => cases hresult
  | @stops phase rest lines cause hends =>
    cases hresult
    exact ⟨[], phase, rest, cause, rfl, nofun, ⟨lines, hends⟩, rfl⟩
  | @goesOn done _ lines _ _ hends _ ih =>
    obtain ⟨earlier, phase, later, cause, rfl, hearlier, hphase, rfl⟩ := ih hresult
    refine ⟨done :: earlier, phase, later, cause, rfl, ?_, hphase, rfl⟩
    exact List.forall_mem_cons.2 ⟨⟨lines, hends⟩, hearlier⟩

/-! ## Every build goes through its phases -/

variable {boot : List UInt8} {kernel : Option (List UInt8)} {image : Image} {rest : List Phase}
variable {more : List Notice} {result : Except (Failure Problem) Unit}

theorem Inputs.goes (h : Inputs options before boot kernel)
    (next : Goes options tag before rest more result) :
    Goes options tag before
      (.readLoader options.boot :: ((options.kernel.map .readKernel).toList ++ rest))
      (inputLines options ++ more) result := by
  rw [inputLines, List.append_assoc]
  refine .goesOn (.readLoader h.boot) ?_
  rw [kernelLines]
  rcases hgiven : options.kernel with _ | path
  · exact next
  · obtain ⟨bytes, hread⟩ := h.exists_kernel hgiven
    exact .goesOn (.readKernel h.boot hgiven hread) next

theorem Prepared.goes (h : Prepared options before boot kernel image)
    (next : Goes options tag before rest more result) :
    Goes options tag before (.readLoader options.boot ::
      ((options.kernel.map .readKernel).toList ++ .assemble options.output :: rest))
      (assemblyLines options ++ more) result := by
  rw [assemblyLines, List.append_assoc]
  exact h.inputs.goes (.goesOn (.assemble h.inputs h.assembled) next)

theorem sectorCount_of_ofLayout {layout : Layout} {report : Report}
    (h : Report.ofLayout layout = .ok report) : layout.sectorCount = .ok report.sectorCount := by
  obtain ⟨count, hcount, h⟩ := bind_eq_ok h
  obtain ⟨start, -, h⟩ := bind_eq_ok h
  cases h
  exact hcount

theorem Prepared.goes_publish {report : Report} (h : Prepared options before boot kernel image)
    (summary : Report.ofLayout image.layout = .ok report)
    (published : (publication options image tag before).result = .ok ())
    (next : Goes options tag before (options.layout.map .record).toList more result) :
    Goes options tag before (phases options) (writingLines options report ++ more) result := by
  rw [writingLines, List.append_assoc]
  exact h.goes (.goesOn (.publish h (sectorCount_of_ofLayout summary) published) next)

theorem Prepared.goes_record {after : FileSystem} (h : Prepared options before boot kernel image)
    (published : (publication options image tag before).result = .ok ())
    (recorded : saveLayout options image.layout (publication options image tag before).fs =
      .ok after) : Goes options tag before (options.layout.map .record).toList [] (.ok ()) := by
  unfold saveLayout at recorded
  rcases hgiven : options.layout with _ | path
  · exact .done
  · simp only [hgiven] at recorded
    split at recorded
    · rename_i hwritten
      exact .goesOn (.record h published hgiven hwritten) .done
    · cases recorded

/-- What a build tells, and whether it succeeds, is what comes of going through its phases. -/
theorem goes_of_run (options : Options) (tag : Uuid) (before : FileSystem) :
    ∃ lines, Goes options tag before (phases options) lines
        ((run options tag before).result.map fun _ => ()) ∧
      (run options tag before).notices = lines ++ closing options (run options tag before).result := by
  have hcourse := course_of_run options tag before
  generalize run options tag before = outcome at hcourse ⊢
  cases hcourse with
  | loaderUnread hread =>
    exact ⟨loaderLines options, .stops (.readLoader hread), (List.append_nil _).symm⟩
  | kernelUnread loader given hread =>
    refine ⟨inputLines options, ?_, (List.append_nil _).symm⟩
    rw [phases, inputLines, kernelLines, given]
    exact .goesOn (.readLoader loader) (.stops (.readKernel loader given hread))
  | unassembled inputs hrefused =>
    exact ⟨assemblyLines options, inputs.goes (.stops (.assemble inputs hrefused)),
      (List.append_nil _).symm⟩
  | @unpublished boot kernel image report failure prepared summary hrefused =>
    have hcount := sectorCount_of_ofLayout summary
    exact ⟨writingLines options report, prepared.goes (.stops (.publish prepared hcount hrefused)),
      (List.append_nil _).symm⟩
  | @unrecorded boot kernel image report path cause prepared summary published given hrefused =>
    have hrecord : Goes options tag before (options.layout.map .record).toList []
        (.error (refused "failed to write layout" path cause)) := by
      rw [given]
      exact .stops (.record prepared published given hrefused)
    refine ⟨_, prepared.goes_publish summary published hrecord, ?_⟩
    rw [List.append_nil]
    exact (List.append_nil _).symm
  | complete prepared summary published recorded =>
    refine ⟨_, prepared.goes_publish summary published (prepared.goes_record published recorded), ?_⟩
    rw [List.append_nil]
    rfl

end Build

end BootImage
