import BootImage.Disk.Publish
import BootImage.Proofs.Disk.ReadBack
import Mathlib.Logic.Function.Basic
/-!
# Writing images step by step

A `Job` writes one image to one output, as `Image.publish` does, but in steps between which others may
have theirs: it makes the staging file, writes the sectors, compares them if asked to, and commits. A
schedule says whose step it is; `Job.run` runs any number of jobs on one tree by it.

`Job.run_alone` says that the steps are the right ones: without others they are `Image.publish`.
-/

namespace BootImage

/-- An image that is to be written. -/
structure Job where
  image : Image
  output : Path
  verify : Bool
  tag : Uuid

namespace Job

/-- How far a job is. -/
inductive Stage
  | ready
  /-- Before the next sector, with the sectors that are still to be written. -/
  | writing (disk : Disk) (sector : Nat) (rest : List (List UInt8))
  /-- Before the next comparison, with the number of sectors that are still to be compared. -/
  | checking (disk : Disk) (sector count : Nat)
  | ended (result : Except (Failure IoError) Unit)

/-- Whether the image has been published. -/
def Stage.done : Stage → Bool
  | .ended (.ok ()) => true
  | _ => false

theorem Stage.done_iff {stage : Stage} : stage.done = true ↔ stage = .ended (.ok ()) := by
  rcases stage with _ | _ | _ | (failure | ⟨⟩) <;> simp [Stage.done]

/-! ## One step -/

/-- A step that fails is the last one, and gives the disk up. -/
def abandon (disk : Disk) (failure : Failure IoError) (fs : FileSystem) : Stage × FileSystem :=
  (.ended (.error failure), disk.discard fs)

def finish (disk : Disk) (fs : FileSystem) : Stage × FileSystem :=
  match disk.commit fs with
  | (.ok (), fs) => (.ended (.ok ()), fs)
  | (.error cause, fs) => (.ended (.error (.error cause)), fs)

def begin (job : Job) (fs : FileSystem) : Stage × FileSystem :=
  match job.image.layout.sectorCount with
  | .error fault => (.ended (.error (.fault fault)), fs)
  | .ok count =>
    match Disk.create job.output job.image.layout.sectorSize count job.tag fs with
    | (.error failure, fs) => (.ended (.error failure), fs)
    | (.ok disk, fs) =>
      match job.image.sectors with
      | .error fault => abandon disk (.fault fault) fs
      | .ok sectors => (.writing disk 0 sectors, fs)

/-- The next step of a job. A job that has ended stays as it is. -/
def step (job : Job) : Stage → FileSystem → Stage × FileSystem
  | .ready, fs => job.begin fs
  | .writing disk sector (data :: rest), fs =>
    match disk.write sector data fs with
    | .error failure => abandon disk failure fs
    | .ok written => (.writing disk (sector + 1) rest, written)
  | .writing disk _ [], fs =>
    if job.verify then
      match disk.checkGeometry job.image with
      | .error failure => abandon disk failure fs
      | .ok count => (.checking disk 0 count, fs)
    else
      finish disk fs
  | .checking disk sector (count + 1), fs =>
    match disk.compareSectors job.image.bytes.toArray fs 1 sector with
    | .error failure => abandon disk failure fs
    | .ok () => (.checking disk (sector + 1) count, fs)
  | .checking disk _ 0, fs => finish disk fs
  | .ended result, fs => (.ended result, fs)

/-- How many steps the job has: one for each sector, as many again for the comparisons, which begin
with the geometry, and the first and the last one. -/
def stepCount (job : Job) : Nat :=
  let count := job.image.layout.imageLen / job.image.layout.sectorSize
  if job.verify then 2 * count + 3 else count + 2

/-! ## Many jobs on one tree -/

/-- How far each job is, and the files at that moment. -/
structure State (ι : Type) where
  stages : ι → Stage
  fs : FileSystem

variable {ι : Type} [DecidableEq ι]

/-- One job takes its next step. -/
def State.advance (state : State ι) (jobs : ι → Job) (i : ι) : State ι :=
  let next := (jobs i).step (state.stages i) state.fs
  ⟨Function.update state.stages i next.1, next.2⟩

/-- What has become of the jobs when each has taken the steps that the schedule gives it. The last step
comes first in a schedule. -/
def run (jobs : ι → Job) (start : FileSystem) : List ι → State ι
  | [] => ⟨fun _ => .ready, start⟩
  | i :: earlier => (run jobs start earlier).advance jobs i

/-- The jobs that have published their images, the latest one first. -/
def commits (jobs : ι → Job) (start : FileSystem) : List ι → List ι
  | [] => []
  | i :: earlier =>
    if !((run jobs start earlier).stages i).done &&
        ((run jobs start (i :: earlier)).stages i).done then
      i :: commits jobs start earlier
    else
      commits jobs start earlier

/-! ## A job alone -/

/-- So many steps, one after the other. -/
def advanceBy (job : Job) : Nat → Stage × FileSystem → Stage × FileSystem
  | 0, now => now
  | count + 1, now =>
    let last := job.advanceBy count now
    job.step last.1 last.2

theorem advanceBy_succ (job : Job) (count : Nat) (stage : Stage) (fs : FileSystem) :
    job.advanceBy (count + 1) (stage, fs) = job.advanceBy count (job.step stage fs) := by
  induction count with
  | zero => rfl
  | succ count ih => rw [advanceBy, ih, advanceBy]

/-- If nobody else takes a step, the job ends so. -/
def Ends (job : Job) (stage : Stage) (fs : FileSystem) (result : Except (Failure IoError) Unit)
    (after : FileSystem) : Prop :=
  ∃ count, job.advanceBy count (stage, fs) = (.ended result, after)

variable {job : Job} {disk : Disk} {stage next : Stage} {fs now after : FileSystem}
  {result : Except (Failure IoError) Unit}

theorem ends_ended (job : Job) (result : Except (Failure IoError) Unit) (fs : FileSystem) :
    job.Ends (.ended result) fs result fs :=
  ⟨0, rfl⟩

theorem Ends.of_step (h : job.Ends next now result after) (hs : job.step stage fs = (next, now)) :
    job.Ends stage fs result after := by
  obtain ⟨count, hcount⟩ := h
  exact ⟨count + 1, by rw [advanceBy_succ, hs, hcount]⟩

/-- What becomes of a disk when all its sectors are written and a comparison has answered. -/
def settle (disk : Disk) (compared : Except (Failure IoError) Unit) (fs : FileSystem) :
    Except (Failure IoError) Unit × FileSystem :=
  match compared with
  | .error failure => (.error failure, disk.discard fs)
  | .ok () => ((disk.commit fs).1.mapError .error, (disk.commit fs).2)

theorem ends_finish (hs : job.step stage fs = finish disk fs) :
    job.Ends stage fs (settle disk (.ok ()) fs).1 (settle disk (.ok ()) fs).2 := by
  refine (ends_ended job _ _).of_step (hs.trans ?_)
  unfold finish settle
  rcases disk.commit fs with ⟨cause | ⟨⟩, after⟩ <;> rfl

theorem ends_checking (count sector : Nat) :
    job.Ends (.checking disk sector count) fs
      (settle disk (disk.compareSectors job.image.bytes.toArray fs count sector) fs).1
      (settle disk (disk.compareSectors job.image.bytes.toArray fs count sector) fs).2 := by
  induction count generalizing sector with
  | zero => exact ends_finish rfl
  | succ count ih =>
    rw [Disk.compareSectors_succ]
    cases hone : disk.compareSectors job.image.bytes.toArray fs 1 sector with
    | error failure =>
      refine (ends_ended job _ _).of_step ?_
      simp only [step, hone, abandon]
      rfl
    | ok _ =>
      refine (ih (sector + 1)).of_step ?_
      simp only [step, hone]

theorem ends_written (sector : Nat) :
    job.Ends (.writing disk sector []) fs
      (settle disk (if job.verify then disk.verify job.image fs else .ok ()) fs).1
      (settle disk (if job.verify then disk.verify job.image fs else .ok ()) fs).2 := by
  cases hverify : job.verify with
  | false =>
    apply ends_finish
    simp only [step, hverify, Bool.false_eq_true, if_false]
  | true =>
    simp only [if_true, Disk.verify_eq]
    cases hgeometry : disk.checkGeometry job.image with
    | error failure =>
      refine (ends_ended job _ _).of_step ?_
      simp only [step, hverify, if_true, hgeometry, abandon]
      rfl
    | ok count =>
      refine (ends_checking count 0).of_step ?_
      simp only [step, hverify, if_true, hgeometry]

theorem ends_writing (rest : List (List UInt8)) (sector : Nat) (fs : FileSystem)
    (progress : Progress) :
    match disk.writeSectors rest sector fs progress with
    | (.error failure, written, _) =>
      job.Ends (.writing disk sector rest) fs (.error failure) (disk.discard written)
    | (.ok (), written, _) =>
      job.Ends (.writing disk sector rest) fs
        (settle disk (if job.verify then disk.verify job.image written else .ok ()) written).1
        (settle disk (if job.verify then disk.verify job.image written else .ok ()) written).2 := by
  induction rest generalizing sector fs progress with
  | nil => exact ends_written sector
  | cons data rest ih =>
    rw [Disk.writeSectors]
    cases hwrite : disk.write sector data fs with
    | error failure =>
      refine (ends_ended job _ _).of_step ?_
      simp only [step, hwrite, abandon]
    | ok written =>
      have hstep : job.step (.writing disk sector (data :: rest)) fs =
          (.writing disk (sector + 1) rest, written) := by
        simp only [step, hwrite]
      have hrest := ih (sector + 1) written progress.advance
      simp only
      rcases hrun : disk.writeSectors rest (sector + 1) written progress.advance with
        ⟨failure | ⟨⟩, final, reached⟩
      · rw [hrun] at hrest
        exact Ends.of_step hrest hstep
      · rw [hrun] at hrest
        exact Ends.of_step hrest hstep

/-- When the disk is open and the sectors are cut, `Image.publish` writes them and settles. -/
theorem publish_eq_settle {image : Image} {output : Path} {tag : Uuid} {count : Nat}
    {sectors : List (List UInt8)} (verify : Bool) (progress : Progress)
    (hcount : image.layout.sectorCount = .ok count)
    (hcreate : Disk.create output image.layout.sectorSize count tag fs = (.ok disk, now))
    (hsectors : image.sectors = .ok sectors) :
    image.publish output verify tag progress fs =
      match disk.writeSectors sectors 0 now (progress.ofLength count) with
      | (.error failure, written, reached) => ⟨.error failure, disk.discard written, reached⟩
      | (.ok (), written, reached) =>
        let settled := settle disk (if verify then disk.verify image written else .ok ()) written
        ⟨settled.1, settled.2, reached⟩ := by
  simp only [Image.publish, Image.publishThrough, hcount, hcreate, hsectors]
  rcases disk.writeSectors sectors 0 now (progress.ofLength count) with
    ⟨failure | ⟨⟩, written, reached⟩
  · rfl
  · cases hcompared : (if verify = true then disk.verify image written else .ok () :
        Except (Failure IoError) Unit) with
    | error failure => simp only [hcompared, settle]
    | ok _ =>
      simp only [hcompared, settle]
      rcases disk.commit written with ⟨cause | ⟨⟩, after⟩ <;> rfl

/-- Alone, a job ends as `Image.publish` does. -/
theorem ends_ready (job : Job) (progress : Progress) (fs : FileSystem) :
    job.Ends .ready fs (job.image.publish job.output job.verify job.tag progress fs).result
      (job.image.publish job.output job.verify job.tag progress fs).fs := by
  cases hcount : job.image.layout.sectorCount with
  | error fault =>
    refine (ends_ended job _ _).of_step ?_
    simp only [step, begin, Image.publish, Image.publishThrough, hcount]
  | ok count =>
    rcases hcreate : Disk.create job.output job.image.layout.sectorSize count job.tag fs with
      ⟨failure | disk, created⟩
    · refine (ends_ended job _ _).of_step ?_
      simp only [step, begin, Image.publish, Image.publishThrough, hcount, hcreate]
    · cases hsectors : job.image.sectors with
      | error fault =>
        refine (ends_ended job _ _).of_step ?_
        simp only [step, begin, Image.publish, Image.publishThrough, hcount, hcreate, hsectors, abandon]
      | ok sectors =>
        have hstep : job.step .ready fs = (.writing disk 0 sectors, created) := by
          simp only [step, begin, hcount, hcreate, hsectors]
        have hwriting := @ends_writing job disk sectors 0 created (progress.ofLength count)
        rw [publish_eq_settle job.verify progress hcount hcreate hsectors]
        rcases hrun : disk.writeSectors sectors 0 created (progress.ofLength count) with
          ⟨failure | ⟨⟩, written, reached⟩
        · rw [hrun] at hwriting
          exact hwriting.of_step hstep
        · rw [hrun] at hwriting
          exact hwriting.of_step hstep

theorem run_replicate (jobs : ι → Job) (start : FileSystem) (i : ι) (count : Nat) :
    run jobs start (List.replicate count i) =
      ⟨Function.update (fun _ => .ready) i ((jobs i).advanceBy count (.ready, start)).1,
        ((jobs i).advanceBy count (.ready, start)).2⟩ := by
  induction count with
  | zero =>
    rw [List.replicate_zero, run, advanceBy, Function.update_eq_self]
  | succ count ih =>
    rw [List.replicate_succ, run, ih, State.advance, advanceBy]
    simp only [Function.update_self, Function.update_idem]

/-- A job that has all steps to itself does what `Image.publish` does, whether or not it succeeds. -/
theorem run_alone (jobs : ι → Job) (start : FileSystem) (i : ι) (progress : Progress) :
    ∃ count, run jobs start (List.replicate count i) =
      let publication := (jobs i).image.publish (jobs i).output (jobs i).verify (jobs i).tag progress start
      ⟨Function.update (fun _ => .ready) i (.ended publication.result), publication.fs⟩ := by
  obtain ⟨count, hcount⟩ := ends_ready (jobs i) progress start
  exact ⟨count, by rw [run_replicate, hcount]⟩

end Job

end BootImage
