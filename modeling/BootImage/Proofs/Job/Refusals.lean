import BootImage.Proofs.Image.Publish
import BootImage.Proofs.Job.Steps
/-!
# Jobs on a system that refuses

The operations on files refuse what the tree gives a reason to refuse. A system has other reasons: a device
is full, or it fails, and then any step of a job may be refused, a write even when some of its bytes have been
written (`Job.refuse`). The job gives its disk up and ends. So a job keeps nothing in the tree but its staging
file until it has ended (`Job.keeps_advanceUnder`), and whatever is refused on the way, writing an image is all
or nothing (`Job.ends_all_or_nothing`).
-/

namespace BootImage

open FileSystem

namespace Job

/-! ## Refused steps -/

/-- The next step of a job if the system refuses it when `done` of it has been done: so many bytes of a sector,
or, of the first step, the staging file. A job that has ended asks for nothing. -/
def refuse (job : Job) (cause : SystemError) (done : Nat) : Stage → FileSystem → Stage × FileSystem
  | .ready, fs =>
    if done = 0 then
      (.ended (.error (.error (.system cause))), fs)
    else
      match job.begin fs with
      | (.writing disk _ _, opened) => abandon disk (.error (.system cause)) opened
      | (_, after) => (.ended (.error (.error (.system cause))), after)
  | .writing disk sector (data :: _), fs =>
    abandon disk (.error (.system cause))
      (fs.writeAt disk.file (sector * disk.sectorSize) (data.take done))
  | .writing disk _ [], fs => abandon disk (.error (.system cause)) fs
  | .checking disk _ _, fs => abandon disk (.error (.system cause)) fs
  | .ended result, fs => (.ended result, fs)

/-- So many steps on a system that refuses some of them, by their numbers. -/
def advanceUnder (job : Job) (refusals : Nat → Option (SystemError × Nat)) :
    Nat → Stage × FileSystem → Stage × FileSystem
  | 0, now => now
  | count + 1, now =>
    let last := job.advanceUnder refusals count now
    match refusals count with
    | none => job.step last.1 last.2
    | some (cause, done) => job.refuse cause done last.1 last.2

/-- If nothing else comes in between, the job ends so on a system with such refusals. -/
def EndsUnder (job : Job) (refusals : Nat → Option (SystemError × Nat)) (before : FileSystem)
    (result : Except (Failure IoError) Unit) (after : FileSystem) : Prop :=
  ∃ count, job.advanceUnder refusals count (.ready, before) = (.ended result, after)

/-! ## What a job keeps in the tree -/

/-- All that a job has in a tree that was `before` when it began is its open disk; when it has failed, it has
nothing there. -/
inductive Keeps (before : FileSystem) : Stage → FileSystem → Prop
  | ready : Keeps before .ready before
  | writing {disk place sector rest fs} (pending : disk.Pending place before fs)
    (fresh : before.contents.length ≤ disk.file) : Keeps before (.writing disk sector rest) fs
  | checking {disk place sector count fs} (pending : disk.Pending place before fs)
    (fresh : before.contents.length ≤ disk.file) : Keeps before (.checking disk sector count) fs
  | failed {failure fs} (frame : Frame ∅ ∅ before fs) : Keeps before (.ended (.error failure)) fs
  | done {fs} : Keeps before (.ended (.ok ())) fs

variable {job : Job} {disk : Disk} {place : Location} {stage : Stage} {before fs : FileSystem}
  {refusals : Nat → Option (SystemError × Nat)}

theorem keeps_abandon (h : disk.Pending place before fs) (failure : Failure IoError) :
    Keeps before (abandon disk failure fs).1 (abandon disk failure fs).2 :=
  .failed h.discard

theorem keeps_finish (h : disk.Pending place before fs) :
    Keeps before (finish disk fs).1 (finish disk fs).2 := by
  unfold finish
  rcases hcommit : disk.commit fs with ⟨cause | ⟨⟩, after⟩
  · exact .failed (h.commit_error hcommit)
  · exact .done

/-- With its first step a job fails or it has a disk to write. -/
theorem keeps_begin (job : Job) (before : FileSystem) :
    (∃ failure after, job.begin before = (.ended (.error failure), after) ∧ Frame ∅ ∅ before after) ∨
      ∃ disk place sectors opened, job.begin before = (.writing disk 0 sectors, opened) ∧
        disk.Pending place before opened ∧ before.contents.length ≤ disk.file := by
  unfold begin
  cases job.image.layout.sectorCount with
  | error fault => exact .inl ⟨_, _, rfl, .refl before⟩
  | ok count =>
    rcases hcreate : Disk.create job.output job.image.layout.sectorSize count job.tag before with
      ⟨failure | disk, created⟩
    · simp only [hcreate]
      exact .inl ⟨_, _, rfl, Disk.create_error hcreate⟩
    · obtain ⟨hdisk, -, -, place, hpending⟩ := Disk.create_ok hcreate
      simp only [hcreate]
      cases job.image.sectors with
      | error fault => exact .inl ⟨_, _, rfl, hpending.discard⟩
      | ok sectors =>
        exact .inr ⟨_, _, _, _, rfl, hpending, by rw [hdisk]; exact Nat.le_refl _⟩

theorem keeps_step_ready (job : Job) (before : FileSystem) :
    Keeps before (job.step .ready before).1 (job.step .ready before).2 := by
  simp only [step]
  rcases keeps_begin job before with ⟨failure, after, hfailed, hframe⟩ | ⟨disk, place, sectors, opened, hopened,
    hpending, hfresh⟩
  · rw [hfailed]
    exact .failed hframe
  · rw [hopened]
    exact .writing hpending hfresh

/-- A step leaves nothing else in the tree. -/
theorem keeps_step (h : Keeps before stage fs) :
    Keeps before (job.step stage fs).1 (job.step stage fs).2 := by
  cases h with
  | ready => exact keeps_step_ready job _
  | @writing disk place sector rest _ pending fresh =>
    cases rest with
    | nil =>
      simp only [step]
      split
      · cases disk.checkGeometry job.image with
        | error failure => exact keeps_abandon pending _
        | ok count => exact .checking pending fresh
      · exact keeps_finish pending
    | cons data rest =>
      cases hwrite : disk.write sector data fs with
      | error failure =>
        simp only [step, hwrite]
        exact keeps_abandon pending _
      | ok written =>
        simp only [step, hwrite]
        exact .writing (pending.write fresh (Disk.frame_of_write pending.staged.live hwrite)) fresh
  | @checking disk place sector count _ pending fresh =>
    cases count with
    | zero => exact keeps_finish pending
    | succ count =>
      simp only [step]
      cases disk.compareSectors job.image.bytes.toArray fs 1 sector with
      | error failure => exact keeps_abandon pending _
      | ok _ => exact .checking pending fresh
  | failed frame => exact .failed frame
  | done => exact .done

theorem keeps_refuse_ready (job : Job) (cause : SystemError) (done : Nat) (before : FileSystem) :
    Keeps before (job.refuse cause done .ready before).1 (job.refuse cause done .ready before).2 := by
  simp only [refuse]
  split
  · exact .failed (.refl before)
  · rcases keeps_begin job before with ⟨failure, after, hfailed, hframe⟩ | ⟨disk, place, sectors, opened,
      hopened, hpending, -⟩
    · rw [hfailed]
      exact .failed hframe
    · rw [hopened]
      exact keeps_abandon hpending _

/-- A refused step neither, whatever has been done of it. -/
theorem keeps_refuse (h : Keeps before stage fs) (cause : SystemError) (done : Nat) :
    Keeps before (job.refuse cause done stage fs).1 (job.refuse cause done stage fs).2 := by
  cases h with
  | ready => exact keeps_refuse_ready job cause done _
  | @writing disk place sector rest _ pending fresh =>
    cases rest with
    | nil => exact keeps_abandon pending _
    | cons data rest =>
      exact keeps_abandon (pending.write fresh (frame_setContent pending.staged.live _)) _
  | checking pending fresh => exact keeps_abandon pending _
  | failed frame => exact .failed frame
  | done => exact .done

/-- Nor does any number of steps, whichever of them are refused. -/
theorem keeps_advanceUnder (job : Job) (refusals : Nat → Option (SystemError × Nat)) (before : FileSystem)
    (count : Nat) : Keeps before (job.advanceUnder refusals count (.ready, before)).1
      (job.advanceUnder refusals count (.ready, before)).2 := by
  induction count with
  | zero => exact .ready
  | succ count ih =>
    rw [advanceUnder]
    cases refusals count with
    | none => exact keeps_step ih
    | some refusal => exact keeps_refuse ih refusal.1 refusal.2

/-! ## How a job ends -/

/-- A job that has failed has left nothing. -/
theorem EndsUnder.sameOutside {failure : Failure IoError} {after : FileSystem}
    (h : job.EndsUnder refusals before (.error failure) after) : SameOutside ∅ before after := by
  obtain ⟨count, hended⟩ := h
  have hkeeps := job.keeps_advanceUnder refusals before count
  rw [hended] at hkeeps
  cases hkeeps with
  | failed frame => exact frame.sameOutside

/-- A step that is refused is the last one, and the refusal is what comes of the job. -/
theorem exists_refuse (job : Job) (cause : SystemError) (done : Nat)
    (hrunning : ∀ result, stage ≠ .ended result) (fs : FileSystem) :
    ∃ after, job.refuse cause done stage fs = (.ended (.error (.error (.system cause))), after) := by
  cases stage with
  | ready =>
    simp only [refuse]
    split
    · exact ⟨_, rfl⟩
    · split <;> exact ⟨_, rfl⟩
  | writing disk sector rest => cases rest <;> exact ⟨_, rfl⟩
  | checking disk sector count => exact ⟨_, rfl⟩
  | ended result => exact absurd rfl (hrunning result)

/-- As long as no step is refused, the system makes no difference. -/
theorem advanceUnder_eq (job : Job) (before : FileSystem) {count : Nat}
    (hgranted : ∀ i < count, refusals i = none) :
    job.advanceUnder refusals count (.ready, before) = job.advanceBy count (.ready, before) := by
  induction count with
  | zero => rfl
  | succ count ih =>
    rw [advanceUnder, advanceBy, ih fun i hi => hgranted i (Nat.lt_succ_of_lt hi),
      hgranted count (Nat.lt_succ_self count)]

/-- The first refusal that a job meets before it has ended ends it, and nothing is left of it. -/
theorem ends_of_refused {cause : SystemError} {done count : Nat}
    (hgranted : ∀ i < count, refusals i = none) (hrefused : refusals count = some (cause, done))
    (hrunning : ∀ result, (job.advanceBy count (.ready, before)).1 ≠ .ended result) :
    ∃ after, job.EndsUnder refusals before (.error (.error (.system cause))) after ∧
      SameOutside ∅ before after := by
  obtain ⟨after, hlast⟩ :=
    job.exists_refuse cause done hrunning (job.advanceBy count (.ready, before)).2
  have hends : job.EndsUnder refusals before (.error (.error (.system cause))) after := by
    refine ⟨count + 1, ?_⟩
    rw [advanceUnder, advanceUnder_eq job before hgranted, hrefused]
    exact hlast
  exact ⟨after, hends, hends.sameOutside⟩

/-- So many steps go as on a system that refuses nothing, unless the job has ended with a refusal. -/
theorem advanceUnder_cases (job : Job) (refusals : Nat → Option (SystemError × Nat)) (before : FileSystem)
    (count : Nat) :
    job.advanceUnder refusals count (.ready, before) = job.advanceBy count (.ready, before) ∨
      ∃ cause after, job.advanceUnder refusals count (.ready, before) =
        (.ended (.error (.error (.system cause))), after) := by
  induction count with
  | zero => exact .inl rfl
  | succ count ih =>
    rw [advanceUnder, advanceBy]
    rcases ih with heq | ⟨cause, after, hended⟩
    · rw [heq]
      cases refusals count with
      | none => exact .inl rfl
      | some refusal =>
        rcases job.advanceBy count (.ready, before) with ⟨stage, fs⟩
        by_cases hrunning : ∀ result, stage ≠ .ended result
        · obtain ⟨after, hlast⟩ := job.exists_refuse refusal.1 refusal.2 hrunning fs
          exact .inr ⟨refusal.1, after, hlast⟩
        · push Not at hrunning
          obtain ⟨result, rfl⟩ := hrunning
          exact .inl rfl
    · rw [hended]
      cases refusals count <;> exact .inr ⟨cause, after, rfl⟩

/-- A job ends as `Image.publish` does, unless a refusal ends it. -/
theorem ends_under (job : Job) (refusals : Nat → Option (SystemError × Nat)) (progress : Progress)
    (before : FileSystem) :
    let publication := job.image.publish job.output job.verify job.tag progress before
    job.EndsUnder refusals before publication.result publication.fs ∨
      ∃ cause after, job.EndsUnder refusals before (.error (.error (.system cause))) after := by
  intro publication
  obtain ⟨count, hcount⟩ := job.ends_ready progress before
  rcases job.advanceUnder_cases refusals before count with heq | ⟨cause, after, hended⟩
  · exact .inl ⟨count, heq.trans hcount⟩
  · exact .inr ⟨cause, after, count, hended⟩

/-- Whatever the system refuses, the job ends: with the image at its output and no other entry changed, or with
every entry as it was. -/
theorem ends_all_or_nothing {boot : List UInt8} {kernel : Option (List UInt8)} {config : Config}
    (h : Image.assemble boot kernel config = .ok job.image)
    (refusals : Nat → Option (SystemError × Nat)) (before : FileSystem) :
    (∃ failure after, job.EndsUnder refusals before (.error failure) after ∧ SameOutside ∅ before after) ∨
      ∃ after goal staged, job.EndsUnder refusals before (.ok ()) after ∧
        job.image.Published job.output job.tag before after goal staged := by
  rcases job.ends_under refusals .fresh before with hends | ⟨cause, after, hends⟩
  · rcases (Image.assembled_of_assemble h).publish_cases job.output job.verify job.tag .fresh before with
      ⟨failure, after, reached, hrun, -⟩ | ⟨after, goal, staged, count, hrun, -, hpublished⟩
    · rw [hrun] at hends
      exact .inl ⟨failure, after, hends, hends.sameOutside⟩
    · rw [hrun] at hends
      exact .inr ⟨after, goal, staged, hends, hpublished⟩
  · exact .inl ⟨_, after, hends, hends.sameOutside⟩

end Job

end BootImage
