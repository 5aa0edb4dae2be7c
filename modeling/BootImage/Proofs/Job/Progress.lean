import BootImage.Proofs.Job.Steps
/-!
# One job among others

`Job.At` says how far a job is after so many steps and what it has in the tree: nothing before its first
step, then a disk of its own with the sectors it has written, and nothing again when it has ended, which
it does with success. Its own next step takes it one further (`Job.At.step`), and the steps of others
leave it where it is (`Job.At.undisturbed`), because all they touch is their staging file and, when
they commit, their output (`Job.Effect`).
-/

namespace BootImage

open FileSystem

namespace Job

/-- The array has the sectors of the job's image. -/
structure Cut (job : Job) (whole : SectorArray) : Prop where
  sectors_eq : job.image.sectors = .ok whole.blocks
  sectorSize_eq : whole.sectorSize = job.image.layout.sectorSize
  sectorCount_eq : whole.sectorCount = job.image.layout.imageLen / job.image.layout.sectorSize
  counted : job.image.layout.sectorCount = .ok whole.sectorCount
  bytes_eq : whole.bytes = job.image.bytes
  fits : whole.sectorSize * whole.sectorCount < lengthLimit

theorem cut_of_assembled {boot : List UInt8} {kernel : Option (List UInt8)} {config : Config}
    {job : Job} (h : Image.Assembled boot kernel config job.image) : job.Cut h.array where
  sectors_eq := h.sectors_eq
  sectorSize_eq := rfl
  sectorCount_eq := h.sectorCount_array
  counted := by rw [h.sectorCount_array, h.sectorCount_eq]
  bytes_eq := h.bytes_array
  fits := h.fits_array

theorem Cut.stepCount_eq {job : Job} {whole : SectorArray} (h : job.Cut whole) :
    job.stepCount =
      if job.verify then 2 * whole.sectorCount + 3 else whole.sectorCount + 2 := by
  rw [stepCount, h.sectorCount_eq]

/-- The disk is the job's, staged at `place`, and its first sectors are written. -/
structure Owns (job : Job) (whole : SectorArray) (place : Location) (disk : Disk) (sector : Nat)
    (fs : FileSystem) : Prop where
  staged : disk.Staged place fs
  target : disk.target = job.output
  stored : ∃ array, disk.Stores array fs ∧ array.sectorSize = whole.sectorSize ∧
    array.sectorCount = whole.sectorCount ∧ array.blocks.take sector = whole.blocks.take sector

/-- How far a job is after so many steps. -/
inductive At (job : Job) (whole : SectorArray) (place : Location) (fs : FileSystem) :
    Nat → Stage → Prop
  | ready (vacant : fs.node? place = none) : At job whole place fs 0 .ready
  | writing {disk sector} (owns : job.Owns whole place disk sector fs)
    (hle : sector ≤ whole.sectorCount) :
    At job whole place fs (sector + 1) (.writing disk sector (whole.blocks.drop sector))
  | checking {disk sector} (verify : job.verify = true)
    (owns : job.Owns whole place disk whole.sectorCount fs) (hle : sector ≤ whole.sectorCount) :
    At job whole place fs (whole.sectorCount + 2 + sector)
      (.checking disk sector (whole.sectorCount - sector))
  | ended {steps} (vacant : fs.node? place = none) (hle : job.stepCount ≤ steps) :
    At job whole place fs steps (.ended (.ok ()))

/-- What the step of a job does to the tree, whose staging file is at `place` and whose output is at
`goal`. -/
inductive Effect (image : Image) (place goal : Location) (before after : FileSystem) :
    (commits : Bool) → Prop
  | quiet {ids} (frame : Frame {place} ids before after)
    (own : ∀ id ∈ ids, before.node? place = some (.file id)) :
    Effect image place goal before after false
  | commit (frame : Frame {place, goal} ∅ before after)
    (holds : after.entry? goal = some (.file image.bytes)) :
    Effect image place goal before after true

variable {job : Job} {whole : SectorArray} {place goal : Location} {disk : Disk} {stage : Stage}
  {steps sector : Nat} {fs after : FileSystem}

theorem Effect.refl (image : Image) (place goal : Location) (fs : FileSystem) :
    Effect image place goal fs fs false :=
  .quiet ((Frame.refl fs).mono (Set.empty_subset _) (Set.Subset.refl _)) (by simp)

/-! ## What the number of steps tells -/

/-- A job has ended, with success, as soon as it has taken its steps. -/
theorem At.ended_iff (h : job.At whole place fs steps stage) (hcut : job.Cut whole) :
    stage = .ended (.ok ()) ↔ job.stepCount ≤ steps := by
  have hcount := hcut.stepCount_eq
  cases h with
  | ready vacant =>
    refine iff_of_false nofun ?_
    split at hcount <;> omega
  | writing owns hle =>
    refine iff_of_false nofun ?_
    split at hcount <;> omega
  | checking verify owns hle =>
    rw [verify, if_pos rfl] at hcount
    exact iff_of_false nofun (by omega)
  | ended vacant hle => exact iff_of_true rfl hle

theorem At.not_failed (h : job.At whole place fs steps stage) (failure : Failure IoError) :
    stage ≠ .ended (.error failure) := by
  cases h <;> nofun

/-- Before its first step and after its last one a job has no staging file. -/
theorem At.vacant (h : job.At whole place fs steps stage) (hcut : job.Cut whole)
    (hs : steps = 0 ∨ job.stepCount ≤ steps) : fs.node? place = none := by
  have hended := h.ended_iff hcut
  cases h with
  | ready vacant => exact vacant
  | ended vacant _ => exact vacant
  | writing owns hle => exact nomatch hended.2 (hs.resolve_left (Nat.succ_ne_zero _))
  | checking verify owns hle => exact nomatch hended.2 (hs.resolve_left (by omega))

/-! ## The steps of others -/

theorem Owns.frame {places : Set Location} {ids : Set FileId}
    (h : job.Owns whole place disk sector fs) (hf : Frame places ids fs after) (hp : place ∉ places)
    (hid : disk.file ∉ ids) : job.Owns whole place disk sector after where
  staged := h.staged.frame hf hp
  target := h.target
  stored := by
    obtain ⟨array, hstores, hgeometry⟩ := h.stored
    exact ⟨array, hstores.frame hf hid, hgeometry⟩

theorem At.frame {places : Set Location} {ids : Set FileId} (h : job.At whole place fs steps stage)
    (hf : Frame places ids fs after) (hp : place ∉ places)
    (hid : ∀ id ∈ ids, fs.node? place ≠ some (.file id)) : job.At whole place after steps stage := by
  cases h with
  | ready vacant => exact .ready ((hf.node?_eq hp).trans vacant)
  | writing owns hle =>
    exact .writing (owns.frame hf hp fun hm => hid _ hm owns.staged.node) hle
  | checking verify owns hle =>
    exact .checking verify (owns.frame hf hp fun hm => hid _ hm owns.staged.node) hle
  | ended vacant hle => exact .ended ((hf.node?_eq hp).trans vacant) hle

/-- A job is where it was after the step of another one that has its staging file elsewhere. -/
theorem At.undisturbed {image : Image} {other otherGoal : Location} {commits : Bool}
    (h : job.At whole place fs steps stage) (he : Effect image other otherGoal fs after commits)
    (hplace : place ≠ other) (hgoal : place ≠ otherGoal) : job.At whole place after steps stage := by
  cases he with
  | quiet frame own =>
    -- Two entries are never the same file.
    exact h.frame frame (Set.notMem_singleton_iff.2 hplace) fun id hm hnode =>
      hplace (node?_inj hnode (own id hm))
  | commit frame holds => exact h.frame frame (by simp [hplace, hgoal]) (by simp)

/-! ## The job's own step -/

/-- When all sectors are written, the disk stores the image. -/
theorem Owns.stores (h : job.Owns whole place disk whole.sectorCount fs) : disk.Stores whole fs := by
  obtain ⟨array, hstores, hsize, hcount, hblocks⟩ := h.stored
  have hwhole : whole.blocks.take whole.sectorCount = whole.blocks := List.take_length
  have hall : array.blocks = whole.blocks := by
    rwa [hwhole, List.take_of_length_le (Nat.le_of_eq hcount)] at hblocks
  have heq : array = whole := by
    cases array
    cases whole
    simp_all
  exact heq ▸ hstores

theorem step_writing (h : job.Owns whole place disk sector fs) (hs : sector < whole.sectorCount) :
    ∃ after, job.step (.writing disk sector (whole.blocks.drop sector)) fs =
        (.writing disk (sector + 1) (whole.blocks.drop (sector + 1)), after) ∧
      job.Owns whole place disk (sector + 1) after ∧ Frame ∅ {disk.file} fs after := by
  obtain ⟨array, hstores, hsize, hcount, hblocks⟩ := h.stored
  have hdrop : whole.blocks.drop sector = whole.blocks[sector] :: whole.blocks.drop (sector + 1) :=
    List.drop_eq_getElem_cons hs
  have hlength : whole.blocks[sector].length = array.sectorSize :=
    (whole.length_eq _ (List.getElem_mem hs)).trans hsize.symm
  have hin : sector < array.sectorCount := hcount ▸ hs
  rcases Disk.write_eq hstores sector whole.blocks[sector] with
    ⟨cause, hrefused, -⟩ | ⟨hd, after, -, hwrite, hput, hframe⟩
  · rw [SectorArray.refusal?_eq_none_iff.2 ⟨hin, hlength⟩] at hrefused
    cases hrefused
  · refine ⟨after, ?_, ⟨h.staged.frame hframe (Set.notMem_empty _), h.target, _, hput, hsize, ?_, ?_⟩,
      hframe⟩
    · rw [hdrop]
      simp only [step, hwrite]
    · rw [SectorArray.sectorCount_put, hcount]
    · have hin' : sector < array.blocks.length := hin
      rw [SectorArray.blocks_put, List.take_add_one, List.take_set_of_le (Nat.le_refl sector), hblocks,
        List.getElem?_set_self hin', List.take_add_one, List.getElem?_eq_getElem hs]

/-- The last step publishes the image. -/
theorem step_finish (hcut : job.Cut whole) (h : job.Owns whole place disk whole.sectorCount fs)
    (hgoal : fs.locate? job.output = some goal) (hfree : fs.node? goal ≠ some .directory)
    (hne : place ≠ goal) (hstep : job.step stage fs = finish disk fs)
    (hlast : job.stepCount ≤ steps) :
    job.step stage fs = (.ended (.ok ()), fs.move place goal) ∧
      job.At whole place (fs.move place goal) steps (.ended (.ok ())) ∧
      Effect job.image place goal fs (fs.move place goal) true := by
  have hcommit : disk.commit fs = (.ok (), fs.move place goal) :=
    Disk.commit_eq h.staged (h.target ▸ hgoal) hfree
  have hbytes : (fs.content disk.file).toList = job.image.bytes :=
    h.stores.bytes_eq.trans hcut.bytes_eq
  refine ⟨?_, .ended ?_ hlast, .commit (frame_move h.staged.node hfree) ?_⟩
  · rw [hstep, finish, hcommit]
  · rw [node?_move_of_file h.staged.node hfree, if_neg hne, if_pos rfl]
  · have hnode : (fs.move place goal).node? goal = some (.file disk.file) := by
      rw [node?_move_of_file h.staged.node hfree, if_pos rfl]
    rw [entry?_of_file hnode]
    exact congrArg (some <| Entry.file ·) hbytes

theorem step_ready (hcut : job.Cut whole)
    (hlocate : fs.locate? (job.output.staging job.tag) = some place) (hvacant : fs.node? place = none) :
    ∃ disk after, job.step .ready fs = (.writing disk 0 (whole.blocks.drop 0), after) ∧
      job.Owns whole place disk 0 after ∧ Frame {place} ∅ fs after := by
  obtain ⟨disk, after, hcreate⟩ := Disk.exists_create hlocate hvacant hcut.fits
  rw [hcut.sectorSize_eq] at hcreate
  obtain ⟨hdisk, -, -, found, hpending⟩ := Disk.create_ok hcreate
  have hfound : found = place := by
    have hstaged := hpending.locate? hpending.staged.locate
    rw [hdisk] at hstaged
    exact Option.some.inj (hstaged.symm.trans hlocate)
  subst hfound
  refine ⟨disk, after, ?_, ⟨hpending.staged, by rw [hdisk]; rfl, _,
    Disk.stores_blank_of_create hcreate, hcut.sectorSize_eq.symm,
    SectorArray.sectorCount_blank _ _, rfl⟩, hpending.frame⟩
  simp only [step, begin, hcut.counted, hcreate, hcut.sectors_eq, List.drop_zero]

/-- The step behind the last sector begins the comparisons, if there are to be any, and publishes
otherwise. -/
theorem step_written (hcut : job.Cut whole) (h : job.Owns whole place disk whole.sectorCount fs)
    (hgoal : fs.locate? job.output = some goal) (hfree : fs.node? goal ≠ some .directory)
    (hne : place ≠ goal) :
    ∃ next after, job.step (.writing disk whole.sectorCount []) fs = (next, after) ∧
      job.At whole place after (whole.sectorCount + 1 + 1) next ∧
      Effect job.image place goal fs after next.done := by
  cases hverify : job.verify with
  | true =>
    have hgeometry : disk.checkGeometry job.image = .ok whole.sectorCount :=
      Disk.checkGeometry_eq hcut.counted h.stores.sectorCount_eq
        (h.stores.sectorSize_eq.trans hcut.sectorSize_eq)
    refine ⟨.checking disk 0 whole.sectorCount, fs, ?_, .checking hverify h (Nat.zero_le _), .refl ..⟩
    simp only [step, hverify, if_true, hgeometry]
  | false =>
    have hfinish : job.step (.writing disk whole.sectorCount []) fs = finish disk fs := by
      simp only [step, hverify, Bool.false_eq_true, if_false]
    have hlast : job.stepCount ≤ whole.sectorCount + 1 + 1 := by
      rw [hcut.stepCount_eq, hverify, if_neg Bool.false_ne_true]
    exact ⟨_, _, step_finish hcut h hgoal hfree hne hfinish hlast⟩

/-- A comparison finds the sector that was written. The step behind the last one publishes. -/
theorem step_checking (hcut : job.Cut whole) (hverify : job.verify = true)
    (h : job.Owns whole place disk whole.sectorCount fs) (hle : sector ≤ whole.sectorCount)
    (hgoal : fs.locate? job.output = some goal) (hfree : fs.node? goal ≠ some .directory)
    (hne : place ≠ goal) :
    ∃ next after, job.step (.checking disk sector (whole.sectorCount - sector)) fs = (next, after) ∧
      job.At whole place after (whole.sectorCount + 2 + sector + 1) next ∧
      Effect job.image place goal fs after next.done := by
  by_cases hs : sector < whole.sectorCount
  · have hleft : whole.sectorCount - sector = whole.sectorCount - (sector + 1) + 1 := by omega
    have hsame : disk.compareSectors job.image.bytes.toArray fs 1 sector = .ok () := by
      rw [← hcut.bytes_eq]
      exact Disk.compareSectors_one h.stores hs
    refine ⟨.checking disk (sector + 1) (whole.sectorCount - (sector + 1)), fs, ?_,
      .checking hverify h hs, .refl ..⟩
    rw [hleft]
    simp only [step, hsame]
  · obtain rfl : sector = whole.sectorCount := Nat.le_antisymm hle (Nat.le_of_not_lt hs)
    have hlast : job.stepCount ≤ whole.sectorCount + 2 + whole.sectorCount + 1 := by
      rw [hcut.stepCount_eq, hverify, if_pos rfl]
      omega
    rw [Nat.sub_self]
    exact ⟨_, _, step_finish hcut h hgoal hfree hne rfl hlast⟩

/-- The next step of a job takes it one further. It commits if it is the last one, and touches only the
job's own staging file otherwise. -/
theorem At.step (h : job.At whole place fs steps stage) (hcut : job.Cut whole)
    (hlocate : fs.locate? (job.output.staging job.tag) = some place)
    (hgoal : fs.locate? job.output = some goal) (hfree : fs.node? goal ≠ some .directory)
    (hne : place ≠ goal) :
    job.At whole place (job.step stage fs).2 (steps + 1) (job.step stage fs).1 ∧
      Effect job.image place goal fs (job.step stage fs).2
        (!stage.done && (job.step stage fs).1.done) := by
  cases h with
  | ready vacant =>
    obtain ⟨disk, after, hstep, howns, hframe⟩ := step_ready hcut hlocate vacant
    rw [hstep]
    exact ⟨.writing howns (Nat.zero_le _), .quiet hframe (by simp)⟩
  | @writing disk sector owns hle =>
    by_cases hs : sector < whole.sectorCount
    · obtain ⟨after, hstep, howns, hframe⟩ := step_writing owns hs
      rw [hstep]
      refine ⟨.writing howns hs, .quiet (hframe.mono (Set.empty_subset _) (Set.Subset.refl _)) ?_⟩
      rintro _ rfl
      exact owns.staged.node
    · obtain rfl : sector = whole.sectorCount := Nat.le_antisymm hle (Nat.le_of_not_lt hs)
      have hnone : whole.blocks.drop whole.sectorCount = [] := List.drop_length
      obtain ⟨next, after, hstep, hat, heffect⟩ := step_written hcut owns hgoal hfree hne
      rw [hnone, hstep]
      exact ⟨hat, heffect⟩
  | checking verify owns hle =>
    obtain ⟨next, after, hstep, hat, heffect⟩ := step_checking hcut verify owns hle hgoal hfree hne
    rw [hstep]
    exact ⟨hat, heffect⟩
  | ended vacant hle => exact ⟨.ended vacant (Nat.le_succ_of_le hle), .refl ..⟩

end Job

end BootImage
