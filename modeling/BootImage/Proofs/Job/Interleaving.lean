import BootImage.Proofs.FileSystem.Replace
import BootImage.Proofs.Job.Progress
import BootImage.Proofs.Path.Sibling
/-!
# Jobs do not disturb each other

Any number of jobs write their images on one tree, in any order of their steps. Their tags differ, so
each has a staging file of its own, and the outputs, which may be the same, are none of these. Then each
job comes to its end with success, an output never shows anything but what it showed at the start or the
whole image of the job that committed to it last, and nothing else is left (`Job.jobs_undisturbed`).
-/

namespace BootImage

open FileSystem

namespace Job

variable {ι : Type}

/-- The jobs can run at the same time. Random tags are never drawn twice, and so lead to nothing that is
there. -/
structure Apart (jobs : ι → Job) (start : FileSystem) : Prop where
  assembled : ∀ i, ∃ boot kernel config, Image.assemble boot kernel config = .ok (jobs i).image
  tag_injective : Function.Injective fun i => (jobs i).tag
  /-- Each output is, or can be made, in a directory that exists, and is no directory. -/
  output : ∀ i, ∃ goal, start.locate? (jobs i).output = some goal ∧
    start.entry? goal ≠ some .directory
  name_fits : ∀ i name, (jobs i).output.fileName? = some name →
    (name ++ Path.stagingSuffix (jobs i).tag).byteLength ≤ nameLimit
  path_fits : ∀ i, Name.byteLength ((jobs i).output.staging (jobs i).tag).chars < pathLimit
  vacant : ∀ i place, start.locate? ((jobs i).output.staging (jobs i).tag) = some place →
    start.entry? place = none
  output_ne_staging : ∀ i j place,
    start.locate? ((jobs j).output.staging (jobs j).tag) = some place →
      start.locate? (jobs i).output ≠ some place

/-! ## Where the jobs have their files -/

/-- The sectors, outputs and staging files of jobs that can run at the same time. -/
structure Arranged (jobs : ι → Job) (start : FileSystem) (whole : ι → SectorArray)
    (goal staged : ι → Location) : Prop where
  cut : ∀ i, (jobs i).Cut (whole i)
  locate_output : ∀ i, start.locate? (jobs i).output = some (goal i)
  locate_staging : ∀ i, start.locate? ((jobs i).output.staging (jobs i).tag) = some (staged i)
  goal_free : ∀ i, start.node? (goal i) ≠ some .directory
  staged_vacant : ∀ i, start.node? (staged i) = none
  staged_injective : Function.Injective staged
  staged_ne_goal : ∀ i j, staged i ≠ goal j

variable {jobs : ι → Job} {start : FileSystem}

/-- The staging file of a job can be made beside its output. -/
theorem Apart.exists_staging (h : Apart jobs start) (i : ι) :
    ∃ place, start.locate? ((jobs i).output.staging (jobs i).tag) = some place := by
  obtain ⟨goal, hgoal, -⟩ := h.output i
  obtain ⟨name, directory, rfl⟩ := List.exists_cons_of_ne_nil (locate?_ne_nil hgoal)
  have hfits := h.name_fits i name (fileName?_of_locate? hgoal).1
  exact ⟨_, locate?_staging hgoal hfits (h.path_fits i)⟩

theorem Apart.exists_arranged (h : Apart jobs start) :
    ∃ whole goal staged, Arranged jobs start whole goal staged := by
  choose boot kernel config hassemble using h.assembled
  choose goal hgoal hfree using h.output
  choose staged hstaged using h.exists_staging
  refine ⟨_, goal, staged, {
    cut := fun i => cut_of_assembled (Image.assembled_of_assemble (hassemble i))
    locate_output := hgoal
    locate_staging := hstaged
    goal_free := fun i hdirectory => hfree i (entry?_of_directory hdirectory)
    staged_vacant := fun i => entry?_eq_none_iff.1 (h.vacant i _ (hstaged i))
    staged_injective := ?_
    staged_ne_goal := ?_
  }⟩
  · intro i j hsame
    obtain ⟨stem, directory, hi, -⟩ := name_of_locate?_staging (hstaged i)
    obtain ⟨stem', directory', hj, -⟩ := name_of_locate?_staging (hstaged j)
    have hnames := (List.cons.inj (hi.symm.trans (hsame.trans hj))).1
    exact h.tag_injective (Path.tag_eq_of_append_stagingSuffix hnames)
  · intro i j hsame
    exact h.output_ne_staging j i (staged i) (hstaged i) (hsame ▸ hgoal j)

/-! ## What is true after every step -/

/-- What can be seen at a place that is none of the staging files, when these jobs have published,
the latest one first. -/
def shown (jobs : ι → Job) (start : FileSystem) (goal : ι → Location) (committed : List ι)
    (place : Location) : Option Entry :=
  match committed.find? fun i => goal i = place with
  | some i => some (.file (jobs i).image.bytes)
  | none => start.entry? place

theorem shown_cons (jobs : ι → Job) (start : FileSystem) (goal : ι → Location) (i : ι)
    (committed : List ι) (place : Location) :
    shown jobs start goal (i :: committed) place =
      if goal i = place then some (.file (jobs i).image.bytes)
      else shown jobs start goal committed place := by
  unfold shown
  by_cases hgoal : goal i = place
  · rw [List.find?_cons_of_pos (by simpa using hgoal), if_pos hgoal]
  · rw [List.find?_cons_of_neg (by simpa using hgoal), if_neg hgoal]

/-- Where no job has its output, nothing has changed. -/
theorem shown_of_no_goal {goal : ι → Location} {place : Location} (h : ∀ i, goal i ≠ place)
    (committed : List ι) : shown jobs start goal committed place = start.entry? place := by
  have hnever : committed.find? (fun i => goal i = place) = none := by
    rw [List.find?_eq_none]
    intro i _ hgoal
    exact h i (of_decide_eq_true hgoal)
  rw [shown, hnever]

variable [DecidableEq ι]

/-- Each job is as far as its steps have brought it, and the outputs show what has been published. -/
structure Running (jobs : ι → Job) (start : FileSystem) (whole : ι → SectorArray)
    (goal staged : ι → Location) (schedule : List ι) : Prop where
  home : (run jobs start schedule).fs.home = start.home
  stage : ∀ i, (jobs i).At (whole i) (staged i) (run jobs start schedule).fs (schedule.count i)
    ((run jobs start schedule).stages i)
  entry_eq : ∀ place, place ∉ Set.range staged → (run jobs start schedule).fs.entry? place =
    shown jobs start goal (commits jobs start schedule) place

theorem Effect.home {image : Image} {place goal : Location} {before after : FileSystem}
    {commits : Bool} (h : Effect image place goal before after commits) : after.home = before.home := by
  cases h with
  | quiet frame _ => exact frame.home
  | commit frame _ => exact frame.home

/-- Apart from the staging file, a step is seen only if it commits, and only at the output. -/
theorem Effect.entry?_eq {image : Image} {place goal : Location} {before after : FileSystem}
    {commits : Bool} (h : Effect image place goal before after commits) {p : Location}
    (hp : p ≠ place) :
    after.entry? p =
      if commits = true ∧ goal = p then some (.file image.bytes) else before.entry? p := by
  cases h with
  | quiet frame own =>
    rw [if_neg (by simp)]
    exact frame.entry?_eq (Set.notMem_singleton_iff.2 hp) fun id hm hnode =>
      hp (node?_inj hnode (own id hm))
  | commit frame holds =>
    by_cases hgoal : goal = p
    · rw [if_pos ⟨rfl, hgoal⟩, ← hgoal, holds]
    · rw [if_neg fun hc => hgoal hc.2]
      exact frame.entry?_eq (by simp [hp, Ne.symm hgoal]) (by simp)

section

variable {whole : ι → SectorArray} {goal staged : ι → Location} {schedule : List ι}

theorem running_start (ha : Arranged jobs start whole goal staged) :
    Running jobs start whole goal staged [] where
  home := rfl
  stage i := .ready (ha.staged_vacant i)
  entry_eq _ _ := rfl

namespace Running

/-- No job makes or removes a directory. -/
theorem keepsDirectories (h : Running jobs start whole goal staged schedule)
    (ha : Arranged jobs start whole goal staged) :
    KeepsDirectories start (run jobs start schedule).fs where
  home := h.home
  directories place hdirectory := by
    have hrange : place ∉ Set.range staged := by
      rintro ⟨i, rfl⟩
      rw [ha.staged_vacant i] at hdirectory
      cases hdirectory
    have hgoals : ∀ i, goal i ≠ place := by
      rintro i rfl
      exact ha.goal_free i hdirectory
    rw [← entry?_eq_directory_iff, h.entry_eq place hrange, shown_of_no_goal hgoals]
    exact entry?_of_directory hdirectory

theorem goal_free (h : Running jobs start whole goal staged schedule)
    (ha : Arranged jobs start whole goal staged) (i : ι) :
    (run jobs start schedule).fs.node? (goal i) ≠ some .directory := by
  have hrange : goal i ∉ Set.range staged := by
    rintro ⟨j, hj⟩
    exact ha.staged_ne_goal j i hj
  rw [ne_eq, ← entry?_eq_directory_iff, h.entry_eq (goal i) hrange, shown]
  split
  · simp
  · rw [entry?_eq_directory_iff]
    exact ha.goal_free i

theorem advance (h : Running jobs start whole goal staged schedule)
    (ha : Arranged jobs start whole goal staged) (i : ι) :
    Running jobs start whole goal staged (i :: schedule) := by
  have hkeeps := h.keepsDirectories ha
  obtain ⟨hat, heffect⟩ := (h.stage i).step (ha.cut i) (hkeeps.locate? (ha.locate_staging i))
    (hkeeps.locate? (ha.locate_output i)) (h.goal_free ha i) (ha.staged_ne_goal i i)
  have hstage : (run jobs start (i :: schedule)).stages i =
      ((jobs i).step ((run jobs start schedule).stages i) (run jobs start schedule).fs).1 :=
    Function.update_self ..
  refine ⟨heffect.home.trans h.home, fun j => ?_, fun place hplace => ?_⟩
  · by_cases hj : j = i
    · rw [hj, hstage, List.count_cons_self]
      exact hat
    · have hother : (run jobs start (i :: schedule)).stages j = (run jobs start schedule).stages j :=
        Function.update_of_ne hj ..
      rw [hother, List.count_cons_of_ne (Ne.symm hj)]
      exact (h.stage j).undisturbed heffect (ha.staged_injective.ne hj) (ha.staged_ne_goal j i)
  · have hne : place ≠ staged i := by
      rintro rfl
      exact hplace ⟨i, rfl⟩
    have hentry : (run jobs start (i :: schedule)).fs.entry? place = _ := heffect.entry?_eq hne
    rw [hentry, commits, hstage, h.entry_eq place hplace]
    -- The step is either a commit of this job, or it is not seen.
    cases (!((run jobs start schedule).stages i).done &&
        ((jobs i).step ((run jobs start schedule).stages i) (run jobs start schedule).fs).1.done) with
    | true => simp only [if_true, true_and, shown_cons]
    | false => simp only [Bool.false_eq_true, if_false, false_and]

end Running

/-- After every step of any schedule. -/
theorem Arranged.running (ha : Arranged jobs start whole goal staged) (schedule : List ι) :
    Running jobs start whole goal staged schedule := by
  induction schedule with
  | nil => exact running_start ha
  | cons i schedule ih => exact ih.advance ha i

end

/-! ## Any schedule -/

/-- The jobs that have published are those that have ended with success. -/
theorem mem_commits_iff (jobs : ι → Job) (start : FileSystem) (schedule : List ι) (i : ι) :
    i ∈ commits jobs start schedule ↔ ((run jobs start schedule).stages i).done = true := by
  induction schedule with
  | nil => simp [commits, run, Stage.done]
  | cons j schedule ih =>
    rw [commits]
    by_cases hj : i = j
    · subst hj
      cases hdone : ((run jobs start schedule).stages i).done with
      | true =>
        have hsame : (jobs i).step ((run jobs start schedule).stages i)
            (run jobs start schedule).fs =
              ((run jobs start schedule).stages i, (run jobs start schedule).fs) := by
          rw [Stage.done_iff.1 hdone]
          rfl
        have hafter : (run jobs start (i :: schedule)).stages i =
            (run jobs start schedule).stages i := by
          rw [run, State.advance, hsame]
          exact Function.update_self ..
        simp [ih, hafter, hdone]
      | false =>
        rw [hdone] at ih
        by_cases hafter : ((run jobs start (i :: schedule)).stages i).done = true
        · simp [hafter]
        · simp [hafter, ih]
    · have hother : (run jobs start (j :: schedule)).stages i = (run jobs start schedule).stages i :=
        Function.update_of_ne hj ..
      rw [hother, ← ih]
      split
      · simp [hj]
      · rfl

/-- The job that has published to the output of this one last, if one has. -/
def latest? (jobs : ι → Job) (start : FileSystem) (schedule : List ι) (i : ι) : Option ι :=
  (commits jobs start schedule).find? fun j =>
    start.locate? (jobs j).output = start.locate? (jobs i).output

/-- Where the jobs have their outputs. -/
def outputs (jobs : ι → Job) (start : FileSystem) : Set Location :=
  {place | ∃ i, start.locate? (jobs i).output = some place}

/-- Where the jobs have staging files that have begun and not yet ended. -/
def stagedNow (jobs : ι → Job) (start : FileSystem) (schedule : List ι) : Set Location :=
  {place | ∃ i, start.locate? ((jobs i).output.staging (jobs i).tag) = some place ∧
    0 < schedule.count i ∧ schedule.count i < (jobs i).stepCount}

namespace Running

variable {whole : ι → SectorArray} {goal staged : ι → Location} {schedule : List ι}

theorem readAll_output (h : Running jobs start whole goal staged schedule)
    (ha : Arranged jobs start whole goal staged) (i : ι) :
    (run jobs start schedule).fs.readAll (jobs i).output =
      match latest? jobs start schedule i with
      | some j => .ok (jobs j).image.bytes
      | none => start.readAll (jobs i).output := by
  have hrange : goal i ∉ Set.range staged := by
    rintro ⟨j, hj⟩
    exact ha.staged_ne_goal j i hj
  have hnow : (run jobs start schedule).fs.locate? (jobs i).output = some (goal i) :=
    (h.keepsDirectories ha).locate? (ha.locate_output i)
  rw [readAll_eq_of_locate? hnow, h.entry_eq (goal i) hrange,
    readAll_eq_of_locate? (ha.locate_output i)]
  simp only [latest?, ha.locate_output, Option.some.injEq, shown]
  cases (commits jobs start schedule).find? fun j => goal j = goal i <;> rfl

theorem entry?_staging (h : Running jobs start whole goal staged schedule)
    (ha : Arranged jobs start whole goal staged) {i : ι}
    (hidle : schedule.count i = 0 ∨ (jobs i).stepCount ≤ schedule.count i) :
    (run jobs start schedule).fs.entry? (staged i) = none :=
  entry?_eq_none_iff.2 ((h.stage i).vacant (ha.cut i) hidle)

theorem sameOutside (h : Running jobs start whole goal staged schedule)
    (ha : Arranged jobs start whole goal staged) :
    SameOutside (outputs jobs start ∪ stagedNow jobs start schedule) start
      (run jobs start schedule).fs := by
  refine ⟨h.home, fun place hplace => ?_⟩
  rw [Set.mem_union, not_or] at hplace
  by_cases hrange : place ∈ Set.range staged
  · obtain ⟨i, rfl⟩ := hrange
    have hidle : schedule.count i = 0 ∨ (jobs i).stepCount ≤ schedule.count i := by
      by_contra hbusy
      rw [not_or] at hbusy
      exact hplace.2 ⟨i, ha.locate_staging i, by omega, by omega⟩
    rw [h.entry?_staging ha hidle, entry?_eq_none_iff.2 (ha.staged_vacant i)]
  · rw [h.entry_eq place hrange]
    apply shown_of_no_goal
    rintro i rfl
    exact hplace.1 ⟨i, ha.locate_output i⟩

end Running

/-- The steps of a job are those of `Image.publish`, as it would run without the others. However the
steps of jobs are mixed, no job fails, and each ends when it has taken its steps. At every moment an
output holds the whole image of the job that has published to it last, or what it held at the start if
none has; the jobs that have published are those that have ended. All that differs besides are the
staging files of jobs that are on their way, so nothing does when all have ended. -/
theorem jobs_undisturbed (h : Apart jobs start) (schedule : List ι) :
    (∀ i tree progress, ∃ count, run jobs tree (List.replicate count i) =
      let publication := (jobs i).image.publish (jobs i).output (jobs i).verify (jobs i).tag progress tree
      ⟨Function.update (fun _ => .ready) i (.ended publication.result), publication.fs⟩) ∧
    (∀ i failure, (run jobs start schedule).stages i ≠ .ended (.error failure)) ∧
    (∀ i, (run jobs start schedule).stages i = .ended (.ok ()) ↔
      (jobs i).stepCount ≤ schedule.count i) ∧
    (∀ i, i ∈ commits jobs start schedule ↔ (jobs i).stepCount ≤ schedule.count i) ∧
    (∀ i, (run jobs start schedule).fs.readAll (jobs i).output =
      match latest? jobs start schedule i with
      | some j => .ok (jobs j).image.bytes
      | none => start.readAll (jobs i).output) ∧
    SameOutside (outputs jobs start ∪ stagedNow jobs start schedule) start
      (run jobs start schedule).fs ∧
    ((∀ i, (jobs i).stepCount ≤ schedule.count i) →
      SameOutside (outputs jobs start) start (run jobs start schedule).fs ∧
      ∀ i place, start.locate? ((jobs i).output.staging (jobs i).tag) = some place →
        (run jobs start schedule).fs.entry? place = none) := by
  obtain ⟨whole, goal, staged, ha⟩ := h.exists_arranged
  have hrunning := ha.running schedule
  have hended : ∀ i, (run jobs start schedule).stages i = .ended (.ok ()) ↔
      (jobs i).stepCount ≤ schedule.count i := fun i => (hrunning.stage i).ended_iff (ha.cut i)
  refine ⟨fun i tree progress => run_alone jobs tree i progress,
    fun i failure => (hrunning.stage i).not_failed failure, hended, fun i => ?_,
    hrunning.readAll_output ha, hrunning.sameOutside ha, fun hall => ⟨?_, fun i place hplace => ?_⟩⟩
  · rw [mem_commits_iff, Stage.done_iff, hended]
  · refine (hrunning.sameOutside ha).mono (Set.union_subset (Set.Subset.refl _) ?_)
    rintro place ⟨i, -, -, hbusy⟩
    exact absurd (hall i) (Nat.not_le.2 hbusy)
  · rw [ha.locate_staging, Option.some.injEq] at hplace
    exact hplace ▸ hrunning.entry?_staging ha (.inr (hall i))

/-- Two jobs take turns at writing to one output, and one of them compares. Its image is there first, and
then the other one's, which is longer. -/
theorem jobs_undisturbed_one_output :
    ∃ (jobs : Bool → Job) (start : FileSystem) (schedule : List Bool), Apart jobs start ∧
      start.readAll ⟨['o']⟩ = .ok [7] ∧ (∀ i, (jobs i).output = ⟨['o']⟩) ∧
      (∀ i, (run jobs start schedule).stages i = .ended (.ok ())) ∧
      (run jobs start schedule).fs.readAll ⟨['o']⟩ = .ok [9, 9, 9, 9, 9, 0, 0, 0] ∧
      SameOutside (outputs jobs start) start (run jobs start schedule).fs := by
  let jobs : Bool → Job := fun
    | false => ⟨⟨[1, 2, 3, 0], ⟨4, 4, 0, 4, none, 4⟩⟩, ⟨['o']⟩, true, .ofRandom 0⟩
    | true => ⟨⟨[9, 9, 9, 9, 9, 0, 0, 0], ⟨4, 4, 1, 8, none, 8⟩⟩, ⟨['o']⟩, false, .ofRandom 1⟩
  let start : FileSystem := (FileSystem.empty []).addFile [['o']] (.ofList [7])
  let schedule := [true, false, false, true, false, true, false, true, false]
  have houtput : ∀ i, (jobs i).output = ⟨['o']⟩ := by
    intro i
    cases i <;> rfl
  have hlocate : start.locate? ⟨['o']⟩ = some [['o']] := by rfl
  have hstaging : ∀ i place, start.locate? ((jobs i).output.staging (jobs i).tag) = some place →
      place ≠ [['o']] := by
    intro i place hplace
    exact staging_ne_target hplace ((houtput i).symm ▸ hlocate)
  have hapart : Apart jobs start := {
    assembled := by
      intro i
      cases i with
      | false => exact ⟨[1, 2, 3], none, ⟨4, 4, 16, 64⟩, by rfl⟩
      | true => exact ⟨[9, 9, 9, 9, 9], none, ⟨4, 4, 16, 64⟩, by rfl⟩
    tag_injective := by
      intro i j htags
      cases i <;> cases j <;> first | rfl | exact absurd htags (by decide)
    output := fun i => ⟨[['o']], (houtput i).symm ▸ hlocate, by decide⟩
    name_fits := by
      intro i name hname
      rw [houtput] at hname
      obtain rfl : ['o'] = name := Option.some.inj hname
      cases i <;> decide
    path_fits := by
      intro i
      cases i <;> decide
    vacant := by
      intro i place hplace
      have hne := hstaging i place hplace
      rw [entry?_eq_none_iff, node?_addFile (by simp), if_neg hne, node?_eq (locate?_ne_nil hplace)]
      exact NameTree.get?_empty _
    output_ne_staging := by
      intro i j place hplace hgoal
      rw [houtput, hlocate, Option.some.injEq] at hgoal
      exact hstaging j place hplace hgoal.symm
  }
  obtain ⟨-, -, hended, -, hread, -, hall⟩ := jobs_undisturbed hapart schedule
  have hcounts : ∀ i, (jobs i).stepCount ≤ schedule.count i := by
    intro i
    cases i <;> decide
  have hlatest : latest? jobs start schedule false = some true := by
    subst jobs start schedule
    rfl
  have hshown := hread false
  rw [hlatest] at hshown
  exact ⟨jobs, start, schedule, hapart, by rfl, houtput, fun i => (hended i).2 (hcounts i), hshown,
    (hall hcounts).1⟩

end Job

end BootImage
