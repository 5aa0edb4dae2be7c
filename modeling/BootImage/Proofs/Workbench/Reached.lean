import BootImage.Proofs.Workbench.Effect
/-!
# Runs of steps

`Workbench.Reached` is a workbench that steps lead to from a file tree, with the steps that led
there. Steps come in any order, and any of them may be refused. All that is asked of them is that
staging files have names of their own: a step that opens a disk draws a reserved name for its
staging file, and nothing is published under a reserved name. That this is enough to keep the disks
apart is `Workbench.Reached.sound`.
-/

namespace BootImage

open FileSystem

/-- The step keeps staging files and targets apart: it stages at reserved places only and publishes
at others. -/
def Step.KeepsOff (reserved : Set Location) (bench : Workbench) (tag : Uuid) : Step → Prop
  | .create _ target _ _ =>
    ∀ place, bench.fs.locate? (target.staging tag) = some place → place ∈ reserved
  | .commit slot =>
    ∀ disk goal, bench.disk? slot = some disk → bench.fs.locate? disk.target = some goal →
      goal ∉ reserved
  | .publish output _ _ => ∀ goal, bench.fs.locate? output = some goal → goal ∉ reserved
  | _ => True

/-- A step that was taken, with the workbench before it and the answer it got. -/
structure Moment where
  bench : Workbench
  step : Step
  answer : Answer

namespace Workbench

/-- What steps lead to from a file tree without open disks, with the steps, the last one first. -/
inductive Reached (reserved : Set Location) (start : FileSystem) : List Moment → Workbench → Prop
  | start : Reached reserved start [] ⟨start, []⟩
  | step {history bench answer after} (h : Reached reserved start history bench) (tag : Uuid)
      (step : Step) (hk : step.KeepsOff reserved bench tag)
      (hstep : bench.step tag step = (answer, after)) :
      Reached reserved start (⟨bench, step, answer⟩ :: history) after

/-! ## Disks do not meet -/

section

variable {reserved : Set Location} {bench after : Workbench} {tag : Uuid} {step : Step}
  {answer : Answer} {slot other : Slot} {disk : Disk} {place : Location}

theorem Sound.place_inj {disk' : Disk} (h : Sound reserved bench)
    (hopen : bench.disk? slot = some disk) (hopen' : bench.disk? other = some disk')
    (hs : disk.Staged place bench.fs) (hs' : disk'.Staged place bench.fs) : slot = other := by
  have hnode := hs.node.symm.trans hs'.node
  rw [Option.some.injEq, Node.file.injEq] at hnode
  exact h.file_inj hopen hopen' hnode

/-- Where one slot is emptied, the others are as they were. -/
theorem disk?_of_emptied
    (hdisks : ∀ other, after.disk? other = if other = slot then none else bench.disk? other)
    (hopen : after.disk? other = some disk) : other ≠ slot ∧ bench.disk? other = some disk := by
  rw [hdisks] at hopen
  by_cases he : other = slot
  · rw [if_pos he] at hopen
    cases hopen
  · rw [if_neg he] at hopen
    exact ⟨he, hopen⟩

/-- The step has opened the disk in the slot. -/
structure Opens (bench : Workbench) (tag : Uuid) (step : Step) (after : Workbench) (slot : Slot)
    (disk : Disk) (place : Location) : Prop where
  step_eq : ∃ sectorSize sectorCount, step = .create slot disk.target sectorSize sectorCount
  file_eq : disk.file = bench.fs.contents.length
  staging_eq : disk.staging = disk.target.staging tag
  locate : bench.fs.locate? disk.staging = some place
  vacant : bench.fs.node? place = none
  staged : disk.Staged place after.fs

/-- A disk that is open after a step was open before, or the step has opened it. -/
theorem Effect.open_cases (he : Effect bench tag step answer after)
    (hopen : after.disk? slot = some disk) :
    bench.disk? slot = some disk ∨ ∃ place, Opens bench tag step after slot disk place := by
  cases he with
  | quiet _ _ hdisks _ => exact .inl (hdisks slot ▸ hopen)
  | @opened created target sectorSize sectorCount _ place _ hdisk hlocate hvacant hdisks hs _ _ _ =>
    rw [hdisks] at hopen
    by_cases hslot : slot = created
    · rw [if_pos hslot] at hopen
      cases hopen
      subst hslot hdisk
      exact .inr ⟨place, ⟨sectorSize, sectorCount, rfl⟩, rfl, rfl, hlocate, hvacant, hs⟩
    · rw [if_neg hslot] at hopen
      exact .inl hopen
  | wrote _ _ hdisks _ => exact .inl (hdisks slot ▸ hopen)
  | closed _ _ _ hdisks _ => exact .inl (disk?_of_emptied hdisks hopen).2
  | committed _ _ _ _ hdisks _ => exact .inl (disk?_of_emptied hdisks hopen).2
  | published _ hdisks _ _ => exact .inl (hdisks slot ▸ hopen)
  | madeDirectories hdisks _ _ => exact .inl (hdisks slot ▸ hopen)

/-- A disk that stays open stays where it is staged. -/
theorem Effect.staged (he : Effect bench tag step answer after) (h : Sound reserved bench)
    (hk : step.KeepsOff reserved bench tag) (hbefore : bench.disk? slot = some disk)
    (hafter : after.disk? slot = some disk) (hmem : place ∈ reserved)
    (hs : disk.Staged place bench.fs) : disk.Staged place after.fs := by
  cases he with
  | quiet _ _ _ hframe => exact hs.frame hframe (Set.notMem_empty _)
  | @opened created _ _ _ new _ _ hdisk _ hvacant hdisks _ _ hframe _ =>
    refine hs.frame hframe ?_
    rintro (e | ⟨replaced, hreplaced, hr⟩)
    · exact hs.ne_of_vacant hvacant e
    · -- The slot now has the new disk, whose file is newer than any that was open.
      have hslot := h.place_inj hbefore hreplaced hs hr
      rw [hdisks, if_pos hslot] at hafter
      cases hafter
      exact absurd (congrArg Disk.file hdisk) (Nat.ne_of_lt hs.live)
  | wrote _ _ _ hframe => exact hs.frame hframe (Set.notMem_empty _)
  | closed _ hopen hclosed hdisks hfs =>
    refine hs.frame (hfs ▸ frame_erase hclosed.node) ?_
    rintro rfl
    exact (disk?_of_emptied hdisks hafter).1 (h.place_inj hbefore hopen hs hclosed)
  | committed hopen hcommitted hgoal hallowed hdisks hfs =>
    refine hs.frame (hfs ▸ frame_move hcommitted.node hallowed) ?_
    rintro (rfl | rfl)
    · exact (disk?_of_emptied hdisks hafter).1 (h.place_inj hbefore hopen hs hcommitted)
    · exact hk _ _ hopen hgoal hmem
  | published hgoal _ hframe _ =>
    refine hs.frame hframe ?_
    rintro rfl
    exact hk _ hgoal hmem
  | madeDirectories _ _ hgrows =>
    refine hs.frame hgrows ?_
    rintro ⟨hvacant, -⟩
    exact hs.ne_of_vacant hvacant rfl

theorem Opens.mem (ho : Opens bench tag step after slot disk place)
    (hk : step.KeepsOff reserved bench tag) : place ∈ reserved := by
  obtain ⟨sectorSize, sectorCount, rfl⟩ := ho.step_eq
  refine hk place ?_
  rw [← ho.staging_eq]
  exact ho.locate

theorem Sound.effect (h : Sound reserved bench) (hk : step.KeepsOff reserved bench tag)
    (he : Effect bench tag step answer after) : Sound reserved after where
  staged := by
    intro slot disk hopen
    rcases he.open_cases hopen with hbefore | ⟨place, ho⟩
    · obtain ⟨place, hmem, hs⟩ := h.staged hbefore
      exact ⟨place, hmem, he.staged h hk hbefore hopen hmem hs⟩
    · exact ⟨place, ho.mem hk, ho.staged⟩
  named := by
    intro slot disk hopen
    rcases he.open_cases hopen with hbefore | ⟨place, ho⟩
    · exact h.named hbefore
    · exact ⟨tag, ho.staging_eq⟩
  file_inj := by
    intro slot other disk disk' hopen hopen' hfile
    rcases he.open_cases hopen with hbefore | ⟨place, ho⟩ <;>
      rcases he.open_cases hopen' with hbefore' | ⟨place', ho'⟩
    · exact h.file_inj hbefore hbefore' hfile
    · obtain ⟨_, _, hs⟩ := h.staged hbefore
      exact absurd (hfile.trans ho'.file_eq) (Nat.ne_of_lt hs.live)
    · obtain ⟨_, _, hs⟩ := h.staged hbefore'
      exact absurd (hfile.symm.trans ho.file_eq) (Nat.ne_of_lt hs.live)
    · obtain ⟨_, _, hstep⟩ := ho.step_eq
      obtain ⟨_, _, hstep'⟩ := ho'.step_eq
      exact (Step.create.inj (hstep.symm.trans hstep')).1

end

theorem sound_start (reserved : Set Location) (start : FileSystem) : Sound reserved ⟨start, []⟩ where
  staged hopen := by cases hopen
  named hopen := by cases hopen
  file_inj hopen := by cases hopen

theorem Reached.sound {reserved : Set Location} {start : FileSystem} {history : List Moment}
    {bench : Workbench} (h : Reached reserved start history bench) : Sound reserved bench := by
  induction h with
  | start => exact sound_start reserved start
  | step _ tag step hk hstep ih => exact ih.effect hk (effect_of_step ih hstep)

end Workbench

end BootImage
