import BootImage.Program
import BootImage.Proofs.Build.Course
/-!
# What a build that fails leaves

Reading and assembling change nothing, and publishing fails without a trace. What is left is the last
phase: when the record cannot be kept, the image has been published already and stays
(`Build.Unrecorded`). So a failed build leaves the files as they were in all cases but this one, and in
this one too if the output held the image before (`Build.unchanged_iff`).
-/

namespace BootImage

open FileSystem

namespace Build

/-- The image was published, and then its record could not be kept. -/
structure Unrecorded (options : Options) (tag : Uuid) (before : FileSystem) (image : Image) : Prop where
  prepared : ∃ boot kernel, Prepared options before boot kernel image
  published : (publication options image tag before).result = .ok ()
  refused : ∃ path cause, options.layout = some path ∧
    (publication options image tag before).fs.writeAll path image.layout.toRecord = .error cause

variable {options : Options} {tag : Uuid} {before : FileSystem} {image : Image}

theorem Unrecorded.unique {other : Image} (h : Unrecorded options tag before image)
    (h' : Unrecorded options tag before other) : image = other := by
  obtain ⟨boot, kernel, hprepared⟩ := h.prepared
  obtain ⟨boot', kernel', hprepared'⟩ := h'.prepared
  exact (hprepared.unique hprepared').2.2

/-- A failed build has changed nothing, or it has published its image and nothing more. -/
theorem unchanged_or_unrecorded {failure : Failure Problem}
    (h : (run options tag before).result = .error failure) :
    (∀ image, ¬ Unrecorded options tag before image) ∧
        SameOutside ∅ before (run options tag before).fs ∨
      ∃ image goal, Unrecorded options tag before image ∧ before.locate? options.output = some goal ∧
        Replaced goal image.bytes before (run options tag before).fs := by
  have hcourse := course_of_run options tag before
  generalize run options tag before = outcome at h hcourse ⊢
  cases hcourse with
  | loaderUnread hread =>
    refine .inl ⟨fun image hu => ?_, .refl before⟩
    obtain ⟨boot, kernel, hprepared⟩ := hu.prepared
    rw [hprepared.inputs.boot] at hread
    cases hread
  | kernelUnread _ given hread =>
    refine .inl ⟨fun image hu => ?_, .refl before⟩
    obtain ⟨boot, kernel, hprepared⟩ := hu.prepared
    obtain ⟨bytes, hbytes⟩ := hprepared.inputs.exists_kernel given
    rw [hbytes] at hread
    cases hread
  | unassembled inputs hassemble =>
    refine .inl ⟨fun image hu => ?_, .refl before⟩
    obtain ⟨boot, kernel, hprepared⟩ := hu.prepared
    obtain ⟨rfl, rfl⟩ := inputs.unique hprepared.inputs
    rw [hprepared.assembled] at hassemble
    cases hassemble
  | unpublished prepared _ hfailed =>
    refine .inl ⟨fun image hu => ?_, prepared.sameOutside hfailed⟩
    obtain ⟨boot, kernel, hprepared⟩ := hu.prepared
    obtain ⟨-, -, rfl⟩ := prepared.unique hprepared
    have hdone := hu.published
    rw [hfailed] at hdone
    cases hdone
  | unrecorded prepared _ published given hwrite =>
    obtain ⟨goal, hgoal, hreplaced⟩ := prepared.replaced published
    exact .inr ⟨_, goal, ⟨⟨_, _, prepared⟩, published, _, _, given, hwrite⟩, hgoal, hreplaced⟩
  | complete _ _ _ _ => cases h

/-- A build that fails leaves the files as they were, unless it failed at the record, when the image
is where the output leads and nothing else has changed. Any error ends the program with the exit code
one and with the files as the build has left them. -/
theorem unchanged_iff {failure : Failure Problem}
    (h : (run options tag before).result = .error failure) :
    (SameOutside ∅ before (run options tag before).fs ↔
      ∀ image, Unrecorded options tag before image →
        before.readAll options.output = .ok image.bytes) ∧
    (∀ image, Unrecorded options tag before image → ∃ goal,
      before.locate? options.output = some goal ∧
        (run options tag before).fs.readAll options.output = .ok image.bytes ∧
        SameOutside {goal} before (run options tag before).fs) ∧
    ∀ problem, failure = .error problem → ∀ reporter,
      (Program.conclude reporter (run options tag before)).exitCode = 1 ∧
        (Program.conclude reporter (run options tag before)).fs = (run options tag before).fs := by
  refine ⟨?_, ?_, ?_⟩
  · rcases unchanged_or_unrecorded h with ⟨hnever, hsame⟩ | ⟨image, goal, hu, hgoal, hreplaced⟩
    · exact iff_of_true hsame fun image hu => absurd hu (hnever image)
    · rw [hreplaced.sameOutside_empty_iff]
      constructor
      · intro hheld other hother
        rw [hother.unique hu]
        exact readAll_eq_ok_iff.2 ⟨goal, hgoal, hheld⟩
      · intro hheld
        obtain ⟨place, hplace, hentry⟩ := readAll_eq_ok_iff.1 (hheld image hu)
        rw [hgoal, Option.some.injEq] at hplace
        rw [hplace, hentry]
  · intro other hother
    rcases unchanged_or_unrecorded h with ⟨hnever, -⟩ | ⟨image, goal, hu, hgoal, hreplaced⟩
    · exact absurd hother (hnever other)
    · rw [hother.unique hu]
      exact ⟨goal, hgoal, hreplaced.readAll_eq hgoal, hreplaced.sameOutside⟩
  · rintro problem rfl reporter
    rw [Program.conclude, h]
    exact ⟨rfl, rfl⟩

/-- A directory at the output, so that the commit is refused after all sectors have been written. -/
theorem unchanged_iff_commit_refused :
    ∃ options before failure, before.entry? [['o']] = some .directory ∧
      options.output = ⟨['o']⟩ ∧ (run options (.ofRandom 0) before).result = .error failure ∧
      SameOutside ∅ before (run options (.ofRandom 0) before).fs := by
  let options : Options := ⟨⟨['b']⟩, none, ⟨['o']⟩, none, false, true, ⟨4, 4, 16, 64⟩⟩
  let before := ((FileSystem.empty []).addFile [['b']] (.ofList [1, 2, 3, 4, 5])).addDirectory [['o']]
  have hrun : ∃ failure, (run options (.ofRandom 0) before).result = .error failure := by
    subst options before
    exact ⟨_, rfl⟩
  obtain ⟨failure, hrun⟩ := hrun
  refine ⟨options, before, failure, by rfl, rfl, hrun, (unchanged_iff hrun).1.2 ?_⟩
  rintro image ⟨-, -, path, cause, hpath, -⟩
  cases hpath

/-- The record cannot be kept in a directory that does not exist: the build fails, and there is an
output that was not there before. -/
theorem changed_without_record :
    ∃ options before failure, (run options (.ofRandom 0) before).result = .error failure ∧
      before.readAll options.output = .error .noSuchEntry ∧
      (run options (.ofRandom 0) before).fs.readAll options.output = .ok [0xaa, 0xbb, 0xcc, 0xdd] ∧
      ¬ SameOutside ∅ before (run options (.ofRandom 0) before).fs := by
  let options : Options :=
    ⟨⟨['b']⟩, none, ⟨['o']⟩, some ⟨['n', '/', 'x']⟩, false, true, ⟨4, 4, 32768, 16777216⟩⟩
  let before := (FileSystem.empty []).addFile [['b']] (.ofList [0xaa, 0xbb, 0xcc, 0xdd])
  have hrun : ∃ failure, (run options (.ofRandom 0) before).result = .error failure := by
    subst options before
    exact ⟨_, rfl⟩
  have hread : (run options (.ofRandom 0) before).fs.readAll options.output =
      .ok [0xaa, 0xbb, 0xcc, 0xdd] := by
    subst options before
    rfl
  obtain ⟨failure, hrun⟩ := hrun
  refine ⟨options, before, failure, hrun, by rfl, hread, fun hsame => ?_⟩
  obtain ⟨place, hplace, hentry⟩ := readAll_eq_ok_iff.1 hread
  have hnothing : before.entry? [['o']] = none := by rfl
  have hwhere : (run options (.ofRandom 0) before).fs.locate? options.output = some [['o']] := by
    subst options before
    rfl
  rw [hwhere, Option.some.injEq] at hplace
  rw [← hplace, hsame.entry?_eq [['o']] (Set.notMem_empty _), hnothing] at hentry
  cases hentry

end Build

end BootImage
