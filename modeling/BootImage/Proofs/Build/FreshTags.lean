import BootImage.Proofs.Build.Repeat
import BootImage.Proofs.FileSystem.Unchanged
import BootImage.Proofs.Path.StagingBase
/-!
# Any fresh tag will do

The tag of a build names its staging file and nothing else. Where no file has it, the staging file is made
or refused for reasons that have nothing to do with the tag, and the commit answers as if the staging file
were not there (`Disk.Pending.commit_fst`). So two builds that differ in fresh tags only return the same,
tell the same and leave the same tree (`Build.repeats_of_fresh`).
-/

namespace BootImage

open FileSystem

namespace FileSystem

/-- The same file in place of what was there leaves trees the same that were the same. -/
theorem Replaced.congr {place : Location} {bytes : List UInt8} {before before' after after' : FileSystem}
    (h : Replaced place bytes before after) (h' : Replaced place bytes before' after')
    (hsame : SameOutside ∅ before before') : SameOutside ∅ after after' where
  home := by rw [h.sameOutside.home, h'.sameOutside.home, hsame.home]
  entry?_eq p hp := by
    by_cases hplace : p ∈ ({place} : Set Location)
    · rw [Set.mem_singleton_iff.1 hplace, h.holds, h'.holds]
    · rw [h.sameOutside.entry?_eq p hplace, h'.sameOutside.entry?_eq p hplace, hsame.entry?_eq p hp]

/-- In trees that look the same, a file can be written or is refused for the same reason, and they look the
same afterwards. -/
theorem SameOutside.writeAll {before after : FileSystem} (h : SameOutside ∅ before after)
    (path : Path) (bytes : List UInt8) :
    (∃ cause, before.writeAll path bytes = .error cause ∧ after.writeAll path bytes = .error cause) ∨
      ∃ written written', before.writeAll path bytes = .ok written ∧
        after.writeAll path bytes = .ok written' ∧ SameOutside ∅ written written' := by
  have hlocate : after.locate? path = before.locate? path := by
    unfold locate?
    rw [h.resolve]
  cases hb : before.writeAll path bytes with
  | ok written =>
    refine .inr ⟨written, ?_⟩
    obtain ⟨place, hplace, hnode⟩ := writeAll_eq_ok_iff.1 hb
    have hdone : ∃ written', after.writeAll path bytes = .ok written' := by
      rcases h.node? place with ⟨-, ha⟩ | ⟨hd, -⟩ | ⟨-, id', -, ha⟩
      · exact ⟨_, writeAll_eq_ok_iff.2 ⟨place, hlocate.trans hplace, .inl ⟨ha, rfl⟩⟩⟩
      · simp [hd] at hnode
      · exact ⟨_, writeAll_eq_ok_iff.2 ⟨place, hlocate.trans hplace, .inr ⟨id', ha, rfl⟩⟩⟩
    obtain ⟨written', ha⟩ := hdone
    obtain ⟨place, hplace, hreplaced⟩ := replaced_of_writeAll hb
    obtain ⟨place', hplace', hreplaced'⟩ := replaced_of_writeAll ha
    obtain rfl : place = place' := Option.some.inj (hplace.symm.trans (hlocate.symm.trans hplace'))
    exact ⟨written', rfl, ha, hreplaced.congr hreplaced' h⟩
  | error cause =>
    refine .inl ⟨cause, rfl, ?_⟩
    unfold FileSystem.writeAll at hb ⊢
    rw [h.resolve]
    generalize before.resolve path = destination at hb
    rcases destination with refusal | ⟨directory, name, _ | _⟩ | place
    · exact hb
    · simp only [bind, Except.bind, lookup_eq] at hb ⊢
      by_cases hlong : nameLimit < name.byteLength
      · simpa [hlong] using hb
      · rcases h.node? (name :: directory) with ⟨hn, ha⟩ | ⟨hn, ha⟩ | ⟨id, id', hn, ha⟩
        · simp [hlong, hn, pure, Except.pure] at hb
        · simpa only [hlong, if_false, hn, ha] using hb
        · simp [hlong, hn, pure, Except.pure] at hb
    · exact hb
    · exact hb

/-- Where a piece leads depends on the entry it names. -/
theorem descend_congr {before now : FileSystem} {directory : Location} {piece : Name}
    (h : now.node? (piece :: directory) = before.node? (piece :: directory)) :
    now.descend directory piece = before.descend directory piece := by
  unfold descend
  rw [lookup_eq, lookup_eq, h]

end FileSystem

namespace Disk

/-- What a commit answers, from what was there before the disk was opened. -/
def answer (target : Path) (before : FileSystem) : Except IoError Unit :=
  match before.resolve target with
  | .error cause => .error (.system cause)
  | .ok (.directory _) => .error (.system .busy)
  | .ok (.entry directory name asDirectory) =>
    if nameLimit < name.byteLength then .error (.system .nameTooLong)
    else if asDirectory then .error (.system .notADirectory)
    else if before.node? (name :: directory) = some .directory then .error (.system .isADirectory)
    else .ok ()

theorem Pending.node?_eq_directory_iff {disk : Disk} {place : Location} {before now : FileSystem}
    (h : disk.Pending place before now) (p : Location) :
    now.node? p = some .directory ↔ before.node? p = some .directory :=
  ⟨(h.frame.keepsDirectories_symm (ne_directory_of_file h.staged.node)).directories p,
    h.frame.directories p⟩

theorem Pending.commit_fst {disk : Disk} {place : Location} {before now : FileSystem}
    (h : disk.Pending place before now)
    (htarget : now.resolve disk.target = before.resolve disk.target) :
    (disk.commit now).1 = answer disk.target before := by
  obtain ⟨directory, name, hstaging, hshort, rfl⟩ := locate?_eq_some_iff.1 h.staged.locate
  have hdirectory := h.node?_eq_directory_iff
  unfold commit renameFile answer
  simp only [hstaging, htarget, bind, Except.bind]
  rcases before.resolve disk.target with cause | ⟨goal, last, asDirectory⟩ | goal
  · rfl
  · simp only [lookup_eq, hshort, if_false, h.staged.node, Bool.false_or]
    by_cases hlong : nameLimit < last.byteLength
    · simp [hlong]
    · cases asDirectory with
      | true => simp [hlong, throw, throwThe, MonadExceptOf.throw]
      | false =>
        by_cases hd : before.node? (last :: goal) = some .directory
        · simp [hlong, hd, hdirectory, throw, throwThe, MonadExceptOf.throw]
        · simp [hlong, hd, hdirectory, pure, Except.pure]
  · rfl

end Disk

namespace Image.Assembled

variable {boot : List UInt8} {kernel : Option (List UInt8)} {config : Config} {image : Image}
variable {output : Path} {verify : Bool} {tag : Uuid} {progress : Progress} {before : FileSystem}

theorem publish_of_not_made (h : Assembled boot kernel config image) {cause : SystemError}
    (hmade : before.createFile (output.staging tag) = .error cause) :
    (image.publish output verify tag progress before).result = .error (.error (.system cause)) :=
  h.publish_of_not_created (Disk.create_of_not_made hmade)

theorem publish_of_made (h : Assembled boot kernel config image) {made : FileId × FileSystem}
    (hmade : before.createFile (output.staging tag) = .ok made) :
    (image.publish output verify tag progress before).result =
      (Disk.answer output before).mapError .error := by
  obtain ⟨place, hplace, hvacant, -⟩ := createFile_eq_ok_iff.1 hmade
  obtain ⟨disk, created, hc⟩ := Disk.exists_create hplace hvacant h.fits
  obtain ⟨staged, now, hpending, hresult⟩ := h.publish_of_created verify progress hc
  obtain ⟨rfl, -⟩ := Disk.create_ok hc
  rw [hresult, hpending.commit_fst]
  · rfl
  -- The way to the target does not pass the staging file.
  · obtain ⟨way, hway, hwalk⟩ := exists_way_staging before output
    obtain ⟨directory, name, hresolve, -, rfl⟩ :=
      locate?_eq_some_iff.1 (hpending.locate? hpending.staged.locate)
    rw [Disk.opened, hway] at hresolve
    cases way with
    | error cause => cases hresolve
    | ok parent =>
      cases hresolve
      refine hpending.frame.resolve_target (hwalk _ rfl) (descend_congr (hpending.frame.node?_eq ?_))
      rw [Set.mem_singleton_iff, List.cons.injEq, and_iff_left rfl]
      intro e
      have hlength : output.stagingBase.2.length = (output.stagingBase.2 ++ _).length :=
        congrArg List.length e
      simp [Path.stagingSuffix] at hlength

end Image.Assembled

namespace Build

variable {options : Options} {tag again : Uuid} {before after : FileSystem}
variable {boot : List UInt8} {kernel : Option (List UInt8)} {image : Image}

/-! ## The staging file -/

/-- A staging file that is refused is refused with every fresh tag. -/
theorem createFile_staging_of_fresh {output : Path} {cause : SystemError}
    (h : before.createFile (output.staging tag) = .error cause) (hfresh : Fresh output tag before)
    (again : Uuid) : before.createFile (output.staging again) = .error cause := by
  obtain ⟨way, hway, -⟩ := exists_way_staging before output
  have hresolve := hway tag
  unfold createFile at h ⊢
  rw [hway] at h ⊢
  cases way with
  | error refusal => exact h
  | ok parent =>
    simp only [Except.map, bind, Except.bind, lookup_eq, Name.byteLength_append,
      Path.byteLength_stagingSuffix, Bool.false_eq_true, if_false] at h ⊢
    by_cases hlong : nameLimit < output.stagingBase.2.byteLength + 41
    · simpa only [hlong, if_true] using h
    · have hshort : ¬ nameLimit < (output.stagingBase.2 ++ Path.stagingSuffix tag).byteLength := by
        rwa [Name.byteLength_append, Path.byteLength_stagingSuffix]
      have hvacant := hfresh _ (locate?_eq_some_iff.2 ⟨parent, _, hresolve, hshort, rfl⟩)
      simp only [hlong, if_false, entry?_eq_none_iff.1 hvacant] at h
      cases h

/-! ## Writing the image and the record -/

theorem Prepared.publication_result (h : Prepared options before boot kernel image)
    (hfresh : Fresh options.output tag before) (hagain : Fresh options.output again before) :
    (publication options image again before).result =
      (publication options image tag before).result := by
  have hassembled := Image.assembled_of_assemble h.assembled
  unfold publication
  cases hmade : before.createFile (options.output.staging tag) with
  | error cause =>
    have hrefused := createFile_staging_of_fresh hmade hfresh again
    rw [hassembled.publish_of_not_made hmade, hassembled.publish_of_not_made hrefused]
  | ok made =>
    cases hmade' : before.createFile (options.output.staging again) with
    | error cause =>
      rw [createFile_staging_of_fresh hmade' hagain tag] at hmade
      cases hmade
    | ok made' => rw [hassembled.publish_of_made hmade, hassembled.publish_of_made hmade']

/-- The same image is in place, or nothing is. -/
theorem Prepared.publication_fs (h : Prepared options before boot kernel image)
    (hfresh : Fresh options.output tag before) (hagain : Fresh options.output again before) :
    SameOutside ∅ (publication options image tag before).fs
      (publication options image again before).fs := by
  have hsame := h.publication_result hfresh hagain
  cases hresult : (publication options image tag before).result with
  | error failure =>
    have hbefore := h.sameOutside hresult
    have hbefore' := h.sameOutside (hsame.trans hresult)
    exact hbefore.symm.trans hbefore'
  | ok _ =>
    obtain ⟨goal, hgoal, hreplaced⟩ := h.replaced hresult
    obtain ⟨goal', hgoal', hreplaced'⟩ := h.replaced (hsame.trans hresult)
    obtain rfl : goal = goal' := Option.some.inj (hgoal.symm.trans hgoal')
    exact hreplaced.congr hreplaced' (.refl before)

theorem saveLayout_congr {layout : Layout} {fs fs' : FileSystem} (hsame : SameOutside ∅ fs fs')
    (h : saveLayout options layout fs = .ok after) :
    ∃ after', saveLayout options layout fs' = .ok after' ∧ SameOutside ∅ after after' := by
  unfold saveLayout at h ⊢
  generalize options.layout = wanted at h ⊢
  cases wanted with
  | none =>
    cases h
    exact ⟨fs', rfl, hsame⟩
  | some path =>
    rcases hsame.writeAll path layout.toRecord with ⟨cause, hb, -⟩ | ⟨written, written', hb, ha, hw⟩
    · simp only [hb, reduceCtorEq] at h
    · simp only [hb, Except.ok.injEq] at h
      exact ⟨written', by simp only [ha], h ▸ hw⟩

/-! ## The whole build -/

/-- Two builds that differ in their fresh tags return the same, tell the same and leave the same tree. -/
theorem repeats_of_fresh (hfresh : Fresh options.output tag before)
    (hagain : Fresh options.output again before) :
    Repeats (run options tag before) (run options again before) := by
  have hcourse := course_of_run options tag before
  generalize run options tag before = outcome at hcourse ⊢
  cases hcourse with
  | loaderUnread h =>
    rw [run_of_course (.loaderUnread h)]
    exact ⟨rfl, rfl, .refl before⟩
  | kernelUnread loader given h =>
    rw [run_of_course (.kernelUnread loader given h)]
    exact ⟨rfl, rfl, .refl before⟩
  | unassembled inputs h =>
    rw [run_of_course (.unassembled inputs h)]
    exact ⟨rfl, rfl, .refl before⟩
  | unpublished prepared summary h =>
    have h' := (prepared.publication_result hfresh hagain).trans h
    rw [run_of_course (.unpublished prepared summary h')]
    exact ⟨rfl, rfl, prepared.publication_fs hfresh hagain⟩
  | unrecorded prepared summary published given h =>
    have published' := (prepared.publication_result hfresh hagain).trans published
    have hsame := prepared.publication_fs hfresh hagain
    rcases hsame.writeAll _ _ with ⟨cause, hb, h'⟩ | ⟨written, written', hb, -⟩
    · obtain rfl := Except.error.inj (h.symm.trans hb)
      rw [run_of_course (.unrecorded prepared summary published' given h')]
      exact ⟨rfl, rfl, hsame⟩
    · rw [h] at hb
      cases hb
  | complete prepared summary published recorded =>
    have published' := (prepared.publication_result hfresh hagain).trans published
    obtain ⟨after', recorded', hsame⟩ :=
      saveLayout_congr (prepared.publication_fs hfresh hagain) recorded
    rw [run_of_course (.complete prepared summary published' recorded')]
    exact ⟨rfl, rfl, hsame⟩

end Build

end BootImage
