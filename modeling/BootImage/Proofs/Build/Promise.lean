import BootImage.Proofs.Build.Course
import BootImage.Proofs.Image.Recovery
/-!
# What a build that succeeds leaves

The output should hold the image, and the record, if it is wanted, tell where the inputs are in it
(`Build.Kept`). The record is written last, and over whatever its path leads to. So the promise is
kept unless that is the output, and then too if the image happens to be its own record
(`Build.kept_iff`).
-/

namespace BootImage

open FileSystem

namespace Build

/-- The output holds the image. The record, if it is wanted, is the one of its layout, and with it the
inputs are found in what the output holds. -/
structure Kept (options : Options) (boot : List UInt8) (kernel : Option (List UInt8)) (image : Image)
    (after : FileSystem) : Prop where
  output : after.readAll options.output = .ok image.bytes
  record : ∀ path, options.layout = some path → ∃ record bytes,
    after.readAll path = .ok record ∧ Layout.ofRecord record = .ok image.layout ∧
      after.readAll options.output = .ok bytes ∧ image.layout.Recovers bytes boot kernel

variable {options : Options} {tag : Uuid} {before : FileSystem} {report : Report}

/-- A build that succeeds writes the image over the output and then, if it is wanted, the record over
what its path leads to. -/
theorem replaced_of_ok (h : (run options tag before).result = .ok report) :
    ∃ boot kernel image goal published, Prepared options before boot kernel image ∧
      before.locate? options.output = some goal ∧ Replaced goal image.bytes before published ∧
      (options.layout = none ∧ (run options tag before).fs = published ∨
        ∃ path place, options.layout = some path ∧ before.locate? path = some place ∧
          Replaced place image.layout.toRecord published (run options tag before).fs) := by
  obtain ⟨boot, kernel, image, after, prepared, -, published, recorded, hrun⟩ := complete_of_ok h
  obtain ⟨goal, hgoal, hreplaced⟩ := prepared.replaced published
  rw [hrun]
  refine ⟨boot, kernel, image, goal, _, prepared, hgoal, hreplaced, ?_⟩
  rcases saveLayout_eq_ok recorded with ⟨hnone, rfl⟩ | ⟨path, place, hpath, hplace, hrecord⟩
  · exact .inl ⟨hnone, rfl⟩
  · rw [hreplaced.locate?_eq] at hplace
    exact .inr ⟨path, place, hpath, hplace, hrecord⟩

/-- What a build that succeeds promises is so afterwards, except if the record has been written over
the image: then it is so only if the two are the same bytes. -/
theorem kept_iff (h : (run options tag before).result = .ok report) :
    ∃ boot kernel image, Prepared options before boot kernel image ∧
      (∀ path, options.layout = some path →
        (run options tag before).fs.readAll path = .ok image.layout.toRecord ∧
          Layout.ofRecord image.layout.toRecord = .ok image.layout) ∧
      (Kept options boot kernel image (run options tag before).fs ↔
        ∀ path, options.layout = some path → before.locate? path = before.locate? options.output →
          image.bytes = image.layout.toRecord) := by
  obtain ⟨boot, kernel, image, goal, published, hprepared, hgoal, himage, hlast⟩ := replaced_of_ok h
  have hassembled := Image.assembled_of_assemble hprepared.assembled
  refine ⟨boot, kernel, image, hprepared, ?_⟩
  have hpublished : published.readAll options.output = .ok image.bytes := himage.readAll_eq hgoal
  generalize (run options tag before).fs = after at hlast ⊢
  rcases hlast with ⟨hnone, rfl⟩ | ⟨path, place, hpath, hplace, hrecord⟩
  · refine ⟨by simp [hnone], ?_⟩
    simp only [hnone, reduceCtorEq, false_imp_iff, implies_true, iff_true]
    exact ⟨hpublished, by simp [hnone]⟩
  · have hread : after.readAll path = .ok image.layout.toRecord :=
      hrecord.readAll_eq ((himage.locate?_eq path).trans hplace)
    have houtput : published.locate? options.output = some goal :=
      (himage.locate?_eq options.output).trans hgoal
    simp only [hpath, Option.some.injEq, forall_eq']
    refine ⟨⟨hread, hassembled.ofRecord_toRecord⟩, fun hkept hsame => ?_, fun hsame => ?_⟩
    · -- One entry cannot hold both.
      have hover : after.readAll options.output = .ok image.layout.toRecord :=
        hrecord.readAll_eq ((himage.locate?_eq _).trans (hsame.symm.trans hplace))
      exact Except.ok.inj (hkept.output.symm.trans hover)
    · have hafter : after.readAll options.output = .ok image.bytes := by
        by_cases hplaces : goal = place
        · rw [hsame (by rw [hplace, hgoal, hplaces])]
          exact hrecord.readAll_eq (hplaces ▸ houtput)
        · have helsewhere : published.locate? options.output ≠ some place := by
            rw [houtput]
            exact fun e => hplaces (Option.some.inj e)
          exact (hrecord.readAll_iff helsewhere _).2 hpublished
      refine ⟨hafter, fun other hother => ?_⟩
      obtain rfl : path = other := Option.some.inj (hpath.symm.trans hother)
      exact ⟨_, _, hread, hassembled.ofRecord_toRecord, hafter, hassembled.recovers⟩

/-- A record beside the output, and a kernel behind a boot sector that is no whole number of
sectors. -/
theorem kept_iff_beside_output :
    ∃ options before boot kernel image, Prepared options before boot kernel image ∧
      options.layout = some ⟨['l']⟩ ∧ image.bytes = [1, 2, 3, 0, 0, 0, 0, 0, 7, 8, 0, 0] ∧
      Kept options boot kernel image (run options (.ofRandom 0) before).fs := by
  let options : Options :=
    ⟨⟨['b']⟩, some ⟨['k']⟩, ⟨['o']⟩, some ⟨['l']⟩, true, true, ⟨4, 6, 16, 64⟩⟩
  let before := ((FileSystem.empty []).addFile [['b']] (.ofList [1, 2, 3])).addFile [['k']]
    (.ofList [7, 8])
  let image : Image := ⟨[1, 2, 3, 0, 0, 0, 0, 0, 7, 8, 0, 0], ⟨4, 6, 0, 8, some 2, 12⟩⟩
  have hassemble : Image.assemble [1, 2, 3] (some [7, 8]) options.config = .ok image := by
    subst options image
    rfl
  have hrun : (run options (.ofRandom 0) before).result = .ok ⟨12, 4, 3, 6, 0, 8, 2, some 2⟩ := by
    subst options before
    decide +kernel
  have hprepared : Prepared options before [1, 2, 3] (some [7, 8]) image :=
    ⟨⟨by rfl, .some (by rfl)⟩, hassemble⟩
  obtain ⟨boot, kernel, found, hfound, -, hkept⟩ := kept_iff hrun
  obtain ⟨rfl, rfl, rfl⟩ := hprepared.unique hfound
  refine ⟨options, before, _, _, image, hprepared, rfl, rfl, hkept.2 ?_⟩
  intro path hpath hsame
  obtain rfl : (⟨['l']⟩ : Path) = path := Option.some.inj hpath
  exact absurd hsame (by decide)

/-- With the output as the path of the record, the build succeeds and the image is gone. -/
theorem not_kept_over_output :
    ∃ options before image report, Prepared options before [0xaa, 0xbb, 0xcc, 0xdd] none image ∧
      options.layout = some options.output ∧
      (run options (.ofRandom 0) before).result = .ok report ∧
      (run options (.ofRandom 0) before).fs.readAll options.output = .ok image.layout.toRecord ∧
      ¬ Kept options [0xaa, 0xbb, 0xcc, 0xdd] none image (run options (.ofRandom 0) before).fs := by
  let options : Options := ⟨⟨['b']⟩, none, ⟨['o']⟩, some ⟨['o']⟩, false, true, ⟨4, 4, 32768, 16777216⟩⟩
  let before := (FileSystem.empty []).addFile [['b']] (.ofList [0xaa, 0xbb, 0xcc, 0xdd])
  let image : Image := ⟨[0xaa, 0xbb, 0xcc, 0xdd], ⟨4, 4, 0, 4, none, 4⟩⟩
  have hassemble : Image.assemble [0xaa, 0xbb, 0xcc, 0xdd] none options.config = .ok image := by
    subst options image
    rfl
  have hrun : (run options (.ofRandom 0) before).result = .ok ⟨4, 4, 1, 4, 0, 4, 1, none⟩ := by
    subst options before
    rfl
  have hread : (run options (.ofRandom 0) before).fs.readAll options.output =
      .ok image.layout.toRecord := by
    subst options before image
    rfl
  refine ⟨options, before, image, _, ⟨⟨by rfl, .none⟩, hassemble⟩, rfl, hrun, hread, ?_⟩
  intro hkept
  have hsame : image.bytes = image.layout.toRecord :=
    Except.ok.inj (hkept.output.symm.trans hread)
  exact absurd hsame (by decide)

end Build

end BootImage
