import BootImage.Proofs.Disk.ReadBack
import BootImage.Proofs.Image.Publish
/-!
# When an image is published

Two steps of publishing can be refused, the first and the last: the staging file may not be made, and it
may not be renamed. All sectors of an assembled image are written in between, and none of them is found
to differ. So two paths decide (`Image.Assembled.publish_ok_iff`): the output has to lead to something
that is no directory, and the staging path to nothing.
-/

namespace BootImage

open FileSystem

/-- If a disk of such a size cannot be opened, its staging file cannot be made. -/
theorem Disk.create_error_cause {target : Path} {sectorSize sectorCount : Nat} {tag : Uuid}
    {before after : FileSystem} {failure : Failure IoError}
    (hfits : sectorSize * sectorCount < lengthLimit)
    (h : create target sectorSize sectorCount tag before = (.error failure, after)) :
    ∃ cause, failure = .error (.system cause) := by
  cases hc : before.createFile (target.staging tag) with
  | error cause =>
    rw [create_of_not_made hc] at h
    cases h
    exact ⟨cause, rfl⟩
  | ok made =>
    rw [(create_of_made hc).trans (if_pos hfits)] at h
    cases h

namespace Image.Assembled

variable {boot : List UInt8} {kernel : Option (List UInt8)} {config : Config} {image : Image}
variable {output : Path} {verify : Bool} {tag : Uuid} {progress : Progress} {before : FileSystem}

theorem fits (h : Assembled boot kernel config image) :
    image.layout.sectorSize * (image.layout.imageLen / image.layout.sectorSize) < lengthLimit :=
  h.sectorCount_array ▸ h.fits_array

/-- Once its disk is open, all sectors of an image are written, none is found to differ, and the commit
decides what comes of it. -/
theorem publish_eq_of_created (h : Assembled boot kernel config image) (progress : Progress)
    {disk : Disk} {created : FileSystem}
    (hc : Disk.create output image.layout.sectorSize
      (image.layout.imageLen / image.layout.sectorSize) tag before = (.ok disk, created)) :
    ∃ place now, disk.Pending place before now ∧ (now.content disk.file).toList = image.bytes ∧
      ∀ verify, image.publish output verify tag progress before =
        ⟨(disk.commit now).1.mapError .error, (disk.commit now).2,
          ⟨progress.position + image.layout.imageLen / image.layout.sectorSize,
            some (image.layout.imageLen / image.layout.sectorSize)⟩⟩ := by
  obtain ⟨place, now, hrun, hpending, hbytes⟩ :=
    h.filled rfl hc (progress.ofLength (image.layout.imageLen / image.layout.sectorSize))
  have hstores : disk.Stores h.array now := by
    obtain ⟨rfl, -⟩ := Disk.create_ok hc
    exact ⟨rfl, h.sectorCount_array.symm, hbytes.trans h.bytes_array.symm, hpending.staged.live,
      h.fits_array⟩
  refine ⟨place, now, hpending, hbytes, fun verify => ?_⟩
  have hverified : (if verify = true then disk.verify image now else .ok () :
      Except (Failure IoError) Unit) = .ok () := by
    cases verify with
    | false => rfl
    | true => exact Disk.verify_of_stores h hstores
  simp only [publish, publishThrough, h.sectorCount_eq, hc, h.sectors_eq, hrun, hverified]
  rcases disk.commit now with ⟨cause | _, after⟩ <;> rfl

theorem publish_of_created (h : Assembled boot kernel config image) (verify : Bool)
    (progress : Progress) {disk : Disk} {created : FileSystem}
    (hc : Disk.create output image.layout.sectorSize
      (image.layout.imageLen / image.layout.sectorSize) tag before = (.ok disk, created)) :
    ∃ place now, disk.Pending place before now ∧
      (image.publish output verify tag progress before).result =
        (disk.commit now).1.mapError .error := by
  obtain ⟨place, now, hpending, -, hpublish⟩ := h.publish_eq_of_created progress hc
  exact ⟨place, now, hpending, by rw [hpublish]⟩

/-- An image is not published if its disk cannot be opened, and no sector is counted. -/
theorem publish_eq_of_not_created (h : Assembled boot kernel config image) (verify : Bool)
    (progress : Progress) {failure : Failure IoError} {after : FileSystem}
    (hc : Disk.create output image.layout.sectorSize
      (image.layout.imageLen / image.layout.sectorSize) tag before = (.error failure, after)) :
    image.publish output verify tag progress before = ⟨.error failure, after, progress⟩ := by
  simp only [publish, publishThrough, h.sectorCount_eq, hc]

theorem publish_of_not_created (h : Assembled boot kernel config image) {failure : Failure IoError}
    {after : FileSystem}
    (hc : Disk.create output image.layout.sectorSize
      (image.layout.imageLen / image.layout.sectorSize) tag before = (.error failure, after)) :
    (image.publish output verify tag progress before).result = .error failure := by
  rw [h.publish_eq_of_not_created verify progress hc]

/-- Whatever is refused, the system has refused it. -/
theorem publish_error (h : Assembled boot kernel config image) {failure : Failure IoError}
    (hfailed : (image.publish output verify tag progress before).result = .error failure) :
    ∃ cause, failure = .error cause := by
  rcases hc : Disk.create output image.layout.sectorSize
    (image.layout.imageLen / image.layout.sectorSize) tag before with ⟨refusal | disk, created⟩
  · obtain ⟨cause, rfl⟩ := Disk.create_error_cause h.fits hc
    rw [h.publish_of_not_created hc] at hfailed
    exact ⟨_, (Except.error.inj hfailed).symm⟩
  · obtain ⟨place, now, -, hresult⟩ := h.publish_of_created verify progress hc
    rw [hresult] at hfailed
    rcases hcommit : disk.commit now with ⟨cause | _, after⟩
    · rw [hcommit] at hfailed
      exact ⟨cause, (Except.error.inj hfailed).symm⟩
    · rw [hcommit] at hfailed
      cases hfailed

theorem publish_ok_iff (h : Assembled boot kernel config image) :
    (image.publish output verify tag progress before).result = .ok () ↔
      (∃ goal, before.locate? output = some goal ∧ before.node? goal ≠ some .directory) ∧
        ∃ place, before.locate? (output.staging tag) = some place ∧ before.node? place = none := by
  rcases hc : Disk.create output image.layout.sectorSize
    (image.layout.imageLen / image.layout.sectorSize) tag before with ⟨failure | disk, created⟩
  · rw [h.publish_of_not_created hc]
    refine ⟨nofun, ?_⟩
    rintro ⟨-, place, hplace, hvacant⟩
    obtain ⟨disk, after, hopen⟩ := Disk.exists_create hplace hvacant h.fits
    rw [hopen] at hc
    cases hc
  · obtain ⟨place, now, hpending, hresult⟩ := h.publish_of_created verify progress hc
    obtain ⟨rfl, -⟩ := Disk.create_ok hc
    have hstaging := hpending.locate? hpending.staged.locate
    rw [hresult]
    constructor
    · intro hok
      rcases hcommit : Disk.commit _ now with ⟨cause | _, after⟩
      · rw [hcommit] at hok
        cases hok
      · obtain ⟨goal, hgoal, hfree, -⟩ := Disk.commit_ok hpending.staged hcommit
        exact ⟨⟨goal, hpending.locate? hgoal, fun hd => hfree (hpending.frame.directories goal hd)⟩,
          place, hstaging, hpending.vacant⟩
    · rintro ⟨⟨goal, hgoal, hfree⟩, -⟩
      -- The staging file is not the target, so there is no directory where it will go.
      have hne : goal ∉ ({place} : Set Location) := (staging_ne_target hstaging hgoal).symm
      rw [Disk.commit_eq hpending.staged (hpending.frame.locate? hgoal)
        ((hpending.frame.node?_eq hne).symm ▸ hfree)]
      rfl

end Image.Assembled

end BootImage
