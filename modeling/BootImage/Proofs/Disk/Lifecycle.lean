import BootImage.Disk
import BootImage.Proofs.FileSystem.Frame
/-!
# From opening a disk to giving it up

A disk is `Disk.Staged` at an entry as long as that entry is the file it has open. Opening one makes
such an entry where there was nothing; giving it up removes exactly that entry; a commit moves it
to the target or, if it is refused, removes it as well. A disk that cannot be opened leaves
everything as it was.
-/

namespace BootImage

open FileSystem

namespace Disk

/-- The staging path of the disk names the entry at `place`, and that is the file the disk has
open. -/
structure Staged (disk : Disk) (place : Location) (fs : FileSystem) : Prop where
  locate : fs.locate? disk.staging = some place
  node : fs.node? place = some (.file disk.file)

theorem Staged.live {disk : Disk} {place : Location} {fs : FileSystem} (h : disk.Staged place fs) :
    disk.file < fs.contents.length :=
  lt_of_node? h.node

/-- A disk does not notice changes of other entries. -/
theorem Staged.frame {disk : Disk} {place : Location} {places : Set Location} {ids : Set FileId}
    {before after : FileSystem} (h : disk.Staged place before)
    (hf : Frame places ids before after) (hp : place ∉ places) : disk.Staged place after :=
  ⟨hf.locate? h.locate, (hf.node?_eq hp).trans h.node⟩

theorem Staged.ne_of_vacant {disk : Disk} {place vacant : Location} {fs : FileSystem}
    (h : disk.Staged place fs) (hv : fs.node? vacant = none) : place ≠ vacant := by
  rintro rfl
  rw [h.node] at hv
  cases hv

/-- A disk is staged at one place only. -/
theorem Staged.place_eq {disk : Disk} {place other : Location} {fs : FileSystem}
    (h : disk.Staged place fs) (h' : disk.Staged other fs) : place = other :=
  Option.some.inj (h.locate.symm.trans h'.locate)

/-! ## Giving up -/

theorem discard_eq {disk : Disk} {place : Location} {fs : FileSystem} (h : disk.Staged place fs) :
    disk.discard fs = fs.erase place := by
  have hr : fs.removeFile disk.staging = .ok (fs.erase place) :=
    removeFile_eq_ok_iff.2 ⟨place, disk.file, h.locate, h.node, rfl⟩
  rw [discard, hr]

/-! ## A disk and nothing else -/

/-- All that has changed is that a disk was opened, and perhaps written. -/
structure Pending (disk : Disk) (place : Location) (before now : FileSystem) : Prop where
  staged : disk.Staged place now
  vacant : before.node? place = none
  frame : Frame {place} ∅ before now

namespace Pending

variable {disk : Disk} {place : Location} {before now : FileSystem}

/-- Paths lead where they led before the disk was opened. -/
theorem locate? (h : disk.Pending place before now) {path : Path} {goal : Location}
    (hgoal : now.locate? path = some goal) : before.locate? path = some goal :=
  (h.frame.keepsDirectories_symm (ne_directory_of_file h.staged.node)).locate? hgoal

/-- The file of the disk is new, so no old content changes when it is written. -/
theorem write {after : FileSystem} (h : disk.Pending place before now)
    (hnew : before.contents.length ≤ disk.file) (hw : Frame ∅ {disk.file} now after) :
    disk.Pending place before after where
  staged := h.staged.frame hw (Set.notMem_empty place)
  vacant := h.vacant
  frame := by
    have hboth := h.frame.trans hw
    rw [Set.union_empty, Set.empty_union, ← LawfulSingleton.insert_empty_eq disk.file] at hboth
    exact hboth.fresh hnew

/-- Giving the disk up leaves no trace of it. -/
theorem discard (h : disk.Pending place before now) : Frame ∅ ∅ before (disk.discard now) := by
  rw [discard_eq h.staged]
  exact h.frame.undo h.vacant h.staged.node

end Pending

/-! ## Opening -/

/-- An empty file of which only the length was set. -/
theorem toList_resize_empty (len : Nat) :
    (FileContent.empty.resize len).toList = List.replicate len 0 := by
  rw [FileContent.toList_resize, FileContent.toList_empty, List.take_nil, List.nil_append]
  rfl

/-- The disk that is opened for a target. -/
def opened (target : Path) (sectorSize sectorCount : Nat) (tag : Uuid) (fs : FileSystem) : Disk where
  file := fs.contents.length
  staging := target.staging tag
  target := target
  sectorSize := sectorSize
  sectorCount := sectorCount

/-- Once its file is made, a disk is staged there. -/
theorem pending_opened {target : Path} {tag : Uuid} {fs : FileSystem} {place : Location}
    (hlocate : fs.locate? (target.staging tag) = some place) (hvacant : fs.node? place = none)
    (sectorSize sectorCount : Nat) :
    (opened target sectorSize sectorCount tag fs).Pending place fs (fs.addFile place .empty) where
  staged := {
    locate := (frame_addFile hvacant .empty).locate? hlocate
    node := by rw [node?_addFile_of_vacant hvacant, if_pos rfl]; rfl
  }
  vacant := hvacant
  frame := frame_addFile hvacant .empty

section

variable {target : Path} {sectorSize sectorCount : Nat} {tag : Uuid} {before after : FileSystem}

theorem create_of_not_made {cause : SystemError}
    (h : before.createFile (target.staging tag) = .error cause) :
    create target sectorSize sectorCount tag before = (.error (.error (.system cause)), before) := by
  simp only [create, openAt, h]

/-- Once the staging file is made, the length that is asked for decides. -/
theorem create_of_made {made : FileId × FileSystem}
    (h : before.createFile (target.staging tag) = .ok made) :
    create target sectorSize sectorCount tag before =
      let disk := opened target sectorSize sectorCount tag before
      let product := sectorSize * sectorCount
      if product < lengthLimit then
        (.ok disk, made.2.setContent disk.file ((made.2.content disk.file).resize product))
      else if product < wordLimit then
        (.error (.error (.system .lengthTooLarge)), disk.discard made.2)
      else
        (.error (.fault .overflow), disk.discard made.2) := by
  obtain ⟨place, -, -, hfile, -⟩ := createFile_eq_ok_iff.1 h
  obtain ⟨file, created⟩ := made
  obtain rfl : file = before.contents.length := hfile
  by_cases hword : sectorSize * sectorCount < wordLimit
  · by_cases hlength : sectorSize * sectorCount < lengthLimit
    · simp only [create, openAt, h, Word.mul, hword, setLength, hlength, if_true, opened]
    · simp only [create, openAt, h, Word.mul, hword, setLength, hlength, if_true, if_false, opened]
  · have hlength : ¬ sectorSize * sectorCount < lengthLimit :=
      fun hlt => hword (Nat.lt_trans hlt (by decide))
    simp only [create, openAt, h, Word.mul, hword, hlength, if_false, opened]

/-- What an opened disk is, and what has changed for it. -/
theorem create_ok {disk : Disk} (h : create target sectorSize sectorCount tag before = (.ok disk, after)) :
    disk = opened target sectorSize sectorCount tag before ∧
      sectorSize * sectorCount < lengthLimit ∧
      (after.content disk.file).toList = List.replicate (sectorSize * sectorCount) 0 ∧
      ∃ place, disk.Pending place before after := by
  cases hc : before.createFile (target.staging tag) with
  | error cause =>
    rw [create_of_not_made hc] at h
    cases h
  | ok made =>
    rw [create_of_made hc] at h
    obtain ⟨place, hlocate, hvacant, -, hmade⟩ := createFile_eq_ok_iff.1 hc
    have hpending := pending_opened hlocate hvacant sectorSize sectorCount
    have hlive : before.contents.length < (before.addFile place .empty).contents.length :=
      hpending.staged.live
    simp only at h
    split at h
    · rename_i hlength
      cases h
      refine ⟨rfl, hlength, ?_, place, ?_⟩
      · rw [hmade, opened, content_setContent hlive, if_pos rfl, content_addFile_new,
          toList_resize_empty]
      · rw [hmade]
        exact hpending.write (Nat.le_refl _) (frame_setContent hlive _)
    · split at h <;> cases h

/-- A disk can be opened where its staging path leads to nothing yet, if no file is too short for it. -/
theorem exists_create {fs : FileSystem}
    {place : Location} (hlocate : fs.locate? (target.staging tag) = some place)
    (hvacant : fs.node? place = none) (hfits : sectorSize * sectorCount < lengthLimit) :
    ∃ disk after, create target sectorSize sectorCount tag fs = (.ok disk, after) := by
  have hmade := createFile_eq_ok_iff.2 ⟨place, hlocate, hvacant, rfl, rfl⟩
  exact ⟨_, _, (create_of_made hmade).trans (if_pos hfits)⟩

/-- A disk that cannot be opened leaves no staging file and no other trace. -/
theorem create_error {failure : Failure IoError}
    (h : create target sectorSize sectorCount tag before = (.error failure, after)) :
    Frame ∅ ∅ before after := by
  cases hc : before.createFile (target.staging tag) with
  | error cause =>
    rw [create_of_not_made hc] at h
    cases h
    exact .refl before
  | ok made =>
    rw [create_of_made hc] at h
    obtain ⟨place, hlocate, hvacant, -, hmade⟩ := createFile_eq_ok_iff.1 hc
    have hundo : Frame ∅ ∅ before
        ((opened target sectorSize sectorCount tag before).discard (before.addFile place .empty)) :=
      (pending_opened hlocate hvacant sectorSize sectorCount).discard
    rw [← hmade] at hundo
    simp only at h
    split at h
    · cases h
    · split at h <;> cases h <;> exact hundo

end

/-! ## Writing -/

/-- Whether a sector can be written, and where in the file it lies, does not depend on the tree. -/
theorem write_cases (disk : Disk) (sector : Nat) (data : List UInt8) :
    (∃ failure, ∀ fs, disk.write sector data fs = .error failure) ∨
      ∃ offset, ∀ fs, disk.write sector data fs = .ok (fs.writeAt disk.file offset data) := by
  unfold write
  cases disk.check sector data.length with
  | error cause => exact .inl ⟨.error cause, fun _ => rfl⟩
  | ok _ =>
    cases Word.mul sector disk.sectorSize with
    | error fault => exact .inl ⟨.fault fault, fun _ => rfl⟩
    | ok offset => exact .inr ⟨offset, fun _ => rfl⟩

theorem frame_of_write {disk : Disk} {sector : Nat} {data : List UInt8} {before after : FileSystem}
    (hlive : disk.file < before.contents.length) (h : disk.write sector data before = .ok after) :
    Frame ∅ {disk.file} before after := by
  rcases disk.write_cases sector data with ⟨failure, hrefused⟩ | ⟨offset, hwritten⟩
  · rw [hrefused] at h
    cases h
  · rw [hwritten, Except.ok.injEq] at h
    rw [← h]
    exact frame_setContent hlive _

/-! ## Committing -/

/-- A commit moves the staging file to where the target leads. -/
theorem commit_ok {disk : Disk} {place : Location} {before after : FileSystem}
    (hs : disk.Staged place before) (h : disk.commit before = (.ok (), after)) :
    ∃ goal, before.locate? disk.target = some goal ∧ before.node? goal ≠ some .directory ∧
      after = before.move place goal := by
  unfold commit at h
  cases hr : before.renameFile disk.staging disk.target with
  | error cause => simp [hr] at h
  | ok renamed =>
    obtain ⟨source, id, goal, hlocate, -, hgoal, hnode, rfl⟩ := renameFile_eq_ok_iff.1 hr
    rw [hs.locate, Option.some.injEq] at hlocate
    simp only [hr, Prod.mk.injEq, true_and] at h
    exact ⟨goal, hgoal, hnode, by rw [← h, hlocate]⟩

/-- Only a directory refuses to be replaced. -/
theorem commit_eq {disk : Disk} {place goal : Location} {fs : FileSystem} (hs : disk.Staged place fs)
    (hgoal : fs.locate? disk.target = some goal) (hfree : fs.node? goal ≠ some .directory) :
    disk.commit fs = (.ok (), fs.move place goal) := by
  have hrenamed : fs.renameFile disk.staging disk.target = .ok (fs.move place goal) :=
    renameFile_eq_ok_iff.2 ⟨place, disk.file, goal, hs.locate, hs.node, hgoal, hfree, rfl⟩
  rw [commit, hrenamed]

/-- A commit that is refused gives the disk up. -/
theorem commit_error {disk : Disk} {place : Location} {before after : FileSystem} {cause : IoError}
    (hs : disk.Staged place before) (h : disk.commit before = (.error cause, after)) :
    after = before.erase place := by
  unfold commit at h
  cases hr : before.renameFile disk.staging disk.target with
  | ok renamed => simp [hr] at h
  | error refusal =>
    simp only [hr, Prod.mk.injEq] at h
    rw [← h.2, discard_eq hs]

namespace Pending

variable {disk : Disk} {place : Location} {before now after : FileSystem}

theorem commit_error {cause : IoError} (h : disk.Pending place before now)
    (hc : disk.commit now = (.error cause, after)) : Frame ∅ ∅ before after := by
  rw [Disk.commit_error h.staged hc, ← discard_eq h.staged]
  exact h.discard

/-- A commit changes the target's entry alone: there the disk's file is now. -/
theorem commit_ok {tag : Uuid} (h : disk.Pending place before now)
    (hs : disk.staging = disk.target.staging tag) (hc : disk.commit now = (.ok (), after)) :
    ∃ goal, before.locate? disk.target = some goal ∧ Frame {goal} ∅ before after ∧
      after.node? goal = some (.file disk.file) ∧ after.node? place = none ∧
      after.contents = now.contents := by
  obtain ⟨goal, hgoal, hnode, rfl⟩ := Disk.commit_ok h.staged hc
  have hne : place ≠ goal := by
    have hlocate := h.staged.locate
    rw [hs] at hlocate
    exact staging_ne_target hlocate hgoal
  -- Nothing is left where the disk was staged, as nothing was there before it was opened.
  have hgone : (now.move place goal).node? place = none := by
    rw [node?_move_of_file h.staged.node hnode, if_neg hne, if_pos rfl]
  have hframe : Frame (insert place {goal}) ∅ before (now.move place goal) := by
    refine (h.frame.trans (frame_move h.staged.node hnode)).mono ?_ (by simp)
    rintro p (hp | hp)
    · exact .inl hp
    · exact hp
  refine ⟨goal, h.locate? hgoal, hframe.erase (by rw [hgone, h.vacant]), ?_, hgone, rfl⟩
  rw [node?_move_of_file h.staged.node hnode, if_pos rfl]

end Pending

end Disk

end BootImage
