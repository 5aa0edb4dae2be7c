import BootImage.Proofs.Disk.Lifecycle
import BootImage.Proofs.FileSystem.Unchanged
/-!
# Opening a disk, or not

`Disk.create` can be refused before its staging file is made, and after: the file is there already when
its length turns out to be more than a file can have, or no word at all. Which way an opening goes is
decided by the staging path and the product of the two sizes (`Disk.create_fst_of_made`). Where it is refused,
nothing has changed (`Frame ∅ ∅`), and those who have a disk open go on as if nothing had been tried
(`Disk.useAll_of_frame`).
-/

namespace BootImage

open FileSystem

namespace Disk

/-! ## The ways an opening can go -/

section

variable {target : Path} {sectorSize sectorCount : Nat} {tag : Uuid} {before : FileSystem}

/-- Whether a disk is opened depends on the length alone, once the staging file is made. -/
theorem create_fst_of_made {made : FileId × FileSystem}
    (h : before.createFile (target.staging tag) = .ok made) :
    (create target sectorSize sectorCount tag before).1 =
      if sectorSize * sectorCount < lengthLimit then
        .ok (opened target sectorSize sectorCount tag before)
      else if sectorSize * sectorCount < wordLimit then .error (.error (.system .lengthTooLarge))
      else .error (.fault .overflow) := by
  rw [create_of_made h]
  simp only
  split
  · rfl
  · split <;> rfl

/-- The disk that was asked for, its file of zeros, and nothing else that is new. -/
structure Opens (target : Path) (sectorSize sectorCount : Nat) (tag : Uuid) (before after : FileSystem)
    (disk : Disk) (place : Location) : Prop where
  disk_eq : disk = opened target sectorSize sectorCount tag before
  locate : before.locate? (target.staging tag) = some place
  vacant : before.entry? place = none
  staged : disk.Staged place after
  zeros : after.readAll (target.staging tag) = .ok (List.replicate (sectorSize * sectorCount) 0)
  sameOutside : SameOutside {place} before after

theorem opens_of_create {disk : Disk} {after : FileSystem}
    (h : create target sectorSize sectorCount tag before = (.ok disk, after)) :
    ∃ place, Opens target sectorSize sectorCount tag before after disk place := by
  obtain ⟨hdisk, -, hzeros, place, hpending⟩ := create_ok h
  have hstaging : disk.staging = target.staging tag := by rw [hdisk]; rfl
  have hlocate : before.locate? disk.staging = some place := hpending.locate? hpending.staged.locate
  refine ⟨place, {
    disk_eq := hdisk
    locate := hstaging ▸ hlocate
    vacant := entry?_eq_none_iff.2 hpending.vacant
    staged := hpending.staged
    zeros := ?_
    sameOutside := hpending.frame.sameOutside
  }⟩
  rw [← hzeros, ← hstaging]
  exact readAll_eq_ok_iff.2 ⟨place, hpending.staged.locate, entry?_of_file hpending.staged.node⟩

end

/-! ## Using the disks that are open -/

/-- Something to do with an open disk. -/
inductive Use
  | read (sector len : Nat)
  | write (sector : Nat) (data : List UInt8)
  | commit
  | discard
deriving Repr

/-- Does it: the answer, with the bytes if some were read, and the tree that is left. -/
def use (disk : Disk) (fs : FileSystem) : Use → Except (Failure IoError) (List UInt8) × FileSystem
  | .read sector len => (disk.read sector len fs, fs)
  | .write sector data =>
    match disk.write sector data fs with
    | .error failure => (.error failure, fs)
    | .ok written => (.ok [], written)
  | .commit =>
    match disk.commit fs with
    | (.error cause, after) => (.error (.error cause), after)
    | (.ok (), after) => (.ok [], after)
  | .discard => (.ok [], disk.discard fs)

/-- Uses some disks in turn. -/
def useAll : List (Disk × Use) → FileSystem → List (Except (Failure IoError) (List UInt8)) × FileSystem
  | [], fs => ([], fs)
  | (disk, what) :: uses, fs =>
    let first := disk.use fs what
    let others := useAll uses first.2
    (first.1 :: others.1, others.2)

section

variable {disk : Disk} {before after : FileSystem}

theorem read_of_frame (h : Frame ∅ ∅ before after) (hlive : disk.file < before.contents.length)
    (sector len : Nat) : disk.read sector len after = disk.read sector len before := by
  unfold read readExactly
  rw [h.content_eq_of_lt hlive]

theorem discard_of_frame (h : Frame ∅ ∅ before after) :
    Frame ∅ ∅ (disk.discard before) (disk.discard after) := by
  unfold discard
  cases hb : before.removeFile disk.staging with
  | error cause =>
    obtain ⟨cause', ha⟩ := h.removeFile_eq_error hb
    rw [ha]
    exact h
  | ok removed =>
    obtain ⟨removed', ha, hframe⟩ := h.removeFile_eq_ok hb
    rw [ha]
    exact hframe

/-- One use is answered alike in both trees and leaves them alike. -/
theorem use_of_frame (h : Frame ∅ ∅ before after) (hlive : disk.file < before.contents.length)
    (what : Use) : (disk.use after what).1 = (disk.use before what).1 ∧
      Frame ∅ ∅ (disk.use before what).2 (disk.use after what).2 := by
  cases what with
  | read sector len => exact ⟨read_of_frame h hlive sector len, h⟩
  | write sector data =>
    rcases disk.write_cases sector data with ⟨failure, hrefused⟩ | ⟨offset, hwritten⟩
    · simp only [use, hrefused]
      exact ⟨trivial, h⟩
    · simp only [use, hwritten, writeAt, h.content_eq_of_lt hlive]
      exact ⟨trivial, h.setContent_both hlive _⟩
  | commit =>
    unfold use commit
    cases hb : before.renameFile disk.staging disk.target with
    | error cause =>
      rw [h.renameFile_eq_error hb]
      exact ⟨rfl, discard_of_frame h⟩
    | ok renamed =>
      obtain ⟨renamed', ha, hframe⟩ := h.renameFile_eq_ok hb
      rw [ha]
      exact ⟨rfl, hframe⟩
  | discard => exact ⟨rfl, discard_of_frame h⟩

theorem length_le_discard (disk : Disk) (fs : FileSystem) :
    fs.contents.length ≤ (disk.discard fs).contents.length := by
  unfold discard
  cases hr : fs.removeFile disk.staging with
  | error cause => exact Nat.le_refl _
  | ok removed =>
    obtain ⟨place, id, -, -, rfl⟩ := removeFile_eq_ok_iff.1 hr
    exact Nat.le_refl _

/-- A file that is there is there after every use, whatever becomes of its name. -/
theorem length_le_use (disk : Disk) (fs : FileSystem) (what : Use) :
    fs.contents.length ≤ (disk.use fs what).2.contents.length := by
  cases what with
  | read sector len => exact Nat.le_refl _
  | write sector data =>
    rcases disk.write_cases sector data with ⟨failure, hrefused⟩ | ⟨offset, hwritten⟩
    · simp only [use, hrefused]
      exact Nat.le_refl _
    · simp only [use, hwritten, writeAt, setContent, List.length_set]
      exact Nat.le_refl _
  | commit =>
    unfold use commit
    cases hr : fs.renameFile disk.staging disk.target with
    | error cause => exact length_le_discard disk fs
    | ok renamed =>
      obtain ⟨place, id, goal, -, -, -, -, rfl⟩ := renameFile_eq_ok_iff.1 hr
      exact Nat.le_refl _
  | discard => exact length_le_discard disk fs

end

/-- Whatever is done with the disks that are open is answered alike in both trees. -/
theorem useAll_of_frame {uses : List (Disk × Use)} {before after : FileSystem} (h : Frame ∅ ∅ before after)
    (hlive : ∀ entry ∈ uses, entry.1.file < before.contents.length) :
    (useAll uses after).1 = (useAll uses before).1 ∧
      Frame ∅ ∅ (useAll uses before).2 (useAll uses after).2 := by
  induction uses generalizing before after with
  | nil => exact ⟨rfl, h⟩
  | cons entry uses ih =>
    obtain ⟨disk, what⟩ := entry
    obtain ⟨hopen, hothers⟩ := List.forall_mem_cons.1 hlive
    obtain ⟨hanswer, hframe⟩ := use_of_frame h hopen what
    obtain ⟨hanswers, hlast⟩ := ih hframe fun other hm =>
      Nat.lt_of_lt_of_le (hothers other hm) (length_le_use disk before what)
    exact ⟨by simp only [useAll, hanswer, hanswers], hlast⟩

/-! ## Exact or without a trace -/

/-- Nothing that can be seen has changed, and what is done with the disks that were open before comes to
the same as if nothing had happened since. -/
structure Traceless (before after : FileSystem) : Prop where
  sameOutside : SameOutside ∅ before after
  useAll_eq : ∀ uses : List (Disk × Use), (∀ entry ∈ uses, entry.1.file < before.contents.length) →
    (useAll uses after).1 = (useAll uses before).1 ∧
      SameOutside ∅ (useAll uses before).2 (useAll uses after).2

theorem traceless_of_frame {before after : FileSystem} (h : Frame ∅ ∅ before after) :
    Traceless before after where
  sameOutside := h.sameOutside
  useAll_eq _ hlive :=
    let ⟨hanswers, hframe⟩ := useAll_of_frame h hlive
    ⟨hanswers, hframe.sameOutside⟩

/-- If the staging file can be made, the product of the two sizes decides: a disk of so many zeros is
opened, with nothing else changed, if a file can be that long; a longer file is refused as invalid
input; and a product that is no word is a fault. If the staging file cannot be made, that is the error.
Whichever way it fails, there is no trace of it. -/
theorem create_exact_or_traceless (target : Path) (sectorSize sectorCount : Nat) (tag : Uuid)
    (before : FileSystem) :
    let product := sectorSize * sectorCount
    let outcome := create target sectorSize sectorCount tag before
    (∀ made, before.createFile (target.staging tag) = .ok made →
      (product < lengthLimit → ∃ disk place, outcome.1 = .ok disk ∧
        Opens target sectorSize sectorCount tag before outcome.2 disk place) ∧
      (lengthLimit ≤ product → product < wordLimit →
        ∃ cause, outcome.1 = .error (.error cause) ∧ cause.kind = .invalidInput) ∧
      (wordLimit ≤ product → outcome.1 = .error (.fault .overflow))) ∧
    (∀ cause, before.createFile (target.staging tag) = .error cause →
      outcome.1 = .error (.error (.system cause))) ∧
    ∀ failure, outcome.1 = .error failure → Traceless before outcome.2 := by
  intro product outcome
  refine ⟨fun made hmade => ⟨?_, ?_, ?_⟩, ?_, ?_⟩
  · intro hlength
    have hopened : outcome.1 = .ok (opened target sectorSize sectorCount tag before) :=
      (create_fst_of_made hmade).trans (if_pos hlength)
    obtain ⟨place, hopens⟩ := opens_of_create (Prod.ext hopened rfl)
    exact ⟨_, place, hopened, hopens⟩
  · intro hlength hword
    refine ⟨.system .lengthTooLarge, (create_fst_of_made hmade).trans ?_, rfl⟩
    rw [if_neg (Nat.not_lt.2 hlength), if_pos hword]
  · intro hword
    have hlimits : lengthLimit ≤ wordLimit := by decide
    refine (create_fst_of_made hmade).trans ?_
    rw [if_neg (Nat.not_lt.2 (Nat.le_trans hlimits hword)), if_neg (Nat.not_lt.2 hword)]
  · intro cause hrefused
    rw [show outcome = _ from create_of_not_made hrefused]
  · intro failure hfailed
    exact traceless_of_frame (create_error (Prod.ext hfailed rfl))

/-- A disk of two sectors of half the longest file each cannot be opened. The disk that is open already
is written and committed afterwards. -/
theorem create_exact_or_traceless_beside_open_disk :
    ∃ (other : Disk) (before : FileSystem) (made : FileId × FileSystem),
      other.Staged [['a'] ++ Path.stagingSuffix (.ofRandom 0)] before ∧
        before.createFile (Path.staging ⟨['b']⟩ (.ofRandom 1)) = .ok made ∧
        let outcome := create ⟨['b']⟩ (Nat.pow 2 62) 2 (.ofRandom 1) before
        (∃ cause, outcome.1 = .error (.error cause) ∧ cause.kind = .invalidInput) ∧
          FileSystem.entry? outcome.2 [['b'] ++ Path.stagingSuffix (.ofRandom 1)] = none ∧
          (useAll [(other, .write 0 [1, 2]), (other, .commit)] outcome.2).1 = [.ok [], .ok []] := by
  let start := FileSystem.empty []
  let other := opened ⟨['a']⟩ 2 1 (.ofRandom 0) start
  let before := (create ⟨['a']⟩ 2 1 (.ofRandom 0) start).2
  have hstaged : other.Staged [['a'] ++ Path.stagingSuffix (.ofRandom 0)] before :=
    ⟨by decide +kernel, by decide +kernel⟩
  have hvacant : before.entry? [['b'] ++ Path.stagingSuffix (.ofRandom 1)] = none := by decide +kernel
  have hlocate : before.locate? (Path.staging ⟨['b']⟩ (.ofRandom 1)) =
      some [['b'] ++ Path.stagingSuffix (.ofRandom 1)] := by decide +kernel
  have hmade := createFile_eq_ok_iff.2 ⟨_, hlocate, entry?_eq_none_iff.1 hvacant, rfl, rfl⟩
  obtain ⟨hopening, -, htraceless⟩ :=
    create_exact_or_traceless ⟨['b']⟩ (Nat.pow 2 62) 2 (.ofRandom 1) before
  obtain ⟨cause, hrefused, hkind⟩ := (hopening _ hmade).2.1 (by decide) (by decide)
  obtain ⟨hsame, huses⟩ := htraceless _ hrefused
  refine ⟨other, before, _, hstaged, hmade, ⟨cause, hrefused, hkind⟩, ?_, ?_⟩
  · rw [hsame.entry?_eq _ (Set.notMem_empty _), hvacant]
  · rw [(huses _ (by decide +kernel)).1]
    decide +kernel

end Disk

end BootImage
