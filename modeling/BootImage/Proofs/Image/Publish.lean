import BootImage.Disk.Publish
import BootImage.Proofs.Image.Sectors
/-!
# Publishing is all or nothing

`Image.publish` goes through a staging file that is made, filled, compared and renamed. Whatever
step fails, the tree is as it was before; if none does, the output holds the image and nothing else
has changed (`Image.publish_all_or_nothing`). That this is so too where the system refuses a step for
reasons of its own is in `BootImage.Proofs.Job.Refusals`.
-/

namespace BootImage

open FileSystem

namespace Disk

/-- Writing blocks one after the other puts them into the array at that place. -/
theorem writeSectors_eq {disk : Disk} (sectors : List (List UInt8)) {array : SectorArray}
    {first : Nat} {fs : FileSystem} {progress : Progress} (h : disk.Stores array fs)
    (hsize : ∀ block ∈ sectors, block.length = array.sectorSize)
    (hfit : first + sectors.length ≤ array.sectorCount) :
    ∃ (after : FileSystem) (stored : SectorArray),
      disk.writeSectors sectors first fs progress =
        (.ok (), after, { progress with position := progress.position + sectors.length }) ∧
      disk.Stores stored after ∧
      stored.blocks =
        array.blocks.take first ++ sectors ++ array.blocks.drop (first + sectors.length) ∧
      Frame ∅ {disk.file} fs after := by
  induction sectors generalizing array first fs progress with
  | nil =>
    refine ⟨fs, array, rfl, h, ?_, (Frame.refl fs).mono (Set.Subset.refl _) (Set.empty_subset _)⟩
    simp
  | cons block sectors ih =>
    have hblock : block.length = array.sectorSize := hsize block List.mem_cons_self
    rw [List.length_cons] at hfit
    rcases write_eq h first block with ⟨cause, hrefused, -⟩ | ⟨hd, middle, hs, hw, hm, hf⟩
    · have hfits := SectorArray.refusal?_eq_none_iff.2
        (⟨by omega, hblock⟩ : first < array.sectorCount ∧ block.length = array.sectorSize)
      rw [hfits] at hrefused
      cases hrefused
    · have hfit' : first + 1 + sectors.length ≤ (array.put first block hd).sectorCount := by
        rw [SectorArray.sectorCount_put]
        omega
      obtain ⟨after, stored, hrun, hstored, hblocks, hframe⟩ := @ih _ _ _ progress.advance hm
        (fun b hb => hsize b (List.mem_cons_of_mem _ hb)) hfit'
      refine ⟨after, stored, ?_, hstored, ?_, ?_⟩
      · have hposition : progress.advance.position + sectors.length =
            progress.position + (sectors.length + 1) := by
          simp only [Progress.advance]
          omega
        simp only [writeSectors, hw]
        rw [hrun, hposition]
        rfl
      · have hs' : first < array.blocks.length := hs
        have hset : (array.put first block hd).blocks =
            (array.blocks.take first ++ [block]) ++ array.blocks.drop (first + 1) := by
          rw [SectorArray.blocks_put, List.set_eq_take_append_cons_drop, if_pos hs',
            List.append_assoc]
          rfl
        have hlength : (array.blocks.take first ++ [block]).length = first + 1 := by
          rw [List.length_append, List.length_take_of_le (Nat.le_of_lt hs')]
          rfl
        rw [hblocks, hset, List.take_left' hlength, ← List.drop_drop, List.drop_left' hlength,
          List.drop_drop, List.length_cons, List.append_assoc, List.append_assoc]
        simp [Nat.add_comm, Nat.add_left_comm]
      · have := hf.trans hframe
        rwa [Set.union_self, Set.union_self] at this

end Disk

namespace Image

variable {boot : List UInt8} {kernel : Option (List UInt8)} {config : Config} {image : Image}

/-- Once all sectors of an image are written to a new disk, its staging file holds the image. -/
theorem Assembled.filled (h : Assembled boot kernel config image) {output : Path} {count : Nat}
    {tag : Uuid} {disk : Disk} {before created : FileSystem}
    (hcount : count = image.layout.imageLen / image.layout.sectorSize)
    (hc : Disk.create output image.layout.sectorSize count tag before = (.ok disk, created))
    (progress : Progress) :
    ∃ place now, disk.writeSectors h.array.blocks 0 created progress =
        (.ok (), now, { progress with position := progress.position + count }) ∧
      disk.Pending place before now ∧ (now.content disk.file).toList = image.bytes := by
  obtain ⟨hdisk, -, -, place, hcreated⟩ := Disk.create_ok hc
  have hlength : h.array.blocks.length = count := h.sectorCount_array.trans hcount.symm
  obtain ⟨now, stored, hrun, hstored, hblocks, hwritten⟩ :=
    Disk.writeSectors_eq h.array.blocks (Disk.stores_blank_of_create hc) h.array.length_eq
      (by rw [SectorArray.sectorCount_blank, hlength, Nat.zero_add] : 0 + _ ≤ _)
  -- There are as many sectors as blocks, so nothing of the zeros is left.
  have hall : stored.blocks = h.array.blocks := by
    have hdrop : (SectorArray.blank image.layout.sectorSize count).blocks.drop count = [] :=
      List.drop_eq_nil_of_le (Nat.le_of_eq (SectorArray.sectorCount_blank _ _))
    rw [hblocks, List.take_zero, List.nil_append, hlength, Nat.zero_add, hdrop, List.append_nil]
  have hnew : before.contents.length ≤ disk.file := by rw [hdisk]; rfl
  refine ⟨place, now, hlength ▸ hrun, hcreated.write hnew hwritten, ?_⟩
  rw [hstored.bytes_eq, SectorArray.bytes, hall]
  exact h.bytes_array

/-- The image is where the output leads, the staging file is gone, and no other entry has
changed. -/
structure Published (image : Image) (output : Path) (tag : Uuid) (before after : FileSystem)
    (goal staged : Location) : Prop where
  locate_output : before.locate? output = some goal
  locate_staging : before.locate? (output.staging tag) = some staged
  frame : Frame {goal} ∅ before after
  entry_goal : after.entry? goal = some (.file image.bytes)
  node_staged : after.node? staged = none

/-- Publishing fails without a trace, or it succeeds. -/
theorem Assembled.publish_cases (h : Assembled boot kernel config image) (output : Path)
    (verify : Bool) (tag : Uuid) (progress : Progress) (before : FileSystem) :
    (∃ failure after reached,
      image.publish output verify tag progress before = ⟨.error failure, after, reached⟩ ∧
      Frame ∅ ∅ before after) ∨
    ∃ after goal staged count,
      image.publish output verify tag progress before =
        ⟨.ok (), after, ⟨progress.position + count, some count⟩⟩ ∧
      image.layout.sectorCount = .ok count ∧ image.Published output tag before after goal staged := by
  unfold publish publishThrough
  simp only [h.sectorCount_eq, h.sectors_eq]
  generalize hcount : image.layout.imageLen / image.layout.sectorSize = count
  rcases hc : Disk.create output image.layout.sectorSize count tag before with
    ⟨failure | disk, created⟩
  · exact .inl ⟨failure, created, progress, rfl, Disk.create_error hc⟩
  obtain ⟨place, now, hrun, hpending, hbytes⟩ :=
    h.filled hcount.symm hc (progress.ofLength count)
  simp only [hrun]
  cases (if verify = true then disk.verify image now else .ok () : Except (Failure IoError) Unit) with
  | error failure => exact .inl ⟨failure, disk.discard now, _, rfl, hpending.discard⟩
  | ok _ =>
    rcases hcommit : disk.commit now with ⟨cause | _, after⟩
    · exact .inl ⟨.error cause, after, _, rfl, hpending.commit_error hcommit⟩
    · obtain ⟨hdisk, -⟩ := Disk.create_ok hc
      obtain ⟨goal, hgoal, hframe, hnode, hgone, hcontents⟩ :=
        hpending.commit_ok (by rw [hdisk]; rfl : disk.staging = disk.target.staging tag) hcommit
      refine .inr ⟨after, goal, place, count, rfl, rfl, ?_⟩
      exact {
        locate_output := by
          rw [hdisk] at hgoal
          exact hgoal
        locate_staging := by
          have hlocate := hpending.locate? hpending.staged.locate
          rw [hdisk] at hlocate
          exact hlocate
        frame := hframe
        entry_goal := by
          have hcontent : after.content disk.file = now.content disk.file := by
            rw [content, content, hcontents]
          rw [entry?_of_file hnode, hcontent, hbytes]
        node_staged := hgone
      }

/-- If publishing fails, at whichever step, every entry is as it was before. If it succeeds, the file
that the output names holds the image, whatever stood there, every other entry is as it was, nothing
is left under the name of the staging file, and as many sectors are counted as the image has. -/
theorem publish_all_or_nothing (h : assemble boot kernel config = .ok image) (output : Path)
    (verify : Bool) (tag : Uuid) (before : FileSystem) :
    match image.publish output verify tag .fresh before with
    | ⟨.error _, after, _⟩ => SameOutside ∅ before after
    | ⟨.ok (), after, progress⟩ =>
      ∃ goal staged count,
        before.locate? output = some goal ∧ before.locate? (output.staging tag) = some staged ∧
          image.layout.sectorCount = .ok count ∧ after.readAll output = .ok image.bytes ∧
          SameOutside {goal} before after ∧ after.entry? staged = none ∧
          progress = ⟨count, some count⟩ := by
  rcases (assembled_of_assemble h).publish_cases output verify tag .fresh before with
    ⟨failure, after, reached, hrun, hframe⟩ | ⟨after, goal, staged, count, hrun, hcount, hp⟩
  · rw [hrun]
    exact hframe.sameOutside
  · rw [hrun]
    have hread : after.readAll output = .ok image.bytes :=
      readAll_eq_ok_iff.2 ⟨goal, hp.frame.locate? hp.locate_output, hp.entry_goal⟩
    have hgone : after.entry? staged = none := entry?_eq_none_iff.2 hp.node_staged
    exact ⟨goal, staged, count, hp.locate_output, hp.locate_staging, hcount, hread,
      hp.frame.sameOutside, hgone, by rw [Progress.fresh, Nat.zero_add]⟩

/-- An image over a longer file, with the comparison: three sectors, and nothing of the old bytes. -/
theorem publish_all_or_nothing_over_longer_file :
    ∃ image before after,
      assemble [1, 2, 3] (some [7, 8]) ⟨4, 6, 16, 64⟩ = .ok image ∧
        before.readAll ⟨['o']⟩ = .ok (List.replicate 20 9) ∧
        image.publish ⟨['o']⟩ true (.ofRandom 0) .fresh before = ⟨.ok (), after, ⟨3, some 3⟩⟩ ∧
        after.readAll ⟨['o']⟩ = .ok [1, 2, 3, 0, 0, 0, 0, 0, 7, 8, 0, 0] ∧
        ∃ goal, before.locate? ⟨['o']⟩ = some goal ∧ SameOutside {goal} before after := by
  let image : Image := ⟨[1, 2, 3, 0, 0, 0, 0, 0, 7, 8, 0, 0], ⟨4, 6, 0, 8, some 2, 12⟩⟩
  let before := (FileSystem.empty []).addFile [['o']] (.ofList (List.replicate 20 9))
  have h : assemble [1, 2, 3] (some [7, 8]) ⟨4, 6, 16, 64⟩ = .ok image := by rfl
  have hresult : (image.publish ⟨['o']⟩ true (.ofRandom 0) .fresh before).result = .ok () := by
    subst image before
    rfl
  have hprogress : (image.publish ⟨['o']⟩ true (.ofRandom 0) .fresh before).progress =
    ⟨3, some 3⟩ := by
    subst image before
    rfl
  have hall := publish_all_or_nothing h ⟨['o']⟩ true (.ofRandom 0) before
  rcases hrun : image.publish ⟨['o']⟩ true (.ofRandom 0) .fresh before with ⟨result, after, reached⟩
  rw [hrun] at hresult hprogress hall
  cases hresult
  cases hprogress
  obtain ⟨goal, -, -, hgoal, -, -, hread, hsame, -⟩ := hall
  exact ⟨image, before, after, h, by rfl, hrun, hread, goal, hgoal, hsame⟩

end Image

end BootImage
