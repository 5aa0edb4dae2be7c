import BootImage.Proofs.Workbench.Reached
/-!
# Open disks are sector arrays

Whatever steps have been taken, in any order and on any number of disks, each open disk is the array
of sectors that the steps on its own slot make of it: zeros when it was opened, and then in each
sector what was last written there. `Workbench.disk_is_sector_array` says so of every workbench
that steps lead to, and what reads, writes and a commit come to then.
-/

namespace BootImage

open FileSystem

namespace SectorArray

theorem block_blank {sectorSize sectorCount sector : Nat} (h : sector < sectorCount) :
    (blank sectorSize sectorCount).block sector = List.replicate sectorSize 0 := by
  have hlt : sector < (blank sectorSize sectorCount).blocks.length := by
    rw [blank, List.length_replicate]
    exact h
  rw [block_eq hlt]
  exact List.getElem_replicate _

theorem block_put {array : SectorArray} {sector : Nat} {data : List UInt8}
    (h : sector < array.sectorCount) (hd : data.length = array.sectorSize) (other : Nat) :
    (array.put sector data hd).block other = if other = sector then data else array.block other := by
  have hlt : sector < array.blocks.length := h
  unfold block
  rw [blocks_put, List.getD_eq_getElem?_getD, List.getElem?_set]
  by_cases he : other = sector
  · rw [if_pos he.symm, if_pos he, if_pos hlt, Option.getD_some]
  · rw [if_neg (Ne.symm he), if_neg he, List.getD_eq_getElem?_getD]

end SectorArray

/-! ## What the steps say -/

/-- The target, sector size and sector count that the disk in a slot was opened with last. -/
def opening? (slot : Slot) : List Moment → Option (Path × Nat × Nat)
  | [] => none
  | moment :: earlier =>
    match moment.step, moment.answer with
    | .create other target sectorSize sectorCount, .done =>
      if other = slot then some (target, sectorSize, sectorCount) else opening? slot earlier
    | _, _ => opening? slot earlier

/-- The last write to a sector that was accepted since the disk in its slot was opened. -/
def lastWrite? (slot : Slot) (sector : Nat) : List Moment → Option (List UInt8)
  | [] => none
  | moment :: earlier =>
    match moment.step, moment.answer with
    | .create other _ _ _, .done => if other = slot then none else lastWrite? slot sector earlier
    | .write other position data, .done =>
      if other = slot ∧ position = sector then some data else lastWrite? slot sector earlier
    | _, _ => lastWrite? slot sector earlier

/-- The array that the steps make of the disk in a slot. -/
structure Recorded (history : List Moment) (slot : Slot) (target : Path) (array : SectorArray) :
    Prop where
  opening?_eq : opening? slot history = some (target, array.sectorSize, array.sectorCount)
  block_eq : ∀ sector < array.sectorCount,
    array.block sector = (lastWrite? slot sector history).getD (List.replicate array.sectorSize 0)

namespace Recorded

variable {history : List Moment} {slot : Slot} {target : Path} {array : SectorArray}

/-- Only opening the slot and accepted writes to it count. -/
theorem skip {moment : Moment} (h : Recorded history slot target array)
    (hcreate : ∀ target sectorSize sectorCount,
      moment.step = .create slot target sectorSize sectorCount → moment.answer ≠ .done)
    (hwrite : ∀ sector data, moment.step = .write slot sector data → moment.answer ≠ .done) :
    Recorded (moment :: history) slot target array := by
  obtain ⟨bench, step, answer⟩ := moment
  constructor
  · rw [← h.opening?_eq, opening?]
    split
    · rename_i other target sectorSize sectorCount hs ha
      rw [if_neg]
      rintro rfl
      exact hcreate _ _ _ hs ha
    · rfl
  · intro sector hlt
    rw [h.block_eq sector hlt, lastWrite?]
    split
    · rename_i other target sectorSize sectorCount hs ha
      rw [if_neg]
      rintro rfl
      exact hcreate _ _ _ hs ha
    · rename_i other position data hs ha
      rw [if_neg]
      rintro ⟨rfl, -⟩
      exact hwrite _ _ hs ha
    · rfl

theorem opened (bench : Workbench) (history : List Moment) (slot : Slot) (target : Path)
    (sectorSize sectorCount : Nat) :
    Recorded (⟨bench, .create slot target sectorSize sectorCount, .done⟩ :: history) slot target
      (.blank sectorSize sectorCount) where
  opening?_eq := by
    simp only [opening?, if_true, SectorArray.sectorCount_blank]
    rfl
  block_eq sector hlt := by
    rw [SectorArray.sectorCount_blank] at hlt
    simp only [lastWrite?, if_true, SectorArray.block_blank hlt]
    rfl

theorem put (h : Recorded history slot target array) (bench : Workbench) {sector : Nat}
    {data : List UInt8} (hlt : sector < array.sectorCount) (hd : data.length = array.sectorSize) :
    Recorded (⟨bench, .write slot sector data, .done⟩ :: history) slot target
      (array.put sector data hd) where
  opening?_eq := by
    simp only [opening?, h.opening?_eq, SectorArray.sectorCount_put]
    rfl
  block_eq other hother := by
    rw [SectorArray.sectorCount_put] at hother
    simp only [SectorArray.block_put hlt hd, lastWrite?, true_and]
    by_cases he : other = sector
    · rw [if_pos he, if_pos he.symm, Option.getD_some]
    · rw [if_neg he, if_neg (Ne.symm he)]
      exact h.block_eq other hother

end Recorded

namespace Workbench

variable {reserved : Set Location} {start : FileSystem} {history : List Moment} {bench : Workbench}
  {slot : Slot} {disk : Disk}

/-- The disk in the slot stores the array that the steps make of it. -/
def Holds (history : List Moment) (bench : Workbench) (slot : Slot) (disk : Disk) : Prop :=
  ∃ array : SectorArray, disk.Stores array bench.fs ∧ Recorded history slot disk.target array

/-- A step that leaves the slot and the disk's file alone changes nothing about the disk. -/
theorem Holds.keep {moment : Moment} {after : Workbench} {places : Set Location} {ids : Set FileId}
    (h : Holds history moment.bench slot disk) (hframe : Frame places ids moment.bench.fs after.fs)
    (hfile : disk.file ∉ ids)
    (hcreate : ∀ target sectorSize sectorCount,
      moment.step = .create slot target sectorSize sectorCount → moment.answer ≠ .done)
    (hwrite : ∀ sector data, moment.step = .write slot sector data → moment.answer ≠ .done) :
    Holds (moment :: history) after slot disk := by
  obtain ⟨array, hstores, hrecorded⟩ := h
  exact ⟨array, hstores.frame hframe hfile, hrecorded.skip hcreate hwrite⟩

/-- What one step does to the disk in a slot: it is opened, written, or left alone. -/
theorem Effect.holds {after : Workbench} {tag : Uuid} {step : Step} {answer : Answer}
    (he : Effect bench tag step answer after) (hsound : Sound reserved bench)
    (h : ∀ slot disk, bench.disk? slot = some disk → Holds history bench slot disk)
    (hopen : after.disk? slot = some disk) :
    Holds (⟨bench, step, answer⟩ :: history) after slot disk := by
  cases he with
  | quiet hdone _ hdisks hframe =>
    rw [hdisks] at hopen
    refine (h slot disk hopen).keep hframe (Set.notMem_empty _) ?_ ?_
    · rintro target sectorSize sectorCount rfl ha
      obtain ⟨_, _, hv⟩ := hdone ha
      cases hv
    · rintro sector data rfl ha
      obtain ⟨_, _, hv⟩ := hdone ha
      cases hv
  | @opened other target sectorSize sectorCount new place _ hnew _ _ hdisks _ hstores hframe _ =>
    rw [hdisks] at hopen
    by_cases he : slot = other
    · rw [if_pos he] at hopen
      cases hopen
      subst he
      exact ⟨_, hstores, hnew ▸ Recorded.opened _ _ _ _ _ _⟩
    · rw [if_neg he] at hopen
      refine (h slot disk hopen).keep hframe (Set.notMem_empty _) ?_ nofun
      intro _ _ _ hs
      cases hs
      exact absurd rfl he
  | @wrote other sector data written _ hwritten hw hdisks hframe =>
    rw [hdisks] at hopen
    by_cases he : slot = other
    · subst he
      rw [hwritten] at hopen
      cases hopen
      obtain ⟨array, hstores, hrecorded⟩ := h slot disk hwritten
      rcases Disk.write_eq hstores sector data with
        ⟨cause, -, hrefused⟩ | ⟨hd, now, hlt, hdone, hnow, -⟩
      · rw [hw] at hrefused
        cases hrefused
      · rw [hw] at hdone
        cases hdone
        exact ⟨_, hnow, hrecorded.put _ hlt hd⟩
    · -- Another slot has another file, so the write does not reach it.
      have hfile : disk.file ∉ ({written.file} : Set FileId) := by
        intro e
        exact he (hsound.file_inj hopen hwritten e)
      refine (h slot disk hopen).keep hframe hfile nofun ?_
      intro _ _ hs
      cases hs
      exact absurd rfl he
  | closed hasked _ hs hdisks hfs =>
    refine (h slot disk (disk?_of_emptied hdisks hopen).2).keep (hfs ▸ frame_erase hs.node)
      (Set.notMem_empty _) ?_ ?_
    · rintro _ _ _ rfl
      rcases hasked with hs | ⟨hs, -⟩ <;> cases hs
    · rintro _ _ rfl
      rcases hasked with hs | ⟨hs, -⟩ <;> cases hs
  | committed _ hs _ hallowed hdisks hfs =>
    exact (h slot disk (disk?_of_emptied hdisks hopen).2).keep
      (hfs ▸ frame_move hs.node hallowed) (Set.notMem_empty _) nofun nofun
  | published _ hdisks hframe _ =>
    rw [hdisks] at hopen
    exact (h slot disk hopen).keep hframe (Set.notMem_empty _) nofun nofun
  | madeDirectories hdisks _ hgrows =>
    rw [hdisks] at hopen
    exact (h slot disk hopen).keep hgrows (Set.notMem_empty _) nofun nofun

theorem Reached.holds (h : Reached reserved start history bench) :
    ∀ slot disk, bench.disk? slot = some disk → Holds history bench slot disk := by
  induction h with
  | start =>
    intro slot disk hopen
    cases hopen
  | step h tag step hk hstep ih =>
    intro slot disk hopen
    exact (effect_of_step h.sound hstep).holds h.sound ih hopen

/-! ## What steps come to -/

/-- The disk in a slot answers as an array does. -/
structure Acts (bench : Workbench) (slot : Slot) (disk : Disk) (array : SectorArray) : Prop where
  read : ∀ tag sector len, bench.step tag (.read slot sector len) =
    match array.refusal? sector len with
    | some cause => (.refused (.error (.io cause)), bench)
    | none => (.data (array.block sector), bench)
  write_refused : ∀ tag sector data cause, array.refusal? sector data.length = some cause →
    bench.step tag (.write slot sector data) = (.refused (.error (.io cause)), bench)
  write_accepted : ∀ tag sector data, sector < array.sectorCount →
    ∀ hd : data.length = array.sectorSize,
      ∃ fs, bench.step tag (.write slot sector data) = (.done, { bench with fs }) ∧
        disk.Stores (array.put sector data hd) fs ∧ Frame ∅ {disk.file} bench.fs fs
  commit : ∀ tag after, bench.step tag (.commit slot) = (.done, after) →
    after.fs.readAll disk.target = .ok array.bytes

theorem acts_of_stores {array : SectorArray} (h : Sound reserved bench)
    (hopen : bench.disk? slot = some disk) (hstores : disk.Stores array bench.fs) :
    Acts bench slot disk array where
  read tag sector len := by
    unfold step
    simp only [hopen, Disk.read_eq hstores]
    cases array.refusal? sector len <;> rfl
  write_refused tag sector data cause hr := by
    unfold step
    rcases Disk.write_eq hstores sector data with ⟨cause', hr', hw⟩ | ⟨hd, -, hlt, -⟩
    · rw [hr] at hr'
      cases hr'
      simp only [hopen, hw]
      rfl
    · rw [SectorArray.refusal?_eq_none_iff.2 ⟨hlt, hd⟩] at hr
      cases hr
  write_accepted tag sector data hlt hd := by
    unfold step
    rcases Disk.write_eq hstores sector data with ⟨cause, hr, -⟩ | ⟨hd', fs, -, hw, hs, hframe⟩
    · rw [SectorArray.refusal?_eq_none_iff.2 ⟨hlt, hd⟩] at hr
      cases hr
    · exact ⟨fs, by simp only [hopen, hw], hs, hframe⟩
  commit tag after hstep := by
    cases effect_of_commit h hstep with
    | quiet hdone =>
      obtain ⟨_, _, hv⟩ := hdone rfl
      cases hv
    | closed hasked =>
      rcases hasked with hs | ⟨-, hne⟩
      · cases hs
      · exact absurd rfl hne
    | @committed _ disk' place goal _ hopen' hs hgoal hallowed _ hfs =>
      rw [hopen] at hopen'
      cases hopen'
      have hframe := frame_move hs.node hallowed
      have hnode : after.fs.node? goal = some (.file disk.file) := by
        rw [hfs, node?_move_of_file hs.node hallowed, if_pos rfl]
      have hcontent : after.fs.content disk.file = bench.fs.content disk.file := by
        rw [hfs, hframe.content_eq hstores.live (Set.notMem_empty _)]
      refine readAll_eq_ok_iff.2 ⟨goal, hfs ▸ hframe.locate? hgoal, ?_⟩
      rw [entry?_of_file hnode, hcontent, hstores.bytes_eq]

/-- An open disk is an array of the sectors it was opened with, with what the accepted writes to its
own slot have put there and zeros elsewhere. Its staging file holds these sectors and nothing more.
A read gives a sector back, a write replaces one and nothing else, and neither is refused unless
there is no such sector or the length is wrong, in which case nothing changes; a commit leaves the
sectors at the target. -/
theorem disk_is_sector_array (h : Reached reserved start history bench)
    (hopen : bench.disk? slot = some disk) :
    ∃ array : SectorArray, Recorded history slot disk.target array ∧
      (bench.fs.content disk.file).toList = array.bytes ∧
      (bench.fs.content disk.file).length = array.sectorSize * array.sectorCount ∧
      Acts bench slot disk array ∧
      ∀ sector len,
        (array.refusal? sector len = none ↔ sector < array.sectorCount ∧ len = array.sectorSize) ∧
        (array.sectorCount ≤ sector →
          array.refusal? sector len = some (.sectorOutOfRange sector array.sectorCount)) ∧
        ∀ cause, array.refusal? sector len = some cause → cause.kind = .invalidInput := by
  obtain ⟨array, hstores, hrecorded⟩ := h.holds slot disk hopen
  have hlength : (bench.fs.content disk.file).length = array.sectorSize * array.sectorCount := by
    rw [← FileContent.length_toList, hstores.bytes_eq, SectorArray.length_bytes]
  refine ⟨array, hrecorded, hstores.bytes_eq, hlength, acts_of_stores h.sound hopen hstores, ?_⟩
  intro sector len
  refine ⟨SectorArray.refusal?_eq_none_iff, fun hle => ?_, fun cause hr => ?_⟩
  · rw [SectorArray.refusal?, if_pos hle]
  · exact SectorArray.kind_of_refusal? hr

/-- Two disks for one target, written in turns: the first holds its own last write, and zeros. -/
theorem disk_is_sector_array_two_disks :
    ∃ (reserved : Set Location) (history : List Moment) (bench : Workbench) (disk : Disk)
      (array : SectorArray),
      Reached reserved (.empty []) history bench ∧ bench.disk? "a" = some disk ∧
        Recorded history "a" ⟨['t']⟩ array ∧ array.block 0 = [0, 0] ∧ array.block 1 = [8, 9] ∧
        Acts bench "a" disk array := by
  have h1 := (@Reached.start {place | place ≠ [['t']]} (.empty [])).step (.ofRandom 0)
    (.create "a" ⟨['t']⟩ 2 2) (by rintro place h; cases h; decide) rfl
  have h2 := h1.step (.ofRandom 1) (.create "b" ⟨['t']⟩ 2 3) (by rintro place h; cases h; decide) rfl
  have h3 := h2.step (.ofRandom 2) (.write "a" 1 [5, 6]) trivial rfl
  have h4 := h3.step (.ofRandom 2) (.write "b" 1 [7, 7]) trivial rfl
  have h5 := h4.step (.ofRandom 2) (.write "a" 1 [8, 9]) trivial rfl
  obtain ⟨array, hrecorded, -, -, hacts, -⟩ := @disk_is_sector_array _ _ _ _ "a" _ h5 rfl
  have hopening : some ((⟨['t']⟩ : Path), 2, 2) = some (_, array.sectorSize, array.sectorCount) :=
    hrecorded.opening?_eq
  simp only [Option.some.injEq, Prod.mk.injEq] at hopening
  obtain ⟨-, hsize, hcount⟩ := hopening
  have hzero : array.block 0 = [0, 0] := by
    rw [hrecorded.block_eq 0 (by omega), ← hsize]
    rfl
  have hone : array.block 1 = [8, 9] := by
    rw [hrecorded.block_eq 1 (by omega)]
    rfl
  exact ⟨_, _, _, _, array, h5, rfl, hrecorded, hzero, hone, hacts⟩

end Workbench

end BootImage
