import BootImage.Proofs.FileSystem.MakeDirectories
import BootImage.Proofs.Image.Publish
import BootImage.Workbench
/-!
# What a step does

On a workbench whose disks are staged at places of their own (`Workbench.Sound`), every step has one
of a few effects: nothing changes, a disk is opened, written, given up or committed, an image is
published, or directories are made. `Workbench.effect_of_step` is the only place where the steps
themselves are looked at; what holds of whole runs is read off the effects.
-/

namespace BootImage

open FileSystem

namespace Workbench

/-! ## Slots -/

theorem find?_filter_ne (disks : List (Slot × Disk)) {slot other : Slot} (h : other ≠ slot) :
    (disks.filter (·.1 ≠ slot)).find? (·.1 = other) = disks.find? (·.1 = other) := by
  simp only [List.find?_filter]
  congr 1
  funext entry
  by_cases he : entry.1 = other <;> simp [he, h]

theorem disk?_close (bench : Workbench) (slot other : Slot) :
    (bench.close slot).disk? other = if other = slot then none else bench.disk? other := by
  unfold close disk?
  by_cases h : other = slot
  · rw [if_pos h, List.find?_filter, List.find?_eq_none.2 (by simp [h]), Option.map_none]
  · rw [if_neg h, find?_filter_ne bench.disks h]

theorem disk?_install (bench : Workbench) (slot other : Slot) (disk : Disk) :
    (bench.install slot disk).disk? other =
      if other = slot then some disk else bench.disk? other := by
  unfold install disk?
  by_cases h : other = slot
  · simp [h]
  · rw [if_neg h, List.find?_cons_of_neg (by simp [Ne.symm h]), find?_filter_ne bench.disks h]

/-- Every open disk is staged at a reserved place, under its own staging path, and no two disks have
the same file. -/
structure Sound (reserved : Set Location) (bench : Workbench) : Prop where
  staged : ∀ {slot disk}, bench.disk? slot = some disk →
    ∃ place ∈ reserved, disk.Staged place bench.fs
  named : ∀ {slot disk}, bench.disk? slot = some disk →
    ∃ tag, disk.staging = disk.target.staging tag
  file_inj : ∀ {slot other disk disk'}, bench.disk? slot = some disk →
    bench.disk? other = some disk' → disk.file = disk'.file → slot = other

/-- Where the disk in a slot is staged. -/
def stagedIn (bench : Workbench) (slot : Slot) : Set Location :=
  {place | ∃ disk, bench.disk? slot = some disk ∧ disk.Staged place bench.fs}

theorem stagedIn_eq {bench : Workbench} {slot : Slot} {disk : Disk} {place : Location}
    (hopen : bench.disk? slot = some disk) (hs : disk.Staged place bench.fs) :
    bench.stagedIn slot = {place} := by
  ext other
  constructor
  · rintro ⟨disk', hopen', hs'⟩
    rw [hopen] at hopen'
    cases hopen'
    exact hs'.place_eq hs
  · rintro rfl
    exact ⟨disk, hopen, hs⟩

theorem stagedIn_eq_empty {bench : Workbench} {slot : Slot} (h : bench.disk? slot = none) :
    bench.stagedIn slot = ∅ := by
  ext place
  simp [stagedIn, h]

/-! ## Effects -/

/-- What a step may do, with the answer it gives. -/
inductive Effect (bench : Workbench) (tag : Uuid) : Step → Answer → Workbench → Prop
  /-- The step only asks, or it is refused. -/
  | quiet {step answer after}
      (answered : answer = .done → ∃ slot recipe, step = .verify slot recipe)
      (empty : ∀ slot, step = .discard slot ∨ step = .commit slot → bench.disk? slot = none)
      (disks : ∀ slot, after.disk? slot = bench.disk? slot)
      (frame : Frame ∅ ∅ bench.fs after.fs) : Effect bench tag step answer after
  /-- A disk is opened, and the one that was in its slot is given up. -/
  | opened {slot target sectorSize sectorCount disk place after}
      (disk_eq : disk = Disk.opened target sectorSize sectorCount tag bench.fs)
      (locate : bench.fs.locate? (target.staging tag) = some place)
      (vacant : bench.fs.node? place = none)
      (disks : ∀ other, after.disk? other = if other = slot then some disk else bench.disk? other)
      (staged : disk.Staged place after.fs)
      (stores : disk.Stores (.blank sectorSize sectorCount) after.fs)
      (frame : Frame (insert place (bench.stagedIn slot)) ∅ bench.fs after.fs)
      (gone : ∀ p ∈ bench.stagedIn slot, after.fs.node? p = none) :
      Effect bench tag (.create slot target sectorSize sectorCount) .done after
  | wrote {slot sector data disk after}
      (inSlot : bench.disk? slot = some disk)
      (write : disk.write sector data bench.fs = .ok after.fs)
      (disks : ∀ slot, after.disk? slot = bench.disk? slot)
      (frame : Frame ∅ {disk.file} bench.fs after.fs) :
      Effect bench tag (.write slot sector data) .done after
  /-- A disk is given up, by itself or because its commit is refused. -/
  | closed {slot step answer disk place after}
      (asked : step = .discard slot ∨ step = .commit slot ∧ answer ≠ .done)
      (inSlot : bench.disk? slot = some disk)
      (staged : disk.Staged place bench.fs)
      (disks : ∀ other, after.disk? other = if other = slot then none else bench.disk? other)
      (fs_eq : after.fs = bench.fs.erase place) : Effect bench tag step answer after
  | committed {slot disk place goal after}
      (inSlot : bench.disk? slot = some disk)
      (staged : disk.Staged place bench.fs)
      (locate : bench.fs.locate? disk.target = some goal)
      (allowed : bench.fs.node? goal ≠ some .directory)
      (disks : ∀ other, after.disk? other = if other = slot then none else bench.disk? other)
      (fs_eq : after.fs = bench.fs.move place goal) :
      Effect bench tag (.commit slot) .done after
  | published {output verify recipe progress goal bytes after}
      (locate : bench.fs.locate? output = some goal)
      (disks : ∀ slot, after.disk? slot = bench.disk? slot)
      (frame : Frame {goal} ∅ bench.fs after.fs)
      (entry : after.fs.entry? goal = some (.file bytes)) :
      Effect bench tag (.publish output verify recipe) (.published progress) after
  | madeDirectories {path answer after}
      (disks : ∀ slot, after.disk? slot = bench.disk? slot)
      (fs_eq : after.fs = (bench.fs.makeDirectories path).2)
      (grows : Grows path.ways bench.fs after.fs) :
      Effect bench tag (.makeDirectories path) answer after

section

variable {reserved : Set Location} {bench after : Workbench} {tag : Uuid} {slot : Slot}
  {answer : Answer}

theorem effect_of_same {step : Step} {answer' : Answer} (h : (answer', bench) = (answer, after))
    (answered : answer' = .done → ∃ slot recipe, step = .verify slot recipe)
    (empty : ∀ slot, step = .discard slot ∨ step = .commit slot → bench.disk? slot = none) :
    Effect bench tag step answer after := by
  rw [Prod.mk.injEq] at h
  obtain ⟨rfl, rfl⟩ := h
  exact .quiet answered empty (fun _ => rfl) (.refl _)

/-- Giving up the disk in a slot, if there is one, removes its staging file. -/
theorem discard_spec (bench : Workbench) (slot : Slot)
    (h : ∀ disk, bench.disk? slot = some disk → ∃ place, disk.Staged place bench.fs) :
    (∀ other, (bench.discard slot).disk? other = if other = slot then none else bench.disk? other) ∧
      Frame (bench.stagedIn slot) ∅ bench.fs (bench.discard slot).fs ∧
      ∀ p ∈ bench.stagedIn slot, (bench.discard slot).fs.node? p = none := by
  unfold discard
  cases hd : bench.disk? slot with
  | none =>
    rw [stagedIn_eq_empty hd]
    refine ⟨fun other => ?_, .refl _, by simp⟩
    by_cases he : other = slot
    · rw [if_pos he, he, hd]
    · rw [if_neg he]
  | some disk =>
    obtain ⟨place, hs⟩ := h disk hd
    rw [stagedIn_eq hd hs]
    simp only [Disk.discard_eq hs]
    refine ⟨fun other => disk?_close bench slot other, frame_erase hs.node, ?_⟩
    rintro p rfl
    rw [node?_erase_of_file hs.node, if_pos rfl]

/-- The open disks do not notice that a file is made where nothing was. -/
theorem Sound.stagedIn_created {place : Location} {created : FileSystem} (h : Sound reserved bench)
    (hvacant : bench.fs.node? place = none) (hframe : Frame {place} ∅ bench.fs created) :
    ({ bench with fs := created } : Workbench).stagedIn slot = bench.stagedIn slot := by
  have hkept : ∀ (old : Disk) (p : Location), old.Staged p bench.fs → old.Staged p created :=
    fun old p hp => hp.frame hframe (hp.ne_of_vacant hvacant)
  ext p
  constructor
  · rintro ⟨old, hopen, hp⟩
    obtain ⟨q, -, hq⟩ := h.staged hopen
    have hpq : p = q := hp.place_eq (hkept old q hq)
    exact ⟨old, hopen, hpq ▸ hq⟩
  · rintro ⟨old, hopen, hp⟩
    exact ⟨old, hopen, hkept old p hp⟩

theorem effect_of_create {target : Path} {sectorSize sectorCount : Nat} (h : Sound reserved bench)
    (hstep : bench.step tag (.create slot target sectorSize sectorCount) = (answer, after)) :
    Effect bench tag (.create slot target sectorSize sectorCount) answer after := by
  unfold step at hstep
  rcases hc : Disk.create target sectorSize sectorCount tag bench.fs with ⟨failure | disk, created⟩
  · simp only [hc, Prod.mk.injEq] at hstep
    obtain ⟨rfl, rfl⟩ := hstep
    exact .quiet nofun (by simp) (fun _ => rfl) (Disk.create_error hc)
  simp only [hc, Prod.mk.injEq] at hstep
  obtain ⟨rfl, rfl⟩ := hstep
  obtain ⟨hdisk, -, -, place, hcreated⟩ := Disk.create_ok hc
  have hlocate : bench.fs.locate? (target.staging tag) = some place := by
    have hl := hcreated.locate? hcreated.staged.locate
    rw [hdisk] at hl
    exact hl
  -- The disk that was in the slot is given up when the new one is open already.
  obtain ⟨hdisks, hdiscard, hgone⟩ :=
    discard_spec { bench with fs := created } slot fun old hopen => by
      obtain ⟨q, -, hq⟩ := h.staged hopen
      exact ⟨q, hq.frame hcreated.frame (hq.ne_of_vacant hcreated.vacant)⟩
  rw [h.stagedIn_created hcreated.vacant hcreated.frame] at hdiscard hgone
  have hout : place ∉ bench.stagedIn slot := by
    rintro ⟨old, -, hp⟩
    exact hp.ne_of_vacant hcreated.vacant rfl
  refine .opened hdisk hlocate hcreated.vacant ?_ (hcreated.staged.frame hdiscard hout)
    ((Disk.stores_blank_of_create hc).frame hdiscard (Set.notMem_empty _)) ?_ hgone
  · intro other
    rw [disk?_install, hdisks]
    by_cases he : other = slot
    · rw [if_pos he, if_pos he]
    · rw [if_neg he, if_neg he, if_neg he]
      rfl
  · refine (hcreated.frame.trans hdiscard).mono ?_ (by simp)
    rw [Set.singleton_union]

theorem effect_of_commit (h : Sound reserved bench)
    (hstep : bench.step tag (.commit slot) = (answer, after)) :
    Effect bench tag (.commit slot) answer after := by
  unfold step at hstep
  cases hopen : bench.disk? slot with
  | none =>
    simp only [hopen] at hstep
    exact effect_of_same hstep nofun (by simpa using hopen)
  | some disk =>
    obtain ⟨place, -, hs⟩ := h.staged hopen
    rcases hc : disk.commit bench.fs with ⟨cause | _, fs⟩
    · simp only [hopen, hc, Prod.mk.injEq] at hstep
      obtain ⟨rfl, rfl⟩ := hstep
      exact .closed (.inr ⟨rfl, nofun⟩) hopen hs (disk?_close bench slot) (Disk.commit_error hs hc)
    · simp only [hopen, hc, Prod.mk.injEq] at hstep
      obtain ⟨rfl, rfl⟩ := hstep
      obtain ⟨goal, hgoal, hnode, hfs⟩ := Disk.commit_ok hs hc
      exact .committed hopen hs hgoal hnode (disk?_close bench slot) hfs

theorem effect_of_discard (h : Sound reserved bench)
    (hstep : bench.step tag (.discard slot) = (answer, after)) :
    Effect bench tag (.discard slot) answer after := by
  unfold step at hstep
  cases hopen : bench.disk? slot with
  | none =>
    simp only [hopen] at hstep
    exact effect_of_same hstep nofun (by simpa using hopen)
  | some disk =>
    obtain ⟨place, -, hs⟩ := h.staged hopen
    simp only [hopen, discard, Prod.mk.injEq] at hstep
    obtain ⟨rfl, rfl⟩ := hstep
    exact .closed (.inl rfl) hopen hs (disk?_close bench slot) (Disk.discard_eq hs)

theorem effect_of_write {sector : Nat} {data : List UInt8} (h : Sound reserved bench)
    (hstep : bench.step tag (.write slot sector data) = (answer, after)) :
    Effect bench tag (.write slot sector data) answer after := by
  unfold step at hstep
  cases hopen : bench.disk? slot with
  | none =>
    simp only [hopen] at hstep
    exact effect_of_same hstep nofun (by simp)
  | some disk =>
    obtain ⟨place, -, hs⟩ := h.staged hopen
    cases hw : disk.write sector data bench.fs with
    | error failure =>
      simp only [hopen, hw] at hstep
      exact effect_of_same hstep nofun (by simp)
    | ok fs =>
      simp only [hopen, hw, Prod.mk.injEq] at hstep
      obtain ⟨rfl, rfl⟩ := hstep
      exact .wrote hopen hw (fun _ => rfl) (Disk.frame_of_write hs.live hw)

theorem effect_of_publish {output : Path} {verify : Bool} {recipe : Recipe}
    (hstep : bench.step tag (.publish output verify recipe) = (answer, after)) :
    Effect bench tag (.publish output verify recipe) answer after := by
  unfold step at hstep
  cases ha : recipe.assemble with
  | error failure =>
    simp only [ha] at hstep
    exact effect_of_same hstep nofun (by simp)
  | ok image =>
    rcases (Image.assembled_of_assemble ha).publish_cases output verify tag .fresh bench.fs with
      ⟨failure, fs, reached, hrun, hframe⟩ | ⟨fs, goal, staged, count, hrun, -, hp⟩
    · simp only [ha, hrun, Prod.mk.injEq] at hstep
      obtain ⟨rfl, rfl⟩ := hstep
      exact .quiet nofun (by simp) (fun _ => rfl) hframe
    · simp only [ha, hrun, Prod.mk.injEq] at hstep
      obtain ⟨rfl, rfl⟩ := hstep
      exact .published hp.locate_output (fun _ => rfl) hp.frame hp.entry_goal

theorem effect_of_geometry (hstep : bench.step tag (.geometry slot) = (answer, after)) :
    Effect bench tag (.geometry slot) answer after := by
  unfold step at hstep
  cases hopen : bench.disk? slot with
  | none =>
    simp only [hopen] at hstep
    exact effect_of_same hstep nofun (by simp)
  | some disk =>
    simp only [hopen] at hstep
    exact effect_of_same hstep nofun (by simp)

theorem effect_of_read {sector len : Nat}
    (hstep : bench.step tag (.read slot sector len) = (answer, after)) :
    Effect bench tag (.read slot sector len) answer after := by
  unfold step at hstep
  cases hopen : bench.disk? slot with
  | none =>
    simp only [hopen] at hstep
    exact effect_of_same hstep nofun (by simp)
  | some disk =>
    simp only [hopen] at hstep
    refine effect_of_same hstep ?_ (by simp)
    cases disk.read sector len bench.fs <;> exact nofun

theorem effect_of_verify {recipe : Recipe}
    (hstep : bench.step tag (.verify slot recipe) = (answer, after)) :
    Effect bench tag (.verify slot recipe) answer after := by
  unfold step at hstep
  cases hopen : bench.disk? slot with
  | none =>
    simp only [hopen] at hstep
    exact effect_of_same hstep nofun (by simp)
  | some disk =>
    cases ha : recipe.assemble with
    | error failure =>
      simp only [hopen, ha] at hstep
      exact effect_of_same hstep nofun (by simp)
    | ok image =>
      simp only [hopen, ha] at hstep
      exact effect_of_same hstep (fun _ => ⟨slot, recipe, rfl⟩) (by simp)

theorem effect_of_step {step : Step} (h : Sound reserved bench)
    (hstep : bench.step tag step = (answer, after)) : Effect bench tag step answer after := by
  cases step with
  | create slot target sectorSize sectorCount => exact effect_of_create h hstep
  | geometry slot => exact effect_of_geometry hstep
  | write slot sector data => exact effect_of_write h hstep
  | read slot sector len => exact effect_of_read hstep
  | verify slot recipe => exact effect_of_verify hstep
  | commit slot => exact effect_of_commit h hstep
  | discard slot => exact effect_of_discard h hstep
  | publish output verify recipe => exact effect_of_publish hstep
  | makeDirectories path =>
    have hgrows := grows_makeDirectories bench.fs path
    unfold Workbench.step at hstep
    rcases hm : bench.fs.makeDirectories path with ⟨cause | _, fs⟩ <;>
    · rw [hm] at hgrows
      simp only [hm, Prod.mk.injEq] at hstep
      obtain ⟨rfl, rfl⟩ := hstep
      exact .madeDirectories (fun _ => rfl) (congrArg Prod.snd hm).symm hgrows

end

end Workbench

end BootImage
