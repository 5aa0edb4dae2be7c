import BootImage.Proofs.FileSystem.Frame
/-!
# Trees in which nothing has changed

In trees that look the same (`SameOutside ∅`) all paths come down to the same. They also have the same
files, apart from some that no entry refers to, if one is the other after changes that left nothing
behind (`Frame ∅ ∅`). Then what is done with the files of the first is refused in the second for the same
reason, or it leaves trees that are related in this way again.
-/

namespace BootImage

namespace FileSystem

/-! ## Trees that look the same -/

theorem SameOutside.symm {places : Set Location} {before after : FileSystem}
    (h : SameOutside places before after) : SameOutside places after before :=
  ⟨h.home.symm, fun place hp => (h.entry?_eq place hp).symm⟩

/-- In trees that look the same, an entry is a directory or a file in both, or in neither. -/
theorem SameOutside.node? {before after : FileSystem} (h : SameOutside ∅ before after)
    (place : Location) :
    (before.node? place = none ∧ after.node? place = none) ∨
      (before.node? place = some .directory ∧ after.node? place = some .directory) ∨
      ∃ id id', before.node? place = some (.file id) ∧ after.node? place = some (.file id') := by
  have hsame := h.entry?_eq place (Set.notMem_empty place)
  unfold entry? at hsame
  rcases hb : before.node? place with _ | _ | id <;> rcases ha : after.node? place with _ | _ | id' <;>
    simp_all

theorem SameOutside.descend {before after : FileSystem} (h : SameOutside ∅ before after) :
    after.descend = before.descend := by
  funext directory piece
  unfold FileSystem.descend
  rw [lookup_eq, lookup_eq]
  rcases h.node? (piece :: directory) with ⟨hb, ha⟩ | ⟨hb, ha⟩ | ⟨id, id', hb, ha⟩
  · rw [hb, ha]
  · rw [hb, ha]
  · by_cases hlong : nameLimit < piece.byteLength <;> simp only [hb, ha, hlong, if_true, if_false]

theorem SameOutside.resolve {before after : FileSystem} (h : SameOutside ∅ before after)
    (path : Path) : after.resolve path = before.resolve path := by
  simp only [resolve_eq, parentOf, origin, h.home, h.descend]

/-! ## Trees with the same files -/

namespace Frame

variable {before after : FileSystem}

theorem lookup_eq (h : Frame ∅ ∅ before after) : after.lookup = before.lookup := by
  funext directory name
  rw [FileSystem.lookup_eq, FileSystem.lookup_eq, h.node?_eq (Set.notMem_empty _)]

theorem resolve_eq (h : Frame ∅ ∅ before after) : after.resolve = before.resolve :=
  funext h.sameOutside.resolve

theorem content_eq_of_lt (h : Frame ∅ ∅ before after) {id : FileId} (hid : id < before.contents.length) :
    after.content id = before.content id :=
  h.content_eq hid (Set.notMem_empty id)

/-! ## The same change in both trees -/

theorem setContent_both (h : Frame ∅ ∅ before after) {id : FileId} (hid : id < before.contents.length)
    (content : FileContent) : Frame ∅ ∅ (before.setContent id content) (after.setContent id content) where
  home := h.home
  directories := h.directories
  node?_eq := h.node?_eq
  length_le := by
    simp only [setContent, List.length_set]
    exact h.length_le
  content_eq := by
    intro other hother _
    have hold : other < before.contents.length := by
      rwa [setContent, List.length_set] at hother
    rw [content_setContent hid, content_setContent (Nat.lt_of_lt_of_le hid h.length_le),
      h.content_eq_of_lt hold]

theorem erase_both (h : Frame ∅ ∅ before after) {place : Location} {id : FileId}
    (hfile : before.node? place = some (.file id)) : Frame ∅ ∅ (before.erase place) (after.erase place) := by
  have hfile' : after.node? place = some (.file id) := (h.node?_eq (Set.notMem_empty place)).trans hfile
  have hnode : ∀ p, (after.erase place).node? p = (before.erase place).node? p := by
    intro p
    rw [node?_erase_of_file hfile, node?_erase_of_file hfile', h.node?_eq (Set.notMem_empty p)]
  exact {
    home := h.home
    directories := fun p hp => (hnode p).trans hp
    node?_eq := fun _ => hnode _
    length_le := h.length_le
    content_eq := h.content_eq
  }

theorem move_both (h : Frame ∅ ∅ before after) {place goal : Location} {id : FileId}
    (hfile : before.node? place = some (.file id)) (hgoal : before.node? goal ≠ some .directory) :
    Frame ∅ ∅ (before.move place goal) (after.move place goal) := by
  have hfile' : after.node? place = some (.file id) := (h.node?_eq (Set.notMem_empty place)).trans hfile
  have hgoal' : after.node? goal ≠ some .directory := by rwa [h.node?_eq (Set.notMem_empty goal)]
  have hnode : ∀ p, (after.move place goal).node? p = (before.move place goal).node? p := by
    intro p
    rw [node?_move_of_file hfile hgoal, node?_move_of_file hfile' hgoal',
      h.node?_eq (Set.notMem_empty p)]
  exact {
    home := h.home
    directories := fun p hp => (hnode p).trans hp
    node?_eq := fun _ => hnode _
    length_le := h.length_le
    content_eq := h.content_eq
  }

/-! ## Operations by path -/

theorem locate?_eq (h : Frame ∅ ∅ before after) (path : Path) : after.locate? path = before.locate? path := by
  unfold FileSystem.locate?
  rw [h.resolve_eq]

theorem removeFile_eq_ok (h : Frame ∅ ∅ before after) {path : Path} {removed : FileSystem}
    (hr : before.removeFile path = .ok removed) :
    ∃ removed', after.removeFile path = .ok removed' ∧ Frame ∅ ∅ removed removed' := by
  obtain ⟨place, id, hlocate, hfile, rfl⟩ := removeFile_eq_ok_iff.1 hr
  have hlocate' := (h.locate?_eq path).trans hlocate
  have hfile' := (h.node?_eq (Set.notMem_empty place)).trans hfile
  exact ⟨_, removeFile_eq_ok_iff.2 ⟨place, id, hlocate', hfile', rfl⟩, h.erase_both hfile⟩

theorem removeFile_eq_error (h : Frame ∅ ∅ before after) {path : Path} {cause : SystemError}
    (hr : before.removeFile path = .error cause) : ∃ cause', after.removeFile path = .error cause' := by
  cases ha : after.removeFile path with
  | error cause' => exact ⟨cause', rfl⟩
  | ok removed =>
    obtain ⟨place, id, hlocate, hfile, -⟩ := removeFile_eq_ok_iff.1 ha
    rw [h.locate?_eq] at hlocate
    rw [h.node?_eq (Set.notMem_empty place)] at hfile
    rw [removeFile_eq_ok_iff.2 ⟨place, id, hlocate, hfile, rfl⟩] at hr
    cases hr

theorem renameFile_eq_ok (h : Frame ∅ ∅ before after) {source target : Path} {renamed : FileSystem}
    (hr : before.renameFile source target = .ok renamed) :
    ∃ renamed', after.renameFile source target = .ok renamed' ∧ Frame ∅ ∅ renamed renamed' := by
  obtain ⟨place, id, goal, hlocate, hfile, hgoal, hfree, rfl⟩ := renameFile_eq_ok_iff.1 hr
  have hlocate' := (h.locate?_eq source).trans hlocate
  have hfile' := (h.node?_eq (Set.notMem_empty place)).trans hfile
  have hgoal' := (h.locate?_eq target).trans hgoal
  have hfree' : after.node? goal ≠ some .directory := by rwa [h.node?_eq (Set.notMem_empty goal)]
  exact ⟨_, renameFile_eq_ok_iff.2 ⟨place, id, goal, hlocate', hfile', hgoal', hfree', rfl⟩,
    h.move_both hfile hfree⟩

theorem renameFile_eq_error (h : Frame ∅ ∅ before after) {source target : Path} {cause : SystemError}
    (hr : before.renameFile source target = .error cause) :
    after.renameFile source target = .error cause := by
  have hsame : (after.renameFile source target).map (fun _ => ()) =
      (before.renameFile source target).map fun _ => () := by
    unfold renameFile
    rw [h.resolve_eq, h.lookup_eq]
    rcases before.resolve source with refusal | ⟨directory, name, slash⟩ | place
    · rfl
    · rcases before.resolve target with refusal | ⟨directory', name', slash'⟩ | place
      · rfl
      · simp only [bind, Except.bind]
        rcases before.lookup directory name with refusal | _ | _ | id
        · rfl
        · rfl
        · rfl
        · rcases before.lookup directory' name' with refusal | replaced
          · rfl
          · simp only
            split
            · rfl
            · split <;> rfl
      · rfl
    · rcases before.resolve target with refusal | ⟨directory', name', slash'⟩ | place <;> rfl
  rw [hr] at hsame
  cases ha : after.renameFile source target with
  | error cause' =>
    rw [ha] at hsame
    rw [Except.error.inj hsame]
  | ok renamed =>
    rw [ha] at hsame
    cases hsame

end Frame

end FileSystem

end BootImage
