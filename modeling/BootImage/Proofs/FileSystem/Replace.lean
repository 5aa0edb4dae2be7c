import BootImage.Proofs.FileSystem.Frame
/-!
# One file in place of what was there

A path of a tree is read and written through the entry it names. `FileSystem.Replaced` says of a
change that it put one file where a path leads, over a file or where nothing was. That is all there
is to know of it: this file reads as it was written, every other one as it did before, and all
paths lead where they led.
-/

namespace BootImage

namespace FileSystem

/-- Nothing has changed but that there is now a file of these bytes at a place. No directory was
there. -/
structure Replaced (place : Location) (bytes : List UInt8) (before after : FileSystem) : Prop where
  sameOutside : SameOutside {place} before after
  free : before.node? place ≠ some .directory
  holds : after.entry? place = some (.file bytes)

theorem SameOutside.refl (fs : FileSystem) : SameOutside ∅ fs fs :=
  ⟨rfl, fun _ _ => rfl⟩

theorem SameOutside.mono {places others : Set Location} {before after : FileSystem}
    (h : SameOutside places before after) (hp : places ⊆ others) : SameOutside others before after :=
  ⟨h.home, fun place hn => h.entry?_eq place fun hm => hn (hp hm)⟩

theorem SameOutside.trans {before middle after : FileSystem} (h : SameOutside ∅ before middle)
    (h' : SameOutside ∅ middle after) : SameOutside ∅ before after :=
  ⟨h'.home.trans h.home, fun place hp => (h'.entry?_eq place hp).trans (h.entry?_eq place hp)⟩

theorem entry?_eq_directory_iff {fs : FileSystem} {place : Location} :
    fs.entry? place = some .directory ↔ fs.node? place = some .directory := by
  unfold entry?
  rcases fs.node? place with _ | _ | id <;> simp

/-- What reading a path answers, from what can be seen where it leads. -/
theorem readAll_eq_of_locate? {fs : FileSystem} {path : Path} {place : Location}
    (h : fs.locate? path = some place) :
    fs.readAll path =
      match fs.entry? place with
      | none => .error .noSuchEntry
      | some .directory => .error .isADirectory
      | some (.file bytes) => .ok bytes := by
  obtain ⟨directory, name, hr, hlong, rfl⟩ := locate?_eq_some_iff.1 h
  unfold readAll entry?
  simp only [hr, lookup_eq, hlong, if_false, bind, Except.bind]
  rcases fs.node? (name :: directory) with _ | _ | id <;> rfl

/-- Where no directory came and none went, paths lead where they led. -/
theorem locate?_congr {before after : FileSystem} (h : KeepsDirectories before after)
    (h' : KeepsDirectories after before) (path : Path) :
    after.locate? path = before.locate? path := by
  cases hb : before.locate? path with
  | some place => exact h.locate? hb
  | none =>
    cases ha : after.locate? path with
    | none => rfl
    | some place =>
      rw [h'.locate? ha] at hb
      cases hb

namespace Replaced

variable {place : Location} {bytes : List UInt8} {before after : FileSystem} {path : Path}

theorem keepsDirectories (h : Replaced place bytes before after) :
    KeepsDirectories before after where
  home := h.sameOutside.home
  directories p hp := by
    have hne : p ∉ ({place} : Set Location) := by
      rintro rfl
      exact h.free hp
    rw [← entry?_eq_directory_iff, h.sameOutside.entry?_eq p hne, entry?_eq_directory_iff, hp]

theorem keepsDirectories_symm (h : Replaced place bytes before after) :
    KeepsDirectories after before where
  home := h.sameOutside.home.symm
  directories p hp := by
    have hne : p ∉ ({place} : Set Location) := by
      rintro rfl
      have hfile := h.holds
      rw [entry?_eq_directory_iff.2 hp] at hfile
      cases hfile
    rw [← entry?_eq_directory_iff, ← h.sameOutside.entry?_eq p hne, entry?_eq_directory_iff, hp]

theorem locate?_eq (h : Replaced place bytes before after) (path : Path) :
    after.locate? path = before.locate? path :=
  locate?_congr h.keepsDirectories h.keepsDirectories_symm path

/-- A path that leads there reads what was written. -/
theorem readAll_eq (h : Replaced place bytes before after) (hp : before.locate? path = some place) :
    after.readAll path = .ok bytes :=
  readAll_eq_ok_iff.2 ⟨place, (h.locate?_eq path).trans hp, h.holds⟩

/-- A path that leads elsewhere reads what it did. -/
theorem readAll_iff (h : Replaced place bytes before after) (hp : before.locate? path ≠ some place)
    (found : List UInt8) : after.readAll path = .ok found ↔ before.readAll path = .ok found := by
  simp only [readAll_eq_ok_iff, h.locate?_eq]
  refine exists_congr fun p => and_congr_right fun hlocate => ?_
  have hne : p ∉ ({place} : Set Location) := by
    rintro rfl
    exact hp hlocate
  rw [h.sameOutside.entry?_eq p hne]

/-- The change is none if that file was there already. -/
theorem sameOutside_empty_iff (h : Replaced place bytes before after) :
    SameOutside ∅ before after ↔ before.entry? place = some (.file bytes) := by
  constructor
  · intro hsame
    rw [← hsame.entry?_eq place (Set.notMem_empty place), h.holds]
  · intro hheld
    refine ⟨h.sameOutside.home, fun p _ => ?_⟩
    by_cases hp : p = place
    · rw [hp, h.holds, hheld]
    · exact h.sameOutside.entry?_eq p hp

end Replaced

/-! ## Writing a file -/

theorem Frame.replaced {place : Location} {bytes : List UInt8} {ids : Set FileId}
    {before after : FileSystem} (h : Frame {place} ids before after)
    (hids : ∀ id ∈ ids, before.node? place = some (.file id))
    (hfree : before.node? place ≠ some .directory)
    (hholds : after.entry? place = some (.file bytes)) : Replaced place bytes before after where
  sameOutside := by
    refine ⟨h.home, fun p hp => h.entry?_eq hp fun id hm hnode => hp ?_⟩
    -- A file has one entry only.
    exact node?_inj hnode (hids id hm)
  free := hfree
  holds := hholds

/-- A whole file that is written replaces what was there, if anything, and nothing else. -/
theorem replaced_of_writeAll {before after : FileSystem} {path : Path} {bytes : List UInt8}
    (h : before.writeAll path bytes = .ok after) :
    ∃ place, before.locate? path = some place ∧ Replaced place bytes before after := by
  obtain ⟨place, hlocate, ⟨hvacant, rfl⟩ | ⟨id, hfile, rfl⟩⟩ := writeAll_eq_ok_iff.1 h
  · refine ⟨place, hlocate, (frame_addFile hvacant _).replaced (by simp)
      (ne_directory_of_vacant hvacant) ?_⟩
    have hnode : (before.addFile place (.ofList bytes)).node? place =
        some (.file before.contents.length) := by
      rw [node?_addFile_of_vacant hvacant, if_pos rfl]
    rw [entry?_of_file hnode, content_addFile_new, FileContent.toList_ofList]
  · have hlive := lt_of_node? hfile
    have hframe : Frame {place} {id} before (before.setContent id (.ofList bytes)) :=
      (frame_setContent hlive _).mono (Set.empty_subset _) (Set.Subset.refl _)
    refine ⟨place, hlocate, hframe.replaced ?_ (ne_directory_of_file hfile) ?_⟩
    · rintro _ rfl
      exact hfile
    · have hnode : (before.setContent id (.ofList bytes)).node? place = some (.file id) := hfile
      rw [entry?_of_file hnode, content_setContent hlive, if_pos rfl, FileContent.toList_ofList]

/-- A file can be written over. -/
theorem exists_writeAll {fs : FileSystem} {path : Path} {place : Location} {old : List UInt8}
    (hplace : fs.locate? path = some place) (hold : fs.entry? place = some (.file old))
    (bytes : List UInt8) : ∃ after, fs.writeAll path bytes = .ok after := by
  unfold entry? at hold
  rcases hnode : fs.node? place with _ | _ | id
  · simp [hnode] at hold
  · simp [hnode] at hold
  · exact ⟨_, writeAll_eq_ok_iff.2 ⟨place, hplace, .inr ⟨id, hnode, rfl⟩⟩⟩

end FileSystem

end BootImage
