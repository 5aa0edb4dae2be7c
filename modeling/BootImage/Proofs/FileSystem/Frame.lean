import BootImage.Proofs.FileSystem.Locate
import Mathlib.Data.Set.Insert
/-!
# What stays as it was

`FileSystem.Frame places ids` says that a change touched at most the entries at `places` and the
contents of the files `ids`. It is what those who use other entries and files need to know of it:
their entries, their contents and their paths are the same as before.
-/

namespace BootImage

namespace FileSystem

/-- Nothing changed but the entries at `places` and the contents of `ids`. New files may have been
added. -/
structure Frame (places : Set Location) (ids : Set FileId) (before after : FileSystem) : Prop
    extends KeepsDirectories before after where
  node?_eq : ∀ {place}, place ∉ places → after.node? place = before.node? place
  length_le : before.contents.length ≤ after.contents.length
  content_eq : ∀ {id}, id < before.contents.length → id ∉ ids → after.content id = before.content id

namespace Frame

variable {places others : Set Location} {ids ids' : Set FileId} {before middle after : FileSystem}

theorem refl (fs : FileSystem) : Frame ∅ ∅ fs fs :=
  ⟨⟨rfl, fun _ h => h⟩, fun _ => rfl, Nat.le_refl _, fun _ _ => rfl⟩

theorem trans (h : Frame places ids before middle) (h' : Frame others ids' middle after) :
    Frame (places ∪ others) (ids ∪ ids') before after where
  home := h'.home.trans h.home
  directories place hp := h'.directories place (h.directories place hp)
  node?_eq hp := (h'.node?_eq fun e => hp (.inr e)).trans (h.node?_eq fun e => hp (.inl e))
  length_le := Nat.le_trans h.length_le h'.length_le
  content_eq hid hne :=
    (h'.content_eq (Nat.lt_of_lt_of_le hid h.length_le) fun e => hne (.inr e)).trans
      (h.content_eq hid fun e => hne (.inl e))

theorem mono (h : Frame places ids before after) (hp : places ⊆ others) (hi : ids ⊆ ids') :
    Frame others ids' before after :=
  ⟨h.toKeepsDirectories, fun hn => h.node?_eq fun e => hn (hp e), h.length_le,
    fun hid hn => h.content_eq hid fun e => hn (hi e)⟩

/-- An entry that is what it was before did not change. -/
theorem erase {place : Location} (h : Frame (insert place places) ids before after)
    (hp : after.node? place = before.node? place) : Frame places ids before after where
  toKeepsDirectories := h.toKeepsDirectories
  node?_eq := by
    intro p hn
    by_cases e : p = place
    · exact e ▸ hp
    · exact h.node?_eq fun hm => hm.elim e hn
  length_le := h.length_le
  content_eq := h.content_eq

/-- Files made since may have any content. -/
theorem fresh {id : FileId} (h : Frame places (insert id ids) before after)
    (hid : before.contents.length ≤ id) : Frame places ids before after where
  toKeepsDirectories := h.toKeepsDirectories
  node?_eq := h.node?_eq
  length_le := h.length_le
  content_eq hlt hn := h.content_eq hlt fun hm =>
    hm.elim (fun e => absurd hid (Nat.not_le.2 (e ▸ hlt))) hn

/-- Where the only changed entry is no directory, no directory has been added. -/
theorem keepsDirectories_symm {place : Location} (h : Frame {place} ids before after)
    (hn : after.node? place ≠ some .directory) : KeepsDirectories after before where
  home := h.home.symm
  directories p hp := by
    have hne : p ∉ ({place} : Set Location) := by
      rintro rfl
      exact hn hp
    rw [← h.node?_eq hne, hp]

/-- What can be seen where nothing changed. -/
theorem entry?_eq (h : Frame places ids before after) {place : Location} (hp : place ∉ places)
    (hi : ∀ id ∈ ids, before.node? place ≠ some (.file id)) :
    after.entry? place = before.entry? place := by
  unfold entry?
  rw [h.node?_eq hp]
  cases hn : before.node? place with
  | none => rfl
  | some node =>
    cases node with
    | directory => rfl
    | file id => simp [h.content_eq (lt_of_node? hn) fun hm => hi id hm hn]

end Frame

/-! ## What can be seen of it -/

/-- The tree looks the same as before, except at `places`. -/
structure SameOutside (places : Set Location) (before after : FileSystem) : Prop where
  home : after.home = before.home
  entry?_eq : ∀ place, place ∉ places → after.entry? place = before.entry? place

theorem Frame.sameOutside {places : Set Location} {before after : FileSystem}
    (h : Frame places ∅ before after) : SameOutside places before after :=
  ⟨h.home, fun _ hp => h.entry?_eq hp fun _ hid => absurd hid (Set.notMem_empty _)⟩

theorem entry?_eq_none_iff {fs : FileSystem} {place : Location} :
    fs.entry? place = none ↔ fs.node? place = none :=
  Option.map_eq_none_iff

theorem entry?_of_file {fs : FileSystem} {place : Location} {id : FileId}
    (h : fs.node? place = some (.file id)) :
    fs.entry? place = some (.file (fs.content id).toList) := by
  unfold entry?
  rw [h, Option.map_some]

theorem entry?_of_directory {fs : FileSystem} {place : Location}
    (h : fs.node? place = some .directory) : fs.entry? place = some .directory := by
  unfold entry?
  rw [h, Option.map_some]

/-! ## Elementary changes -/

variable {fs : FileSystem} {place : Location} {id : FileId}

/-- Only the root is not in a directory. -/
theorem ne_nil_of_node? (h : fs.node? place ≠ some .directory) : place ≠ [] := by
  rintro rfl
  exact h (node?_root fs)

theorem ne_directory_of_vacant (h : fs.node? place = none) : fs.node? place ≠ some .directory := by
  simp [h]

theorem ne_directory_of_file (h : fs.node? place = some (.file id)) :
    fs.node? place ≠ some .directory := by
  simp [h]

theorem node?_addFile_of_vacant (h : fs.node? place = none) (content : FileContent) (p : Location) :
    (fs.addFile place content).node? p =
      if p = place then some (.file fs.contents.length) else fs.node? p :=
  node?_addFile (ne_nil_of_node? (ne_directory_of_vacant h)) fs content p

theorem node?_erase_of_file (h : fs.node? place = some (.file id)) (p : Location) :
    (fs.erase place).node? p = if p = place then none else fs.node? p :=
  node?_erase (ne_nil_of_node? (ne_directory_of_file h)) fs p

theorem node?_move_of_file {goal : Location} (h : fs.node? place = some (.file id))
    (hg : fs.node? goal ≠ some .directory) (p : Location) :
    (fs.move place goal).node? p =
      if p = goal then some (.file id) else if p = place then none else fs.node? p := by
  rw [node?_move (ne_nil_of_node? (ne_directory_of_file h)) (ne_nil_of_node? hg), h]

theorem frame_addFile (h : fs.node? place = none) (content : FileContent) :
    Frame {place} ∅ fs (fs.addFile place content) where
  home := rfl
  directories p hp := by
    have hne : p ≠ place := by
      rintro rfl
      simp [h] at hp
    rw [node?_addFile_of_vacant h, if_neg hne, hp]
  node?_eq hp := by rw [node?_addFile_of_vacant h, if_neg (Set.notMem_singleton_iff.1 hp)]
  length_le := by simp [addFile]
  content_eq hid _ := content_addFile_of_lt hid place content

theorem frame_addDirectory (fs : FileSystem) (place : Location) :
    Frame {place} ∅ fs (fs.addDirectory place) where
  home := rfl
  directories p hp := by
    rw [node?_addDirectory]
    split
    · rfl
    · exact hp
  node?_eq hp := by rw [node?_addDirectory, if_neg (Set.notMem_singleton_iff.1 hp)]
  length_le := Nat.le_refl _
  content_eq _ _ := rfl

theorem frame_erase (h : fs.node? place = some (.file id)) :
    Frame {place} ∅ fs (fs.erase place) where
  home := rfl
  directories p hp := by
    have hne : p ≠ place := by
      rintro rfl
      simp [h] at hp
    rw [node?_erase_of_file h, if_neg hne, hp]
  node?_eq hp := by rw [node?_erase_of_file h, if_neg (Set.notMem_singleton_iff.1 hp)]
  length_le := Nat.le_refl _
  content_eq _ _ := rfl

theorem frame_move {goal : Location} (h : fs.node? place = some (.file id))
    (hg : fs.node? goal ≠ some .directory) : Frame {place, goal} ∅ fs (fs.move place goal) where
  home := rfl
  directories p hp := by
    have hne : p ≠ place := by
      rintro rfl
      simp [h] at hp
    have hne' : p ≠ goal := by
      rintro rfl
      exact hg hp
    rw [node?_move_of_file h hg, if_neg hne', if_neg hne, hp]
  node?_eq hp := by
    simp only [Set.mem_insert_iff, Set.mem_singleton_iff, not_or] at hp
    rw [node?_move_of_file h hg, if_neg hp.2, if_neg hp.1]
  length_le := Nat.le_refl _
  content_eq _ _ := rfl

theorem frame_setContent (hid : id < fs.contents.length) (content : FileContent) :
    Frame ∅ {id} fs (fs.setContent id content) where
  home := rfl
  directories _ hp := hp
  node?_eq _ := rfl
  length_le := by simp [setContent]
  content_eq _ hn := by rw [content_setContent hid, if_neg (Set.notMem_singleton_iff.1 hn)]

/-- Where a file was made in an empty place, removing it leaves no trace. -/
theorem Frame.undo {ids : Set FileId} {before after : FileSystem}
    (h : Frame {place} ids before after) (hb : before.node? place = none)
    (ha : after.node? place = some (.file id)) : Frame ∅ ids before (after.erase place) := by
  have hframe := h.trans (frame_erase ha)
  rw [Set.union_self, Set.union_empty] at hframe
  have hframe : Frame (insert place ∅) ids before (after.erase place) :=
    hframe.mono (by simp) (Set.Subset.refl _)
  refine hframe.erase ?_
  rw [node?_erase_of_file ha, if_pos rfl, hb]

end FileSystem

end BootImage
