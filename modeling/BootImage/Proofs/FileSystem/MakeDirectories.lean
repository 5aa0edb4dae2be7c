import BootImage.Proofs.FileSystem.Frame
/-!
# Making directories

`FileSystem.makeDirectories` keeps what it has made when it fails, so what it leaves is described
without its result: some directories are new, each on the way of the path and where nothing was
before, and nothing else has changed (`FileSystem.frame_makeDirectories`).
-/

namespace BootImage

/-- The directories that making one asks for: the path's own and those it passes through. -/
def Path.ways (path : Path) : List Path :=
  (path.pieces.reverse :: path.above).map fun pieces => .ofPieces pieces.reverse

namespace FileSystem

/-- A path leads to the entry at a place, whether or not there is one. -/
def LeadsTo (fs : FileSystem) (path : Path) (place : Location) : Prop :=
  ∃ directory name asDirectory,
    fs.resolve path = .ok (.entry directory name asDirectory) ∧ place = name :: directory

theorem KeepsDirectories.leadsTo {before after : FileSystem} (h : KeepsDirectories before after)
    {path : Path} {place : Location} (hp : before.LeadsTo path place) : after.LeadsTo path place := by
  obtain ⟨directory, name, asDirectory, hr, rfl⟩ := hp
  exact ⟨directory, name, asDirectory, h.resolve hr, rfl⟩

/-- Where a directory has been made that one of the paths leads to. -/
def added (paths : List Path) (before after : FileSystem) : Set Location :=
  {place | before.node? place = none ∧ after.node? place = some .directory ∧
    ∃ path ∈ paths, after.LeadsTo path place}

/-- Nothing has changed but that there are new directories, to which some of the paths lead. -/
def Grows (paths : List Path) (before after : FileSystem) : Prop :=
  Frame (added paths before after) ∅ before after

namespace Grows

variable {paths others : List Path} {before middle after : FileSystem}

theorem refl (paths : List Path) (fs : FileSystem) : Grows paths fs fs :=
  (Frame.refl fs).mono (Set.empty_subset _) (Set.Subset.refl _)

theorem mono (h : Grows paths before after) (hp : paths ⊆ others) : Grows others before after := by
  refine Frame.mono h ?_ (Set.Subset.refl _)
  rintro place ⟨hbefore, hafter, path, hm, hl⟩
  exact ⟨hbefore, hafter, path, hp hm, hl⟩

theorem trans (h : Grows paths before middle) (h' : Grows paths middle after) :
    Grows paths before after := by
  have hboth := Frame.trans h h'
  rw [Set.union_self] at hboth
  refine hboth.mono ?_ (Set.Subset.refl _)
  rintro place (⟨hbefore, hmiddle, path, hm, hl⟩ | ⟨hmiddle, hafter, path, hm, hl⟩)
  · exact ⟨hbefore, h'.directories place hmiddle, path, hm, h'.leadsTo hl⟩
  · refine ⟨?_, hafter, path, hm, hl⟩
    -- The first part would have left a directory there, if anything.
    have hsame : place ∉ added paths before middle := by
      rintro ⟨-, hdirectory, -⟩
      rw [hmiddle] at hdirectory
      cases hdirectory
    rw [← h.node?_eq hsame, hmiddle]

end Grows

theorem grows_of_ensureDirectory {fs made : FileSystem} {path : Path}
    (h : fs.ensureDirectory path = .ok made) : Grows [path] fs made := by
  unfold ensureDirectory at h
  cases hm : fs.makeDirectory path with
  | error cause =>
    rw [hm] at h
    by_cases hd : fs.isDirectory path
    · simp only [hd, if_true, Except.ok.injEq] at h
      exact h ▸ .refl [path] fs
    · simp [hd] at h
  | ok now =>
    rw [hm] at h
    cases h
    obtain ⟨directory, name, asDirectory, hr, -, hvacant, rfl⟩ := makeDirectory_eq_ok_iff.1 hm
    have hframe := frame_addDirectory fs (name :: directory)
    refine hframe.mono ?_ (Set.Subset.refl _)
    rintro place rfl
    refine ⟨hvacant, ?_, path, List.mem_singleton_self path, directory, name, asDirectory,
      hframe.resolve hr, rfl⟩
    rw [node?_addDirectory, if_pos rfl]

theorem grows_makeFirst (ways : List (List Name)) (fs : FileSystem) :
    Grows (ways.map fun pieces => .ofPieces pieces.reverse) fs (makeFirst ways fs).2 := by
  induction ways generalizing fs with
  | nil => exact .refl _ fs
  | cons pieces above ih =>
    have hhead : ∀ {fs made : FileSystem},
        fs.ensureDirectory (.ofPieces pieces.reverse) = .ok made →
          Grows ((pieces :: above).map fun pieces => .ofPieces pieces.reverse) fs made := by
      intro fs made h
      exact (grows_of_ensureDirectory h).mono (by simp)
    have habove := (ih fs).mono (List.subset_cons_self (Path.ofPieces pieces.reverse) _)
    unfold makeFirst
    split
    · rename_i made h
      exact hhead h
    · -- The directories above come first, whatever becomes of them.
      split
      · rename_i h
        rw [h] at habove
        exact habove
      · rename_i made h
        rw [h] at habove
        split
        · rename_i complete h'
          exact habove.trans (hhead h')
        · exact habove
    · exact .refl _ fs

/-- Whether or not it succeeds, making a directory adds directories and changes nothing else. -/
theorem grows_makeDirectories (fs : FileSystem) (path : Path) :
    Grows path.ways fs (fs.makeDirectories path).2 := by
  unfold makeDirectories
  split
  · exact .refl path.ways fs
  · exact grows_makeFirst _ fs

end FileSystem

end BootImage
