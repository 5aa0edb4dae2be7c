import BootImage.FileSystem.Resolve
/-!
# Walking a path

`FileSystem.resolve_eq` says what a path comes down to in terms of places: `FileSystem.parentOf`
goes from directory to directory, and the last piece is left. Directories never go away, so a path
that leads to an entry leads there ever after (`FileSystem.KeepsDirectories.resolve`).
-/

namespace BootImage

/-- The destination that the last piece of a path leads to from a directory. -/
def Destination.ofLast (directory : Location) (last : Name) (asDirectory : Bool) : Destination :=
  if last = Name.dot then .directory directory
  else if last = Name.dotDot then .directory directory.tail
  else .entry directory last asDirectory

namespace FileSystem

/-! ## Walking -/

/-- The directory that a piece of a path leads to from another. -/
def descend (fs : FileSystem) (directory : Location) (piece : Name) : Except SystemError Location :=
  if piece = Name.dot then
    .ok directory
  else if piece = Name.dotDot then
    .ok directory.tail
  else
    match fs.lookup directory piece with
    | .error cause => .error cause
    | .ok none => .error .noSuchEntry
    | .ok (some (.file _)) => .error .notADirectory
    | .ok (some .directory) => .ok (piece :: directory)

theorem enter_eq_descend (fs : FileSystem) (directory : Location) (piece : Name) :
    fs.enter (fs.trailTo directory) piece = (fs.descend directory piece).map fs.trailTo := by
  by_cases hd : piece = Name.dot
  · simp [enter, descend, hd, Except.map, pure, Except.pure]
  · by_cases hdd : piece = Name.dotDot
    · simp [enter, descend, hdd, Except.map, pure, Except.pure, Name.dot, Name.dotDot, tail_trailTo]
    · rw [enter_trailTo hd hdd, descend, if_neg hd, if_neg hdd]
      rcases fs.lookup directory piece with cause | (_ | _ | _) <;> rfl

theorem foldlM_enter (fs : FileSystem) (pieces : List Name) (directory : Location) :
    pieces.foldlM fs.enter (fs.trailTo directory) =
      (pieces.foldlM fs.descend directory).map fs.trailTo := by
  induction pieces generalizing directory with
  | nil => rfl
  | cons piece pieces ih =>
    rw [List.foldlM_cons, List.foldlM_cons, enter_eq_descend]
    cases fs.descend directory piece with
    | error cause => rfl
    | ok next => exact ih next

/-- Where a path is followed from. -/
def origin (fs : FileSystem) (path : Path) : Location :=
  if path.isAbsolute then [] else fs.home

/-- The directory that holds the last piece of a path. -/
def parentOf (fs : FileSystem) (path : Path) : Except SystemError Location :=
  path.steps.dropLast.foldlM fs.descend (fs.origin path)

theorem resolve_eq (fs : FileSystem) (path : Path) :
    fs.resolve path =
      if '\x00' ∈ path.chars then .error .nulInPath
      else if path.chars = [] then .error .noSuchEntry
      else if pathLimit ≤ Name.byteLength path.chars then .error .nameTooLong
      else
        match path.steps.getLast? with
        | none => .ok (.directory (fs.origin path))
        | some last =>
          (fs.parentOf path).map fun directory => .ofLast directory last path.endsInSlash := by
  unfold resolve
  by_cases hnul : '\x00' ∈ path.chars
  · simp [hnul]; rfl
  · by_cases hempty : path.chars = []
    · simp [hempty]; rfl
    · by_cases hlong : pathLimit ≤ Name.byteLength path.chars
      · simp [hnul, hempty, hlong]; rfl
      · simp only [hnul, hempty, hlong, if_false]
        cases path.steps.getLast? with
        | none => rfl
        | some last =>
          simp only [foldlM_enter]
          unfold parentOf origin
          cases path.steps.dropLast.foldlM fs.descend (if path.isAbsolute then [] else fs.home) with
          | error cause => rfl
          | ok directory =>
            simp only [Except.map, bind, Except.bind, Destination.ofLast, place_trailTo]
            split
            · rfl
            · split <;> rfl

/-- A path leads to an entry if its last piece is a name and the pieces before it lead through
directories. -/
theorem resolve_eq_entry_iff {fs : FileSystem} {path : Path} {directory : Location} {name : Name}
    {asDirectory : Bool} :
    fs.resolve path = .ok (.entry directory name asDirectory) ↔
      '\x00' ∉ path.chars ∧ Name.byteLength path.chars < pathLimit ∧
        path.steps.getLast? = some name ∧ name ≠ Name.dot ∧ name ≠ Name.dotDot ∧
        fs.parentOf path = .ok directory ∧ asDirectory = path.endsInSlash := by
  rw [resolve_eq]
  by_cases hnul : '\x00' ∈ path.chars
  · simp [hnul]
  by_cases hempty : path.chars = []
  · simp [hempty, Path.steps, Path.pieces, Path.split]
  by_cases hlong : pathLimit ≤ Name.byteLength path.chars
  · simp [hnul, hempty, hlong, Nat.not_lt.2 hlong]
  simp only [hnul, hempty, hlong, if_false, not_false_eq_true, true_and, Nat.lt_of_not_le hlong]
  cases hlast : path.steps.getLast? with
  | none => simp
  | some last =>
    cases hparent : fs.parentOf path with
    | error cause => simp [Except.map]
    | ok place =>
      simp only [Except.map, Destination.ofLast, Except.ok.injEq, Option.some.injEq]
      by_cases hdot : last = Name.dot
      · rw [if_pos hdot]
        constructor
        · nofun
        · rintro ⟨rfl, hne, -⟩
          exact absurd hdot hne
      by_cases hdotDot : last = Name.dotDot
      · rw [if_neg hdot, if_pos hdotDot]
        constructor
        · nofun
        · rintro ⟨rfl, -, hne, -⟩
          exact absurd hdotDot hne
      · rw [if_neg hdot, if_neg hdotDot, Destination.entry.injEq]
        constructor
        · rintro ⟨rfl, rfl, rfl⟩
          exact ⟨rfl, hdot, hdotDot, rfl, rfl⟩
        · rintro ⟨rfl, -, -, rfl, rfl⟩
          exact ⟨rfl, rfl, rfl⟩

/-! ## Directories that stay -/

/-- Every directory is still there, and relative paths start where they did. -/
structure KeepsDirectories (before after : FileSystem) : Prop where
  home : after.home = before.home
  directories : ∀ place, before.node? place = some .directory → after.node? place = some .directory

namespace KeepsDirectories

variable {before after : FileSystem}

theorem descend (h : KeepsDirectories before after) {directory next : Location} {piece : Name}
    (hd : before.descend directory piece = .ok next) : after.descend directory piece = .ok next := by
  unfold FileSystem.descend at hd ⊢
  by_cases hdot : piece = Name.dot
  · simpa [hdot] using hd
  by_cases hdotDot : piece = Name.dotDot
  · simpa [hdotDot] using hd
  simp only [hdot, hdotDot, if_false, lookup_eq] at hd ⊢
  by_cases hlong : nameLimit < piece.byteLength
  · simp [hlong] at hd
  simp only [hlong, if_false] at hd ⊢
  cases hnode : before.node? (piece :: directory) with
  | none => simp [hnode] at hd
  | some node =>
    cases node with
    | file id => simp [hnode] at hd
    | directory => simpa [hnode, h.directories _ hnode] using hd

theorem foldlM_descend (h : KeepsDirectories before after) {pieces : List Name}
    {start place : Location} (hd : pieces.foldlM before.descend start = .ok place) :
    pieces.foldlM after.descend start = .ok place := by
  -- Each step leads through a directory that is still there.
  induction pieces generalizing start with
  | nil => exact hd
  | cons piece pieces ih =>
    rw [List.foldlM_cons] at hd ⊢
    cases hnext : before.descend start piece with
    | error cause =>
      rw [hnext] at hd
      cases hd
    | ok next =>
      rw [hnext] at hd
      rw [h.descend hnext]
      exact ih hd

/-- A path that leads to an entry goes on leading there. -/
theorem resolve (h : KeepsDirectories before after) {path : Path} {directory : Location}
    {name : Name} {asDirectory : Bool}
    (hr : before.resolve path = .ok (.entry directory name asDirectory)) :
    after.resolve path = .ok (.entry directory name asDirectory) := by
  rw [resolve_eq_entry_iff] at hr ⊢
  obtain ⟨hnul, hlong, hlast, hdot, hdotDot, hparent, hslash⟩ := hr
  refine ⟨hnul, hlong, hlast, hdot, hdotDot, ?_, hslash⟩
  unfold parentOf origin at hparent ⊢
  rw [h.home]
  exact h.foldlM_descend hparent

end KeepsDirectories

end FileSystem

end BootImage
