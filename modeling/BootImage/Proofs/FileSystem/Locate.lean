import BootImage.FileSystem.Operations
import BootImage.Proofs.FileSystem.Walk
import BootImage.Proofs.Path.LastStep
/-!
# What operations on paths do

`FileSystem.locate?` is the entry that a path names as a file. With it every operation that takes a
path says in one line when it succeeds and which elementary change it then makes.
-/

namespace BootImage

namespace FileSystem

/-- The entry that a path names as a file, whether or not there is one: the path ends in a name that
is not too long and has no slash behind it. -/
def locate? (fs : FileSystem) (path : Path) : Option Location :=
  match fs.resolve path with
  | .ok (.entry directory name false) =>
    if nameLimit < name.byteLength then none else some (name :: directory)
  | _ => none

theorem locate?_eq_some_iff {fs : FileSystem} {path : Path} {place : Location} :
    fs.locate? path = some place ↔
      ∃ directory name, fs.resolve path = .ok (.entry directory name false) ∧
        ¬ nameLimit < name.byteLength ∧ place = name :: directory := by
  unfold locate?
  split
  · rename_i directory name h
    simp only [h, Except.ok.injEq, Destination.entry.injEq]
    constructor
    · intro hp
      by_cases hlong : nameLimit < name.byteLength
      · rw [if_pos hlong] at hp
        cases hp
      · rw [if_neg hlong, Option.some.injEq] at hp
        exact ⟨directory, name, ⟨rfl, rfl, trivial⟩, hlong, hp.symm⟩
    · rintro ⟨_, _, ⟨rfl, rfl, -⟩, hlong, rfl⟩
      rw [if_neg hlong]
  · rename_i h
    simp only [reduceCtorEq, false_iff]
    rintro ⟨directory, name, hr, -, -⟩
    exact h directory name hr

theorem locate?_ne_nil {fs : FileSystem} {path : Path} {place : Location}
    (h : fs.locate? path = some place) : place ≠ [] := by
  obtain ⟨directory, name, -, -, rfl⟩ := locate?_eq_some_iff.1 h
  exact List.cons_ne_nil name directory

/-- A path goes on naming the entry it names. -/
theorem KeepsDirectories.locate? {before after : FileSystem} (h : KeepsDirectories before after)
    {path : Path} {place : Location} (hp : before.locate? path = some place) :
    after.locate? path = some place := by
  rw [locate?_eq_some_iff] at hp ⊢
  obtain ⟨directory, name, hr, hlong, rfl⟩ := hp
  exact ⟨directory, name, h.resolve hr, hlong, rfl⟩

/-- The entry that a path names has the path's file name. -/
theorem fileName?_of_locate? {fs : FileSystem} {path : Path} {name : Name} {directory : Location}
    (h : fs.locate? path = some (name :: directory)) :
    path.fileName? = some name ∧ path.steps.getLast? = some name := by
  obtain ⟨directory', name', hr, -, e⟩ := locate?_eq_some_iff.1 h
  obtain ⟨rfl, rfl⟩ := List.cons.inj e
  obtain ⟨-, -, hlast, hdot, hdotDot, -⟩ := resolve_eq_entry_iff.1 hr
  exact ⟨Path.fileName?_of_getLast?_steps hlast hdot hdotDot, hlast⟩

/-- A staging path names an entry whose name ends in the tag's suffix, behind the target's file name
if there is one. -/
theorem name_of_locate?_staging {fs : FileSystem} {target : Path} {tag : Uuid} {place : Location}
    (h : fs.locate? (target.staging tag) = some place) :
    ∃ stem directory, place = (stem ++ Path.stagingSuffix tag) :: directory ∧
      ∀ name, target.fileName? = some name → stem = name := by
  obtain ⟨name, directory, rfl⟩ := List.exists_cons_of_ne_nil (locate?_ne_nil h)
  obtain ⟨stem, hlast, hstem⟩ := Path.getLast?_steps_staging target tag
  have hname : name = stem ++ Path.stagingSuffix tag :=
    Option.some.inj ((fileName?_of_locate? h).2.symm.trans hlast)
  exact ⟨stem, directory, by rw [hname], hstem⟩

/-- A target and its staging path never name the same entry. -/
theorem staging_ne_target {fs fs' : FileSystem} {target : Path} {tag : Uuid}
    {place goal : Location} (h : fs.locate? (target.staging tag) = some place)
    (h' : fs'.locate? target = some goal) : place ≠ goal := by
  obtain ⟨stem, directory, rfl, hstem⟩ := name_of_locate?_staging h
  obtain ⟨name, directory', rfl⟩ := List.exists_cons_of_ne_nil (locate?_ne_nil h')
  -- One name would be longer than itself.
  intro e
  have hname : stem ++ Path.stagingSuffix tag = name := (List.cons.inj e).1
  have hlength := congrArg List.length hname
  rw [hstem name (fileName?_of_locate? h').1, List.length_append] at hlength
  simp [Path.stagingSuffix] at hlength

/-! ## When operations succeed -/

theorem createFile_eq_ok_iff {fs fs' : FileSystem} {path : Path} {id : FileId} :
    fs.createFile path = .ok (id, fs') ↔
      ∃ place, fs.locate? path = some place ∧ fs.node? place = none ∧
        id = fs.contents.length ∧ fs' = fs.addFile place .empty := by
  unfold createFile locate?
  rcases fs.resolve path with cause | ⟨directory, name, _ | _⟩ | place
  · simp [bind, Except.bind]
  · simp only [bind, Except.bind, lookup_eq]
    by_cases hlong : nameLimit < name.byteLength
    · simp [hlong]
    · cases h : fs.node? (name :: directory)
      · simp only [hlong, if_false, pure, Except.pure, Option.some.injEq]
        constructor
        · intro hmade
          cases hmade
          exact ⟨_, rfl, h, rfl, rfl⟩
        · rintro ⟨_, rfl, -, rfl, rfl⟩
          rfl
      · simp [hlong, h, throw, throwThe, MonadExceptOf.throw]
  · simp [bind, Except.bind, throw, throwThe, MonadExceptOf.throw]
  · simp [bind, Except.bind, throw, throwThe, MonadExceptOf.throw]

theorem removeFile_eq_ok_iff {fs fs' : FileSystem} {path : Path} :
    fs.removeFile path = .ok fs' ↔
      ∃ place id, fs.locate? path = some place ∧ fs.node? place = some (.file id) ∧
        fs' = fs.erase place := by
  unfold removeFile locate?
  rcases fs.resolve path with cause | ⟨directory, name, asDirectory⟩ | place
  · simp [bind, Except.bind]
  · simp only [bind, Except.bind, lookup_eq]
    by_cases hlong : nameLimit < name.byteLength
    · cases asDirectory <;> simp [hlong]
    · rcases h : fs.node? (name :: directory) with _ | _ | id <;> cases asDirectory <;>
        simp [hlong, h, pure, Except.pure, throw, throwThe, MonadExceptOf.throw, eq_comm]
  · simp [bind, Except.bind, throw, throwThe, MonadExceptOf.throw]

theorem readAll_eq_ok_iff {fs : FileSystem} {path : Path} {bytes : List UInt8} :
    fs.readAll path = .ok bytes ↔
      ∃ place, fs.locate? path = some place ∧ fs.entry? place = some (.file bytes) := by
  unfold readAll locate? entry?
  rcases fs.resolve path with cause | ⟨directory, name, asDirectory⟩ | place
  · simp [bind, Except.bind]
  · simp only [bind, Except.bind, lookup_eq]
    by_cases hlong : nameLimit < name.byteLength
    · cases asDirectory <;> simp [hlong]
    · rcases h : fs.node? (name :: directory) with _ | _ | id <;> cases asDirectory <;>
        simp [h, hlong, pure, Except.pure, throw, throwThe, MonadExceptOf.throw, eq_comm]
  · simp [bind, Except.bind, throw, throwThe, MonadExceptOf.throw]

theorem writeAll_eq_ok_iff {fs fs' : FileSystem} {path : Path} {bytes : List UInt8} :
    fs.writeAll path bytes = .ok fs' ↔
      ∃ place, fs.locate? path = some place ∧
        (fs.node? place = none ∧ fs' = fs.addFile place (.ofList bytes) ∨
          ∃ id, fs.node? place = some (.file id) ∧ fs' = fs.setContent id (.ofList bytes)) := by
  unfold writeAll locate?
  rcases fs.resolve path with cause | ⟨directory, name, _ | _⟩ | place
  · simp [bind, Except.bind]
  · simp only [bind, Except.bind, lookup_eq]
    by_cases hlong : nameLimit < name.byteLength
    · simp [hlong]
    · rcases h : fs.node? (name :: directory) with _ | _ | id <;>
        simp [hlong, h, pure, Except.pure, throw, throwThe, MonadExceptOf.throw, eq_comm]
  · simp [bind, Except.bind, throw, throwThe, MonadExceptOf.throw]
  · simp [bind, Except.bind, throw, throwThe, MonadExceptOf.throw]

theorem renameFile_eq_ok_iff {fs fs' : FileSystem} {source target : Path} :
    fs.renameFile source target = .ok fs' ↔
      ∃ place id place', fs.locate? source = some place ∧ fs.node? place = some (.file id) ∧
        fs.locate? target = some place' ∧ fs.node? place' ≠ some .directory ∧
        fs' = fs.move place place' := by
  unfold renameFile locate?
  rcases fs.resolve source with cause | ⟨directory, name, asDirectory⟩ | place
  · simp [bind, Except.bind]
  · rcases fs.resolve target with cause | ⟨directory', name', asDirectory'⟩ | place
    · simp [bind, Except.bind]
    · simp only [bind, Except.bind, lookup_eq]
      by_cases hlong : nameLimit < name.byteLength
      · cases asDirectory <;> simp [hlong]
      · rcases h : fs.node? (name :: directory) with _ | _ | id
        · cases asDirectory <;>
            simp [h, hlong, throw, throwThe, MonadExceptOf.throw]
        · cases asDirectory <;>
            simp [h, hlong, throw, throwThe, MonadExceptOf.throw]
        · by_cases hlong' : nameLimit < name'.byteLength
          · cases asDirectory' <;> simp [hlong, hlong']
          · by_cases h' : fs.node? (name' :: directory') = some .directory <;> cases asDirectory <;>
              cases asDirectory' <;>
              simp [h, h', hlong, hlong', pure, Except.pure, throw, throwThe, MonadExceptOf.throw]
            exact eq_comm
    · simp [bind, Except.bind, throw, throwThe, MonadExceptOf.throw]
  · rcases fs.resolve target with cause | ⟨directory', name', asDirectory'⟩ | place <;>
    simp [bind, Except.bind, throw, throwThe, MonadExceptOf.throw]

theorem makeDirectory_eq_ok_iff {fs fs' : FileSystem} {path : Path} :
    fs.makeDirectory path = .ok fs' ↔
      ∃ directory name asDirectory, fs.resolve path = .ok (.entry directory name asDirectory) ∧
        ¬ nameLimit < name.byteLength ∧ fs.node? (name :: directory) = none ∧
        fs' = fs.addDirectory (name :: directory) := by
  unfold makeDirectory
  rcases fs.resolve path with cause | ⟨directory, name, asDirectory⟩ | place
  · simp [bind, Except.bind]
  · simp only [bind, Except.bind, lookup_eq]
    simp only [Except.ok.injEq, Destination.entry.injEq]
    by_cases hlong : nameLimit < name.byteLength
    · simp only [hlong, if_true, reduceCtorEq, false_iff]
      rintro ⟨_, _, _, ⟨rfl, rfl, rfl⟩, hshort, -⟩
      exact hshort hlong
    · cases h : fs.node? (name :: directory) with
      | none =>
        simp only [hlong, if_false, pure, Except.pure, Except.ok.injEq]
        constructor
        · rintro rfl
          exact ⟨directory, name, asDirectory, ⟨rfl, rfl, rfl⟩, hlong, h, rfl⟩
        · rintro ⟨_, _, _, ⟨rfl, rfl, rfl⟩, -, -, rfl⟩
          rfl
      | some node =>
        simp only [hlong, if_false, throw, throwThe, MonadExceptOf.throw, reduceCtorEq, false_iff]
        rintro ⟨_, _, _, ⟨rfl, rfl, rfl⟩, -, hvacant, -⟩
        rw [h] at hvacant
        cases hvacant
  · simp [bind, Except.bind, throw, throwThe, MonadExceptOf.throw]

end FileSystem

end BootImage
