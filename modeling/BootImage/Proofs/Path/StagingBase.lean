import BootImage.Proofs.Path.Tags
/-!
# What staging paths have in common

All staging paths of a target are made of one directory and one name, and differ in the tag behind the
name only (`Path.stagingBase`). So one way leads to all of them (`FileSystem.exists_way_staging`), and the
target's own path goes no further than that way and the name (`FileSystem.resolve_target_congr`).
-/

namespace BootImage

namespace Path

/-! ## Moves -/

/-- The pieces that change the place. -/
def moves (path : Path) : List Name :=
  path.pieces.filter (!idle ·)

theorem filter_steps (path : Path) : path.steps.filter (· ≠ Name.dot) = path.moves := by
  rw [steps, moves, List.filter_filter]
  apply List.filter_congr
  intro piece _
  simp [idle, Bool.and_comm]

theorem moves_ofPieces {pieces : List Name} (h : ∀ piece ∈ pieces, '/' ∉ piece) (hne : pieces ≠ []) :
    (ofPieces pieces).moves = pieces.filter (!idle ·) := by
  unfold ofPieces moves
  split
  · rename_i hroot
    rw [hroot]
    rfl
  · rw [Path.pieces, split_intercalate h hne]

theorem isAbsolute_ofPieces {first : Name} {rest : List Name}
    (h : ∀ piece ∈ first :: rest, '/' ∉ piece) :
    (ofPieces (first :: rest)).isAbsolute = true ↔ first = [] := by
  rw [isAbsolute_iff]
  unfold ofPieces
  split
  · rename_i hroot
    obtain ⟨rfl, rfl⟩ := List.cons.inj hroot
    exact ⟨fun _ => rfl, fun _ => ⟨[[]], List.cons_ne_nil _ _, rfl⟩⟩
  · rename_i hroot
    rw [Path.pieces, split_intercalate h (List.cons_ne_nil first rest)]
    constructor
    · rintro ⟨others, -, e⟩
      exact (List.cons.inj e).1
    · rintro rfl
      exact ⟨rest, fun hrest => hroot (by rw [hrest]), rfl⟩

theorem idle_of_ordinary {piece : Name} (h : ordinary piece = true) : idle piece = false := by
  simp only [ordinary, Bool.and_eq_true, Bool.not_eq_true'] at h
  exact h.1

/-- Where the file name of a path stands. -/
theorem pieces_of_splitName? {path directory : Path} {name : Name}
    (h : path.splitName? = some (directory, name)) :
    ordinary name = true ∧ ∃ below, (∀ piece ∈ below, idle piece = true) ∧
      ((path.pieces = name :: below ∧ directory = ⟨[]⟩) ∨
        ∃ (first : Name) (above : List Name), path.pieces = first :: (above.reverse ++ name :: below) ∧
          directory = ofPieces (first :: (above.dropWhile idle).reverse)) := by
  unfold splitName? at h
  split at h
  · cases h
  · rename_i first rest hpieces
    have hcut : rest = (rest.reverse.dropWhile idle).reverse ++ (rest.reverse.takeWhile idle).reverse := by
      rw [← List.reverse_append, List.takeWhile_append_dropWhile, List.reverse_reverse]
    have hbelow : ∀ piece ∈ (rest.reverse.takeWhile idle).reverse, idle piece = true :=
      fun piece hm => List.mem_takeWhile_imp (List.mem_reverse.1 hm)
    rw [hpieces]
    split at h
    · rename_i last above hdrop
      split at h
      · rename_i hlast
        cases h
        refine ⟨hlast, _, hbelow, .inr ⟨first, above, ?_, rfl⟩⟩
        rw [hdrop, List.reverse_cons, List.append_assoc] at hcut
        exact congrArg (first :: ·) hcut
      · cases h
    · rename_i hdrop
      split at h
      · rename_i hfirst
        cases h
        refine ⟨hfirst, _, hbelow, .inl ⟨?_, rfl⟩⟩
        rw [hdrop] at hcut
        exact congrArg (name :: ·) hcut
      · cases h

theorem trimmed_subset (first : Name) (above : List Name) :
    first :: (above.dropWhile idle).reverse ⊆ first :: above.reverse := by
  apply List.cons_subset_cons
  intro piece hm
  exact List.mem_reverse.2 (List.dropWhile_subset _ (List.mem_reverse.1 hm))

/-- Idle pieces at the end of a path do not move. -/
theorem moves_trimmed {first : Name} {above : List Name}
    (h : ∀ piece ∈ first :: above.reverse, '/' ∉ piece) :
    (ofPieces (first :: (above.dropWhile idle).reverse)).moves =
      (first :: above.reverse).filter (!idle ·) := by
  have hkept := fun piece hm => h piece (trimmed_subset first above hm)
  rw [moves_ofPieces hkept (List.cons_ne_nil _ _), ← List.reverse_concat, ← List.reverse_concat,
    List.filter_reverse, List.filter_reverse, List.filter_append, List.filter_append, filter_dropWhile]

theorem slash_not_mem_above {path : Path} {first : Name} {above below : List Name}
    (h : path.pieces = first :: (above ++ below)) : ∀ piece ∈ first :: above, '/' ∉ piece := by
  intro piece hm
  have hpiece : piece ∈ path.pieces := by
    rw [h, ← List.cons_append]
    exact List.mem_append_left _ hm
  exact slash_not_mem_of_mem_split hpiece

/-- A path with a file name moves through its directory and then to the name. -/
theorem moves_of_splitName? {path directory : Path} {name : Name}
    (h : path.splitName? = some (directory, name)) : path.moves = directory.moves ++ [name] := by
  obtain ⟨hname, below, hbelow, hpieces⟩ := pieces_of_splitName? h
  have hlast : (name :: below).filter (!idle ·) = [name] := by
    have hnone : below.filter (!idle ·) = [] := by simpa using hbelow
    rw [List.filter_cons_of_pos (by simp [idle_of_ordinary hname]), hnone]
  obtain ⟨hpieces, rfl⟩ | ⟨first, above, hpieces, rfl⟩ := hpieces
  · rw [moves, hpieces, hlast]
    rfl
  · rw [moves_trimmed (slash_not_mem_above hpieces), moves, hpieces, ← List.cons_append,
      List.filter_append, hlast]

theorem isAbsolute_of_splitName? {path directory : Path} {name : Name}
    (h : path.splitName? = some (directory, name)) : directory.isAbsolute = path.isAbsolute := by
  obtain ⟨hname, below, -, ⟨hpieces, rfl⟩ | ⟨first, above, hpieces, rfl⟩⟩ := pieces_of_splitName? h
  all_goals rw [Bool.eq_iff_iff]
  · rw [isAbsolute_iff, isAbsolute_iff, hpieces]
    constructor
    · rintro ⟨others, hne, e⟩
      exact absurd (List.cons.inj e).2.symm hne
    · rintro ⟨others, hne, e⟩
      -- The name would be empty, and so no file name.
      rw [(List.cons.inj e).1] at hname
      cases hname
  · have hkept := fun piece hm =>
      slash_not_mem_above hpieces piece (trimmed_subset first above hm)
    rw [isAbsolute_ofPieces hkept, isAbsolute_iff, hpieces]
    constructor
    · rintro rfl
      exact ⟨_, by simp, rfl⟩
    · rintro ⟨others, -, e⟩
      exact (List.cons.inj e).1

/-! ## The base of staging paths -/

/-- The directory of the staging files of a target, and what their names begin with. -/
def stagingBase (target : Path) : Path × Name :=
  target.splitName?.getD (target, ['i', 'm', 'a', 'g', 'e'])

theorem staging_eq (target : Path) (tag : Uuid) :
    target.staging tag = target.stagingBase.1.join (target.stagingBase.2 ++ stagingSuffix tag) := by
  unfold staging stagingBase
  cases target.splitName? <;> rfl

theorem slash_not_mem_stagingBase (target : Path) : '/' ∉ target.stagingBase.2 := by
  unfold stagingBase
  cases h : target.splitName? with
  | none => simp
  | some parts => exact slash_not_mem_of_fileName? (by rw [fileName?, h]; rfl)

theorem slash_not_mem_stagingName (target : Path) (tag : Uuid) :
    '/' ∉ target.stagingBase.2 ++ stagingSuffix tag := by
  rw [List.mem_append, not_or]
  exact ⟨slash_not_mem_stagingBase target, slash_not_mem_stagingSuffix tag⟩

theorem ordinary_stagingName (stem : Name) (tag : Uuid) :
    ordinary (stem ++ stagingSuffix tag) = true := by
  have hlong : 2 < (stem ++ stagingSuffix tag).length := by
    simp [stagingSuffix]
    omega
  have hne : ∀ short : Name, short.length ≤ 2 → stem ++ stagingSuffix tag ≠ short := by
    rintro _ hshort rfl
    omega
  have hempty := hne [] (by decide)
  have hdot := hne Name.dot (by decide)
  have hdotDot := hne Name.dotDot (by decide)
  simp [ordinary, idle, hempty, hdot, hdotDot]

/-- A target moves through the directory of its staging files and then, if it is a file's path, to the
name. -/
theorem exists_moves_stagingBase (target : Path) :
    ∃ last, (last = [] ∨ last = [target.stagingBase.2]) ∧
      target.moves = target.stagingBase.1.moves ++ last ∧
      target.stagingBase.1.isAbsolute = target.isAbsolute := by
  unfold stagingBase
  cases h : target.splitName? with
  | none => exact ⟨[], .inl rfl, (List.append_nil _).symm, rfl⟩
  | some parts =>
    exact ⟨[parts.2], .inr rfl, moves_of_splitName? h, isAbsolute_of_splitName? h⟩

/-! ## Names in a directory -/

theorem chars_join_ne_nil {name : Name} (h : name ≠ []) (directory : Path) :
    (directory.join name).chars ≠ [] := by
  unfold join
  split
  · exact h
  · split <;> simp [h]

theorem mem_chars_join {c : Char} (hc : c ≠ '/') (directory : Path) (name : Name) :
    c ∈ (directory.join name).chars ↔ c ∈ directory.chars ∨ c ∈ name := by
  unfold join
  split
  · rename_i hempty
    simp [hempty]
  · split <;> simp [hc]

theorem isAbsolute_join {name : Name} (h : '/' ∉ name) (directory : Path) :
    (directory.join name).isAbsolute = directory.isAbsolute := by
  have hname : name.head? ≠ some '/' := fun e => h (List.mem_of_head? e)
  unfold join isAbsolute
  split
  · rename_i hempty
    simp [hempty, hname]
  · rename_i hne
    obtain ⟨c, cs, hcs⟩ := List.exists_cons_of_ne_nil hne
    split <;> simp [hcs]

theorem endsInSlash_join {name : Name} (h : '/' ∉ name) (hne : name ≠ []) (directory : Path) :
    (directory.join name).endsInSlash = false := by
  have hlast : ∀ front : Name, (front ++ name).getLast? ≠ some '/' := by
    intro front hslash
    rw [List.getLast?_append, List.getLast?_eq_some_getLast hne, Option.some_or] at hslash
    exact h (Option.some.inj hslash ▸ List.getLast_mem hne)
  unfold join endsInSlash
  split
  · exact decide_eq_false (hlast [])
  · split
    · exact decide_eq_false (hlast directory.chars)
    · rw [← List.singleton_append, ← List.append_assoc]
      exact decide_eq_false (hlast (directory.chars ++ ['/']))

end Path

/-! ## Ways -/

namespace FileSystem

theorem foldlM_steps (fs : FileSystem) (path : Path) (start : Location) :
    path.steps.foldlM fs.descend start = path.moves.foldlM fs.descend start := by
  rw [← Path.filter_steps, foldlM_descend_filter]

/-- A name in a directory is found there. -/
theorem resolve_join {name : Name} (hslash : '/' ∉ name) (hordinary : Path.ordinary name = true)
    (fs : FileSystem) (directory : Path) :
    fs.resolve (directory.join name) =
      if '\x00' ∈ directory.chars ∨ '\x00' ∈ name then .error .nulInPath
      else if pathLimit ≤ Name.byteLength (directory.join name).chars then .error .nameTooLong
      else (directory.moves.foldlM fs.descend (fs.origin directory)).map fun place =>
        .entry place name false := by
  have hne := Path.ne_nil_of_ordinary hordinary
  have hdot := Path.ne_dot_of_ordinary hordinary
  have hdotDot := Path.ne_dotDot_of_ordinary hordinary
  have hway : fs.parentOf (directory.join name) =
      directory.moves.foldlM fs.descend (fs.origin directory) := by
    rw [parentOf, Path.steps_join hslash hne, List.dropLast_concat, foldlM_steps, origin, origin,
      Path.isAbsolute_join hslash]
  simp only [resolve_eq, Path.mem_chars_join (by decide : '\x00' ≠ '/'), Path.chars_join_ne_nil hne,
    Path.steps_join hslash hne, List.getLast?_concat, hway, Path.endsInSlash_join hslash hne,
    Destination.ofLast, hdot, hdotDot, if_false]

/-- One way leads to all staging paths of a target, or it leads to none of them. -/
theorem exists_way_staging (fs : FileSystem) (target : Path) :
    ∃ way : Except SystemError Location,
      (∀ tag, fs.resolve (target.staging tag) = way.map fun place =>
        .entry place (target.stagingBase.2 ++ Path.stagingSuffix tag) false) ∧
      ∀ place, way = .ok place → target.stagingBase.1.moves.foldlM fs.descend
        (fs.origin target.stagingBase.1) = .ok place := by
  -- The text is as long with one tag as with any other.
  have hlength := fun tag => Path.byteLength_staging target tag (.ofRandom 0)
  generalize Name.byteLength (target.staging (.ofRandom 0)).chars = length at hlength
  refine ⟨if '\x00' ∈ target.stagingBase.1.chars ∨ '\x00' ∈ target.stagingBase.2 then .error .nulInPath
    else if pathLimit ≤ length then .error .nameTooLong
    else target.stagingBase.1.moves.foldlM fs.descend (fs.origin target.stagingBase.1), ?_, ?_⟩
  · intro tag
    rw [Path.staging_eq, resolve_join (target.slash_not_mem_stagingName tag)
      (Path.ordinary_stagingName _ tag), ← Path.staging_eq, hlength]
    simp only [List.mem_append, Path.nul_not_mem_stagingSuffix tag, or_false]
    split
    · rfl
    · split <;> rfl
  · intro place hway
    split at hway
    · cases hway
    · split at hway
      · cases hway
      · exact hway

/-- Where directories stay, a way that ends before a step that stays, or with it, stays. -/
theorem KeepsDirectories.foldlM_congr {before now : FileSystem} (h : KeepsDirectories before now)
    {pieces ways : List Name} {start place : Location} {name : Name}
    (hwalk : pieces.foldlM before.descend start = .ok place)
    (hstep : now.descend place name = before.descend place name)
    (hways : ways <+: pieces ++ [name]) :
    ways.foldlM now.descend start = ways.foldlM before.descend start := by
  rcases List.prefix_concat_iff.1 hways with rfl | ⟨rest, rfl⟩
  · rw [List.foldlM_append, List.foldlM_append, hwalk, h.foldlM_descend hwalk]
    simp only [bind, Except.bind, List.foldlM_cons, hstep]
    rfl
  · rw [List.foldlM_append] at hwalk
    cases hmiddle : ways.foldlM before.descend start with
    | error cause =>
      rw [hmiddle] at hwalk
      cases hwalk
    | ok middle => exact h.foldlM_descend hmiddle

/-- The path of a target goes no further than to the name in the directory of its staging files. -/
theorem KeepsDirectories.resolve_target {before now : FileSystem} (h : KeepsDirectories before now)
    {target : Path} {place : Location}
    (hwalk : target.stagingBase.1.moves.foldlM before.descend (before.origin target.stagingBase.1) =
      .ok place)
    (hstep : now.descend place target.stagingBase.2 = before.descend place target.stagingBase.2) :
    now.resolve target = before.resolve target := by
  obtain ⟨last, hlast, hmoves, habsolute⟩ := target.exists_moves_stagingBase
  have horigin : now.origin target = before.origin target := by
    rw [origin, origin, h.home]
  have hbase : before.origin target.stagingBase.1 = before.origin target := by
    rw [origin, origin, habsolute]
  have hways : target.steps.dropLast.filter (· ≠ Name.dot) <+:
      target.stagingBase.1.moves ++ [target.stagingBase.2] := by
    have hprefix := (List.dropLast_prefix target.steps).filter (· ≠ Name.dot)
    rw [Path.filter_steps, hmoves] at hprefix
    refine hprefix.trans ?_
    rcases hlast with rfl | rfl
    · rw [List.append_nil]
      exact List.prefix_append _ _
    · exact List.prefix_refl _
  have hparent : now.parentOf target = before.parentOf target := by
    rw [parentOf, parentOf, horigin, ← foldlM_descend_filter now, ← foldlM_descend_filter before]
    exact h.foldlM_congr (hbase ▸ hwalk) hstep hways
  rw [resolve_eq, resolve_eq, horigin, hparent]

end FileSystem

end BootImage
