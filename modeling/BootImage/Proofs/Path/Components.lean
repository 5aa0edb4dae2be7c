import BootImage.Proofs.Path.Ordinary
import Mathlib.Data.List.DropRight
/-!
# Components of a path

Two texts are the same path if they have the same components: slashes in a row count once, and none counts
at the end, and a single dot counts only where the path starts. The file name of a path is its last
component, if that is a name, and its directory has the components before it. In these terms a staging path
is its target with another name in the place of the last one, or with one name more
(`Path.staging_beside`).
-/

namespace BootImage

namespace Path

/-- A part of a path that counts. -/
inductive Component
  /-- The slash that an absolute path starts with. -/
  | root
  /-- The dot that a relative path starts with. -/
  | here
  /-- Two dots. -/
  | up
  | name (name : Name)
deriving DecidableEq, Repr

/-- The component that a piece is, if it is not idle. -/
def Component.ofMove (move : Name) : Component :=
  if move = Name.dotDot then .up else .name move

/-- What tells where a path starts. -/
def lead (path : Path) : List Component :=
  if path.isAbsolute then [.root]
  else if path.pieces.head? = some Name.dot then [.here]
  else []

/-- All parts of a path that count. -/
def components (path : Path) : List Component :=
  path.lead ++ path.moves.map Component.ofMove

/-- The path is empty, the root, or the dot that a path starts with, or it ends by going up. -/
def Nameless (path : Path) : Prop :=
  path.components = [] ∨ path.components = [.root] ∨ path.components = [.here] ∨
    path.components.getLast? = some .up

variable {path directory : Path} {name other : Name}

/-! ## The file name -/

theorem ofMove_of_ordinary (h : ordinary name = true) : Component.ofMove name = .name name :=
  if_neg (ne_dotDot_of_ordinary h)

theorem lead_cases (path : Path) : path.lead = [] ∨ path.lead = [.root] ∨ path.lead = [.here] := by
  unfold lead
  split
  · exact .inr (.inl rfl)
  · split
    · exact .inr (.inr rfl)
    · exact .inl rfl

theorem eq_dotDot_of_not_ordinary (hidle : idle name = false) (h : ¬ ordinary name = true) :
    name = Name.dotDot := by
  simpa [ordinary, hidle] using h

/-- A path without a file name goes nowhere, or up in the end. -/
theorem moves_of_splitName?_eq_none (h : path.splitName? = none) :
    path.moves = [] ∨ path.moves.getLast? = some Name.dotDot := by
  unfold splitName? at h
  split at h
  · rename_i hpieces
    exact absurd hpieces (split_ne_nil path.chars)
  · rename_i first rest hpieces
    have hrest : rest.filter (!idle ·) = ((rest.reverse.dropWhile idle).filter (!idle ·)).reverse := by
      rw [filter_dropWhile, List.filter_reverse, List.reverse_reverse]
    rw [moves, hpieces, ← List.singleton_append, List.filter_append]
    split at h
    · rename_i last above hdrop
      split at h
      · cases h
      · rename_i hlast
        have hidle : idle last = false := by
          simpa [hdrop] using List.head?_dropWhile_not idle rest.reverse
        have hends : rest.filter (!idle ·) = (above.filter (!idle ·)).reverse ++ [last] := by
          rw [hrest, hdrop, List.filter_cons_of_pos (by simp [hidle]), List.reverse_cons]
        rw [hends, ← List.append_assoc, List.getLast?_concat, eq_dotDot_of_not_ordinary hidle hlast]
        exact .inr rfl
    · rename_i hdrop
      split at h
      · cases h
      · rename_i hfirst
        have hnone : rest.filter (!idle ·) = [] := by
          rw [hrest, hdrop]
          rfl
        rw [hnone, List.append_nil]
        cases hidle : idle first with
        | true => exact .inl (List.filter_cons_of_neg (by simp [hidle]))
        | false =>
          rw [eq_dotDot_of_not_ordinary hidle hfirst]
          exact .inr rfl

/-- Where the directory of a path starts, so does the path. -/
theorem lead_of_splitName? (h : path.splitName? = some (directory, name)) :
    directory.lead = path.lead := by
  have habsolute := isAbsolute_of_splitName? h
  obtain ⟨hname, below, -, ⟨hpieces, rfl⟩ | ⟨first, above, hpieces, rfl⟩⟩ := pieces_of_splitName? h
  · have hempty : ¬ (⟨[]⟩ : Path).pieces.head? = some Name.dot := by decide
    have hfirst : ¬ (name :: below).head? = some Name.dot := by
      simpa using ne_dot_of_ordinary hname
    rw [lead, lead, habsolute, hpieces, if_neg hempty, if_neg hfirst]
  · have hkept := fun piece hm =>
      slash_not_mem_above hpieces piece (trimmed_subset first above hm)
    have hfirst : (ofPieces (first :: (above.dropWhile idle).reverse)).pieces.head? = some first := by
      unfold ofPieces
      split
      · rename_i hroot
        rw [(List.cons.inj hroot).1]
        rfl
      · rw [Path.pieces, split_intercalate hkept (List.cons_ne_nil _ _), List.head?_cons]
    rw [lead, lead, habsolute, hfirst, hpieces, List.head?_cons]

/-- The components of a path are those of its directory and the file name. -/
theorem components_of_splitName? (h : path.splitName? = some (directory, name)) :
    path.components = directory.components ++ [.name name] := by
  have hname : ordinary name = true := (pieces_of_splitName? h).1
  rw [components, components, lead_of_splitName? h, moves_of_splitName? h, List.map_append,
    List.map_singleton, ofMove_of_ordinary hname, List.append_assoc]

theorem nameless_of_splitName?_eq_none (h : path.splitName? = none) : path.Nameless := by
  unfold Nameless components
  rcases moves_of_splitName?_eq_none h with hmoves | hmoves
  · rw [hmoves, List.map_nil, List.append_nil]
    rcases path.lead_cases with hlead | hlead | hlead <;> simp [hlead]
  · have hup : Component.ofMove Name.dotDot = .up := if_pos rfl
    simp [List.getLast?_append, List.getLast?_map, hmoves, hup]

/-- The file name is the last component, if that is a name. -/
theorem fileName?_eq_some_iff :
    path.fileName? = some name ↔ path.components.getLast? = some (.name name) := by
  rw [fileName?]
  cases h : path.splitName? with
  | none =>
    rcases nameless_of_splitName?_eq_none h with hnone | hnone | hnone | hnone <;> simp [hnone]
  | some parts => simp [components_of_splitName? h]

theorem fileName?_eq_none_iff : path.fileName? = none ↔ path.Nameless := by
  rw [fileName?]
  cases h : path.splitName? with
  | none => simp [nameless_of_splitName?_eq_none h]
  | some parts => simp [Nameless, components_of_splitName? h, List.append_eq_cons_iff]

/-! ## A name in a directory -/

theorem moves_join (hslash : '/' ∉ name) (h : ordinary name = true) (directory : Path) :
    (directory.join name).moves = directory.moves ++ [name] := by
  rw [← filter_steps, ← filter_steps, steps_join hslash (ne_nil_of_ordinary h), List.filter_append,
    List.filter_cons_of_pos (by simp [ne_dot_of_ordinary h]), List.filter_nil]

/-- A name in a directory starts where the directory does. -/
theorem lead_join (hslash : '/' ∉ name) (h : ordinary name = true) (directory : Path) :
    (directory.join name).lead = directory.lead := by
  have hdot := ne_dot_of_ordinary h
  have hhead : (directory.join name).pieces.head? = some Name.dot ↔
      directory.pieces.head? = some Name.dot := by
    unfold join pieces
    split
    · rename_i hempty
      simpa [hempty, split_eq_singleton hslash, split, Name.dot] using hdot
    · split
      · rename_i hend
        obtain ⟨cs, hcs⟩ := List.getLast?_eq_some_iff.1 hend
        simp [hcs, split_append_slash, split_ne_nil]
      · simp [split_append_slash, split_ne_nil]
  simp only [lead, isAbsolute_join hslash, hhead]

theorem components_join (hslash : '/' ∉ name) (h : ordinary name = true) (directory : Path) :
    (directory.join name).components = directory.components ++ [.name name] := by
  rw [components, components, lead_join hslash h, moves_join hslash h, List.map_append,
    List.map_singleton, ofMove_of_ordinary h, List.append_assoc]

/-- Behind the directory of a path any name is found again, and the same directory before it. -/
theorem splitName?_join (hsplit : path.splitName? = some (directory, name)) (hslash : '/' ∉ other)
    (h : ordinary other = true) : (directory.join other).splitName? = some (directory, other) := by
  obtain ⟨-, below, -, ⟨hpieces, rfl⟩ | ⟨first, above, hpieces, rfl⟩⟩ := pieces_of_splitName? hsplit
  · have hjoin : ((⟨[]⟩ : Path).join other).pieces.reverse = [] ++ [other] := by
      rw [join, if_pos rfl, pieces, split_eq_singleton hslash]
      rfl
    exact splitName?_of_lone hjoin (List.forall_mem_nil _) h
  · have hkept := fun piece hm =>
      slash_not_mem_above hpieces piece (trimmed_subset first above hm)
    have hjoin : ((ofPieces (first :: (above.dropWhile idle).reverse)).join other).pieces.reverse =
        [] ++ other :: (above.dropWhile idle ++ [first]) := pieces_join_trimmed hkept hslash
    rw [splitName?_of_below hjoin (List.forall_mem_nil _) h, List.dropWhile_idempotent]

/-! ## Staging paths -/

theorem components_staging (target : Path) (tag : Uuid) :
    (target.staging tag).components =
      target.stagingBase.1.components ++ [.name (target.stagingBase.2 ++ stagingSuffix tag)] := by
  rw [staging_eq, components_join (target.slash_not_mem_stagingName tag) (ordinary_stagingName _ tag)]

theorem fileName?_staging (target : Path) (tag : Uuid) :
    (target.staging tag).fileName? = some (target.stagingBase.2 ++ stagingSuffix tag) := by
  rw [fileName?_eq_some_iff, components_staging, List.getLast?_concat]

theorem stagingBase_of_splitName? (h : path.splitName? = some (directory, name)) :
    path.stagingBase = (directory, name) := by
  rw [stagingBase, h, Option.getD_some]

theorem stagingBase_of_splitName?_eq_none (h : path.splitName? = none) :
    path.stagingBase = (path, "image".toList) := by
  rw [stagingBase, h, Option.getD_none]
  rfl

theorem parent?_staging (h : path.splitName? = some (directory, name)) (tag : Uuid) :
    (path.staging tag).parent? = some directory := by
  have hslash := path.slash_not_mem_stagingName tag
  rw [parent?, staging_eq]
  rw [stagingBase_of_splitName? h] at hslash ⊢
  rw [splitName?_join h hslash (ordinary_stagingName name tag), Option.map_some]

/-- The staging path is another path than its target, however both are written. -/
theorem components_staging_ne (target : Path) (tag : Uuid) :
    (target.staging tag).components ≠ target.components := by
  rw [components_staging]
  cases h : target.splitName? with
  | none => simp [stagingBase_of_splitName?_eq_none h]
  | some parts =>
    -- The last names differ in length.
    simp [stagingBase_of_splitName? h, components_of_splitName? h, stagingSuffix]

/-- Its tag is read off the staging path. -/
theorem tag_eq_of_components_staging {target : Path} {tag other : Uuid}
    (h : (target.staging other).components = (target.staging tag).components) : other = tag := by
  rw [components_staging, components_staging, List.append_cancel_left_eq, List.cons.injEq,
    Component.name.injEq] at h
  exact tag_eq_of_append_stagingSuffix h.1

/-- If the last component of a target is a name, it is the file name, and the staging path has the same
directory and that name with the suffix of the tag behind it. Otherwise the target is empty, the root, a dot,
or ends by going up, and the staging path is the target with a name of its own behind it. In either case the
two are different paths, the staging path ends in the suffix of the tag, and other tags give other paths. -/
theorem staging_beside (target : Path) (tag : Uuid) :
    (∀ name, target.fileName? = some name ↔ target.components.getLast? = some (.name name)) ∧
      (target.fileName? = none ↔ target.Nameless) ∧
      (∀ name, target.fileName? = some name → ∃ directory,
        target.parent? = some directory ∧ (target.staging tag).parent? = some directory ∧
        (target.staging tag).fileName? = some (name ++ stagingSuffix tag) ∧
        target.components = directory.components ++ [.name name] ∧
        (target.staging tag).components = directory.components ++ [.name (name ++ stagingSuffix tag)]) ∧
      (target.fileName? = none →
        target.staging tag = target.join ("image".toList ++ stagingSuffix tag) ∧
        (target.staging tag).components =
          target.components ++ [.name ("image".toList ++ stagingSuffix tag)]) ∧
      (target.staging tag).components ≠ target.components ∧
      (∃ stem, (target.staging tag).fileName? = some (stem ++ stagingSuffix tag)) ∧
      ∀ other, other ≠ tag → (target.staging other).components ≠ (target.staging tag).components := by
  refine ⟨fun name => fileName?_eq_some_iff, fileName?_eq_none_iff, ?_, ?_,
    components_staging_ne target tag, ⟨_, fileName?_staging target tag⟩,
    fun other => mt tag_eq_of_components_staging⟩
  · intro name hname
    obtain ⟨⟨directory, last⟩, hsplit, rfl⟩ := Option.map_eq_some_iff.1 hname
    have hbase := stagingBase_of_splitName? hsplit
    refine ⟨directory, by rw [parent?, hsplit]; rfl, parent?_staging hsplit tag, ?_,
      components_of_splitName? hsplit, ?_⟩
    · rw [fileName?_staging, hbase]
    · rw [components_staging, hbase]
  · intro hnone
    have hbase := stagingBase_of_splitName?_eq_none (Option.map_eq_none_iff.1 hnone)
    exact ⟨by rw [staging_eq, hbase], by rw [components_staging, hbase]⟩

/-- A file name behind dots and slashes of all kinds, with more of them behind it; and a path that ends by
going up. -/
theorem staging_beside_odd_spellings :
    (∃ directory, (ofString ".//a/.././b.c/./").parent? = some directory ∧
      ((ofString ".//a/.././b.c/./").staging (.ofRandom 0)).parent? = some directory ∧
      ((ofString ".//a/.././b.c/./").staging (.ofRandom 0)).fileName? =
        some ("b.c".toList ++ stagingSuffix (.ofRandom 0))) ∧
      (ofString ".//a/.././b.c/./").components = [.here, .name ['a'], .up, .name "b.c".toList] ∧
      (ofString "/b/..").staging (.ofRandom 0) =
        (ofString "/b/..").join ("image".toList ++ stagingSuffix (.ofRandom 0)) ∧
      ((ofString "/b/..").staging (.ofRandom 1)).components ≠
        ((ofString "/b/..").staging (.ofRandom 0)).components := by
  obtain ⟨-, -, hnamed, -, -, -, -⟩ := staging_beside (ofString ".//a/.././b.c/./") (.ofRandom 0)
  obtain ⟨-, -, -, hnameless, -, -, hother⟩ := staging_beside (ofString "/b/..") (.ofRandom 0)
  obtain ⟨directory, hparent, hbeside, hname, -, -⟩ := hnamed "b.c".toList (by decide)
  exact ⟨⟨directory, hparent, hbeside, hname⟩, by decide, (hnameless (by decide)).1,
    hother (.ofRandom 1) (by decide)⟩

end Path

end BootImage
