import BootImage.Proofs.FileSystem.Locate
/-!
# A staging file lies beside its target

`Path.staging` puts another name behind the directory of a path, which it finds in the text. It leaves
out single dots and repeated slashes on the way, and these take no step. So where the target's path
leads to a name in a directory, the staging path leads to its name in the same directory
(`FileSystem.locate?_staging`).
-/

namespace BootImage

namespace Path

/-! ## Text and pieces -/

theorem split_intercalate {pieces : List Name} (h : ∀ piece ∈ pieces, '/' ∉ piece)
    (hne : pieces ≠ []) : split (['/'].intercalate pieces) = pieces := by
  induction pieces with
  | nil => exact absurd rfl hne
  | cons piece rest ih =>
    have hpiece : split piece = [piece] := split_eq_singleton (h piece List.mem_cons_self)
    cases rest with
    | nil => simpa [List.intercalate] using hpiece
    | cons next rest =>
      have hrest := ih (fun p hp => h p (List.mem_cons_of_mem _ hp)) (List.cons_ne_nil next rest)
      rw [List.intercalate_cons_cons, List.append_assoc, List.singleton_append,
        split_append_slash, hpiece, hrest]
      rfl

/-- Apart from the slashes, the characters of a path are those of its pieces. -/
theorem mem_chars_iff {path : Path} {c : Char} (hc : c ≠ '/') :
    c ∈ path.chars ↔ ∃ piece ∈ path.pieces, c ∈ piece := by
  obtain ⟨cs⟩ := path
  unfold pieces
  induction cs with
  | nil => simp [split]
  | cons d cs ih =>
    by_cases hd : d = '/'
    · simp_all [split]
    · obtain ⟨piece, rest, hs⟩ := List.exists_cons_of_ne_nil (split_ne_nil cs)
      simp_all [split, or_assoc]

theorem isAbsolute_iff {path : Path} :
    path.isAbsolute = true ↔ ∃ rest, rest ≠ [] ∧ path.pieces = [] :: rest := by
  obtain ⟨cs⟩ := path
  unfold isAbsolute pieces
  cases cs with
  | nil => simp [split]
  | cons c cs =>
    by_cases hc : c = '/'
    · simp [split, hc, split_ne_nil]
    · obtain ⟨piece, rest, hs⟩ := List.exists_cons_of_ne_nil (split_ne_nil cs)
      simp [split, hc, hs]

theorem getLast?_pieces_of_endsInSlash {path : Path} (h : path.endsInSlash = true) :
    path.pieces.getLast? = some [] := by
  simp only [endsInSlash, decide_eq_true_eq] at h
  obtain ⟨cs, hcs⟩ := List.getLast?_eq_some_iff.1 h
  rw [pieces, hcs, split_append_slash, split, List.getLast?_concat]

/-! A path whose last piece that is not empty is `last` has the pieces `above` before it. -/

section

variable {path : Path} {last : Name} {above below : List Name}

theorem steps_eq (hp : path.pieces.reverse = below ++ last :: above)
    (hb : ∀ piece ∈ below, piece = []) (hne : last ≠ []) :
    path.steps = (above.filter (· ≠ [])).reverse ++ [last] := by
  have hbelow : below.filter (· ≠ []) = [] := by simpa using hb
  rw [steps, ← List.reverse_reverse path.pieces, hp, List.filter_reverse, List.filter_append,
    hbelow, List.filter_cons_of_pos (by simpa using hne), List.nil_append, List.reverse_cons]

theorem isAbsolute_iff_getLast? (hp : path.pieces.reverse = below ++ last :: above)
    (hne : last ≠ []) : path.isAbsolute = true ↔ above.getLast? = some [] := by
  have hpieces : path.pieces = above.reverse ++ last :: below.reverse := by
    simpa using congrArg List.reverse hp
  rw [isAbsolute_iff, hpieces]
  rcases List.eq_nil_or_concat above with rfl | ⟨above, first, rfl⟩
  · simp [hne]
  · simp

end

/-- A name behind the text of pieces of which the last is not empty, unless it is the root. -/
theorem pieces_join_ofPieces {pieces : List Name} {name : Name} (h : ∀ piece ∈ pieces, '/' ∉ piece)
    (hne : pieces ≠ []) (hlast : pieces = [[]] ∨ pieces.getLast? ≠ some []) (hname : '/' ∉ name) :
    ((ofPieces pieces).join name).pieces = pieces ++ [name] := by
  by_cases hroot : pieces = [[]]
  · simp [hroot, ofPieces, join, Path.pieces, split, split_eq_singleton hname]
  · have hlast := hlast.resolve_left hroot
    have hpieces : (⟨['/'].intercalate pieces⟩ : Path).pieces = pieces := split_intercalate h hne
    have htext : ['/'].intercalate pieces ≠ [] := by
      intro hempty
      rw [hempty] at hpieces
      exact hroot hpieces.symm
    have hend : (['/'].intercalate pieces).getLast? ≠ some '/' := by
      intro hslash
      have hempty := @getLast?_pieces_of_endsInSlash ⟨['/'].intercalate pieces⟩
        (by simp [endsInSlash, hslash])
      rw [hpieces] at hempty
      exact hlast hempty
    simp only [ofPieces, hroot, if_false, join, htext, hend]
    rw [Path.pieces, split_append_slash, split_intercalate h hne, split_eq_singleton hname]

/-! ## The pieces of a staging path -/

theorem filter_dropWhile (pieces : List Name) :
    (pieces.dropWhile idle).filter (!idle ·) = pieces.filter (!idle ·) := by
  induction pieces with
  | nil => rfl
  | cons piece pieces ih =>
    by_cases hidle : idle piece
    · rw [List.dropWhile_cons_of_pos hidle, ih, List.filter_cons_of_neg (by simp [hidle])]
    · rw [List.dropWhile_cons_of_neg hidle]

/-- The pieces that take a step. -/
theorem filter_moves (pieces : List Name) :
    (pieces.filter (· ≠ [])).reverse.filter (· ≠ Name.dot) =
      (pieces.filter (!idle ·)).reverse := by
  rw [List.filter_reverse, List.filter_filter]
  congr 1
  apply List.filter_congr
  intro piece _
  simp [idle, Bool.and_comm]

/-- A name in the directory of a path: what was idle before the file name is gone. -/
theorem pieces_join_trimmed {first name : Name} {above : List Name}
    (h : ∀ piece ∈ first :: (above.dropWhile idle).reverse, '/' ∉ piece) (hname : '/' ∉ name) :
    ((ofPieces (first :: (above.dropWhile idle).reverse)).join name).pieces.reverse =
      name :: (above.dropWhile idle ++ [first]) := by
  have hend : first :: (above.dropWhile idle).reverse = [[]] ∨
      (first :: (above.dropWhile idle).reverse).getLast? ≠ some [] := by
    cases hd : above.dropWhile idle with
    | nil => by_cases hroot : first = [] <;> simp [hroot]
    | cons piece rest =>
      -- The last piece that was kept takes a step, so it is not empty.
      have hidle : idle piece = false := by
        simpa [hd] using List.head?_dropWhile_not idle above
      refine .inr ?_
      rw [List.reverse_cons, ← List.cons_append, List.getLast?_concat, ne_eq, Option.some.injEq]
      rintro rfl
      cases hidle
  rw [pieces_join_ofPieces h (List.cons_ne_nil _ _) hend hname]
  simp

theorem nul_not_mem_stagingSuffix (tag : Uuid) : '\x00' ∉ stagingSuffix tag := by
  have hdigits : '\x00' ∉ tag.digits := fun h => absurd (tag.hex_digits _ h) (by decide)
  simp [stagingSuffix, hdigits]

/-- The pieces of a staging path: the target's before the file name, except that pieces that take no
step may be missing, and then the new name. -/
theorem pieces_staging {target : Path} {tag : Uuid} {last : Name} {above below : List Name}
    (hp : target.pieces.reverse = below ++ last :: above) (hb : ∀ piece ∈ below, piece = [])
    (hlast : ordinary last = true) :
    ∃ kept, (target.staging tag).pieces.reverse = [] ++ (last ++ stagingSuffix tag) :: kept ∧
      kept.filter (!idle ·) = above.filter (!idle ·) ∧ kept.getLast? = above.getLast? ∧
      kept ⊆ above := by
  have hslash : ∀ piece ∈ target.pieces, '/' ∉ piece :=
    fun piece hm => slash_not_mem_of_mem_split hm
  have hmem : ∀ piece ∈ last :: above, piece ∈ target.pieces := by
    intro piece hm
    rw [← List.mem_reverse, hp]
    exact List.mem_append_right below hm
  have hname : '/' ∉ last ++ stagingSuffix tag := by
    simp [hslash last (hmem last List.mem_cons_self), slash_not_mem_stagingSuffix]
  rcases List.eq_nil_or_concat above with rfl | ⟨above, first, rfl⟩
  · refine ⟨[], ?_, rfl, rfl, List.Subset.refl []⟩
    rw [staging, splitName?_of_lone hp hb hlast]
    exact congrArg List.reverse (split_eq_singleton hname)
  · rw [List.concat_eq_append] at hp hmem ⊢
    have hsub : above.dropWhile idle ++ [first] ⊆ above ++ [first] :=
      List.append_subset.2 ⟨fun piece hm => List.mem_append_left _ (List.dropWhile_subset _ hm),
        List.subset_append_right _ _⟩
    refine ⟨above.dropWhile idle ++ [first], ?_, ?_, ?_, hsub⟩
    · have hpieces : ∀ piece ∈ first :: (above.dropWhile idle).reverse, '/' ∉ piece := by
        intro piece hm
        apply hslash piece (hmem piece (List.mem_cons_of_mem _ (hsub _)))
        simpa [or_comm] using hm
      rw [staging, splitName?_of_below hp hb hlast]
      exact pieces_join_trimmed hpieces hname
    · rw [List.filter_append, List.filter_append, filter_dropWhile]
    · rw [List.getLast?_concat, List.getLast?_concat]

end Path

namespace FileSystem

theorem descend_dot (fs : FileSystem) (directory : Location) :
    fs.descend directory Name.dot = .ok directory :=
  if_pos rfl

/-- Single dots take no step. -/
theorem foldlM_descend_filter (fs : FileSystem) (pieces : List Name) (start : Location) :
    (pieces.filter (· ≠ Name.dot)).foldlM fs.descend start = pieces.foldlM fs.descend start := by
  induction pieces generalizing start with
  | nil => rfl
  | cons piece pieces ih =>
    by_cases hdot : piece = Name.dot
    · rw [List.filter_cons_of_neg (by simp [hdot]), ih, List.foldlM_cons, hdot, descend_dot]
      rfl
    · rw [List.filter_cons_of_pos (by simp [hdot]), List.foldlM_cons, List.foldlM_cons]
      exact bind_congr fun next => ih next

/-- The staging path of a target leads to the directory where the target is, if it is not too long
for it. -/
theorem locate?_staging {fs : FileSystem} {target : Path} {tag : Uuid} {name : Name}
    {directory : Location} (h : fs.locate? target = some (name :: directory))
    (hname : (name ++ Path.stagingSuffix tag).byteLength ≤ nameLimit)
    (hpath : Name.byteLength (target.staging tag).chars < pathLimit) :
    fs.locate? (target.staging tag) = some ((name ++ Path.stagingSuffix tag) :: directory) := by
  obtain ⟨directory', name', hr, -, e⟩ := locate?_eq_some_iff.1 h
  obtain ⟨rfl, rfl⟩ := List.cons.inj e
  obtain ⟨hnul, -, hlast, hdot, hdotDot, hparent, -⟩ := resolve_eq_entry_iff.1 hr
  obtain ⟨above, below, hp, hb⟩ := Path.pieces_of_getLast?_steps hlast
  obtain ⟨kept, hpieces, hmoves, hfirst, hsub⟩ :=
    @Path.pieces_staging target tag name above below hp hb
      (Path.ordinary_of_getLast?_steps hlast hdot hdotDot)
  have hne : name ≠ [] := by
    have := List.mem_of_getLast? hlast
    simpa [Path.steps] using (List.mem_filter.1 this).2
  have hne' : name ++ Path.stagingSuffix tag ≠ [] := List.append_ne_nil_of_left_ne_nil hne _
  have hlong : 2 < (name ++ Path.stagingSuffix tag).length := by
    simp [Path.stagingSuffix]
    omega
  have hsteps := Path.steps_eq hpieces (by simp) hne'
  have hnoNul : '\x00' ∉ (target.staging tag).chars := by
    rw [Path.mem_chars_iff (by decide)]
    rintro ⟨piece, hm, hc⟩
    rw [← List.mem_reverse, hpieces, List.nil_append, List.mem_cons] at hm
    have hold : ∀ old ∈ name :: above, '\x00' ∉ old := by
      intro old hm hc
      refine hnul ((Path.mem_chars_iff (by decide)).2 ⟨old, ?_, hc⟩)
      rw [← List.mem_reverse, hp]
      exact List.mem_append_right below hm
    rcases hm with rfl | hm
    · rcases List.mem_append.1 hc with hc | hc
      · exact hold name List.mem_cons_self hc
      · exact Path.nul_not_mem_stagingSuffix tag hc
    · exact hold piece (List.mem_cons_of_mem _ (hsub hm)) hc
  have hnoSlash : (target.staging tag).endsInSlash = false := by
    by_contra hslash
    rw [Bool.not_eq_false] at hslash
    have hempty := Path.getLast?_pieces_of_endsInSlash hslash
    rw [List.getLast?_eq_head?_reverse, hpieces, List.nil_append, List.head?_cons,
      Option.some.injEq] at hempty
    exact hne' hempty
  have horigin : fs.origin (target.staging tag) = fs.origin target := by
    have habsolute : (target.staging tag).isAbsolute = target.isAbsolute := by
      rw [Bool.eq_iff_iff, Path.isAbsolute_iff_getLast? hpieces hne',
        Path.isAbsolute_iff_getLast? hp hne, hfirst]
    rw [origin, origin, habsolute]
  have hway : fs.parentOf (target.staging tag) = .ok directory := by
    rw [← hparent, parentOf, parentOf, horigin, hsteps, Path.steps_eq hp hb hne,
      List.dropLast_concat, List.dropLast_concat, ← foldlM_descend_filter, Path.filter_moves,
      hmoves, ← Path.filter_moves, foldlM_descend_filter]
  refine locate?_eq_some_iff.2 ⟨directory, _, resolve_eq_entry_iff.2 ⟨hnoNul, hpath, ?_, ?_, ?_, hway,
    hnoSlash.symm⟩, Nat.not_lt.2 hname, rfl⟩
  · rw [hsteps, List.getLast?_concat]
  · intro hdot
    rw [hdot] at hlong
    exact absurd hlong (by decide)
  · intro hdotDot
    rw [hdotDot] at hlong
    exact absurd hlong (by decide)

end FileSystem

end BootImage
