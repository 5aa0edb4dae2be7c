import BootImage.Proofs.Path.StagingBase
/-!
# Relative paths of ordinary names

A path of names only, without empty pieces and dots, is followed name by name from the home directory
(`Path.Ordinary.resolve_eq`). Its staging path is its own text with the tag's suffix behind it, and so a
path of the same kind (`Path.Ordinary.staging_eq`): both pass through the same directories and differ in
the last name.
-/

namespace BootImage

namespace Path

/-! ## Text from pieces -/

theorem intercalate_split (cs : List Char) : ['/'].intercalate (split cs) = cs := by
  induction cs with
  | nil => rfl
  | cons c cs ih =>
    obtain ⟨piece, rest, hs⟩ := List.exists_cons_of_ne_nil (split_ne_nil cs)
    by_cases hc : c = '/'
    · rw [split, if_pos hc, hs, List.intercalate_cons_cons, ← hs, ih, hc]
      rfl
    · simp only [split, hc, if_false, hs]
      rw [hs] at ih
      rw [← ih]
      cases rest <;> simp [List.intercalate]

/-- A path is told by its pieces. -/
theorem split_injective : Function.Injective split := by
  intro cs ds h
  rw [← intercalate_split cs, h, intercalate_split]

/-- What has no slash lengthens the last piece of the text it stands behind. -/
theorem split_append {cs more : List Char} {front : List Name} {last : Name} (hmore : '/' ∉ more)
    (hs : split cs = front ++ [last]) : split (cs ++ more) = front ++ [last ++ more] := by
  have hslash : ∀ piece ∈ front ++ [last], '/' ∉ piece := fun piece hm =>
    slash_not_mem_of_mem_split (hs ▸ hm)
  have hlast : '/' ∉ last := hslash last (by simp)
  have hlonger : split (last ++ more) = [last ++ more] :=
    split_eq_singleton (by simp [hlast, hmore])
  by_cases hfront : front = []
  · have hcs : cs = last := split_injective (by rw [hs, hfront, split_eq_singleton hlast]; rfl)
    rw [hcs, hlonger, hfront]
    rfl
  · have htext : split (['/'].intercalate front) = front :=
      split_intercalate (fun piece hm => hslash piece (List.mem_append_left _ hm)) hfront
    have hcs : cs = ['/'].intercalate front ++ '/' :: last :=
      split_injective (by rw [hs, split_append_slash, htext, split_eq_singleton hlast])
    rw [hcs, List.append_assoc, List.cons_append, split_append_slash, htext, hlonger]

/-- The last piece, and those before it. -/
theorem exists_pieces (path : Path) : ∃ front last, path.pieces = front ++ [last] := by
  rcases List.eq_nil_or_concat path.pieces with hnil | ⟨front, last, hpieces⟩
  · exact absurd hnil (split_ne_nil path.chars)
  · exact ⟨front, last, by rw [hpieces, List.concat_eq_append]⟩

/-- Behind each piece but the last stands a slash. -/
theorem byteLength_eq {path : Path} {front : List Name} {last : Name}
    (hpieces : path.pieces = front ++ [last]) :
    Name.byteLength path.chars =
      front.foldr (fun name length => name.byteLength + 1 + length) last.byteLength := by
  have htext : path.chars = ['/'].intercalate (front ++ [last]) := by
    rw [← hpieces]
    exact (intercalate_split path.chars).symm
  rw [htext]
  clear htext hpieces
  have hslash : Name.byteLength ['/'] = 1 := by decide
  induction front with
  | nil => simp
  | cons name front ih =>
    have hne : front ++ [last] ≠ [] := by simp
    rw [List.cons_append, List.intercalate_cons_of_ne_nil hne, Name.byteLength_append,
      Name.byteLength_append, ih, hslash, List.foldr_cons]

/-! ## Ordinary paths -/

/-- No piece is empty, a dot or two dots, so the path is relative and has no slash at its end; and it
has no character that no name can have. -/
structure Ordinary (path : Path) : Prop where
  pieces : ∀ piece ∈ path.pieces, ordinary piece = true
  noNul : '\x00' ∉ path.chars

namespace Ordinary

variable {path : Path}

theorem front (h : path.Ordinary) {front : List Name} {last : Name}
    (hpieces : path.pieces = front ++ [last]) : ∀ name ∈ front, Path.ordinary name = true := fun name hm =>
  h.pieces name (hpieces ▸ List.mem_append_left _ hm)

theorem steps_eq (h : path.Ordinary) : path.steps = path.pieces := by
  rw [steps, List.filter_eq_self]
  intro piece hm
  simpa using ne_nil_of_ordinary (h.pieces piece hm)

theorem isAbsolute_eq (h : path.Ordinary) : path.isAbsolute = false := by
  rw [← Bool.not_eq_true, isAbsolute_iff]
  rintro ⟨rest, -, hpieces⟩
  exact ne_nil_of_ordinary (h.pieces [] (by rw [hpieces]; exact List.mem_cons_self)) rfl

theorem endsInSlash_eq (h : path.Ordinary) : path.endsInSlash = false := by
  rw [← Bool.not_eq_true]
  intro hslash
  have hlast := getLast?_pieces_of_endsInSlash hslash
  exact ne_nil_of_ordinary (h.pieces [] (List.mem_of_getLast? hlast)) rfl

theorem chars_ne_nil (h : path.Ordinary) : path.chars ≠ [] := by
  intro hempty
  have hpieces : path.pieces = [[]] := by rw [Path.pieces, hempty, split]
  exact ne_nil_of_ordinary (h.pieces [] (by simp [hpieces])) rfl

/-- An ordinary path is followed through all pieces but the last, which names an entry. -/
theorem resolve_eq (h : path.Ordinary) {front : List Name} {last : Name}
    (hpieces : path.pieces = front ++ [last]) (fs : FileSystem) :
    fs.resolve path =
      if pathLimit ≤ Name.byteLength path.chars then .error .nameTooLong
      else (front.foldlM fs.descend fs.home).map fun place => .entry place last false := by
  have hlast : ordinary last = true := h.pieces last (by simp [hpieces])
  have hdot := ne_dot_of_ordinary hlast
  have hdotDot := ne_dotDot_of_ordinary hlast
  have hsteps := h.steps_eq.trans hpieces
  simp only [FileSystem.resolve_eq, h.noNul, h.chars_ne_nil, FileSystem.parentOf, FileSystem.origin,
    h.isAbsolute_eq, h.endsInSlash_eq, hsteps, List.getLast?_concat, List.dropLast_concat,
    Destination.ofLast, hdot, hdotDot, if_false, Bool.false_eq_true]

/-! ## Staging paths -/

theorem pieces_staging_eq (h : path.Ordinary) {front : List Name} {last : Name}
    (hpieces : path.pieces = front ++ [last]) (tag : Uuid) :
    (path.staging tag).pieces = front ++ [last ++ stagingSuffix tag] := by
  have hreverse : path.pieces.reverse = [] ++ last :: front.reverse := by simp [hpieces]
  obtain ⟨kept, hkept, hmoves, -, hsub⟩ :=
    @pieces_staging path tag last front.reverse [] hreverse nofun (h.pieces last (by simp [hpieces]))
  -- None of the pieces is idle, so none is left out.
  have hbusy : ∀ pieces ⊆ front.reverse, pieces.filter (!idle ·) = pieces := by
    intro pieces hpart
    rw [List.filter_eq_self]
    intro piece hm
    have hold : piece ∈ path.pieces := by
      rw [hpieces]
      exact List.mem_append_left _ (List.mem_reverse.1 (hpart hm))
    rw [idle_of_ordinary (h.pieces piece hold)]
    rfl
  rw [hbusy kept hsub, hbusy _ (List.Subset.refl _)] at hmoves
  rw [← List.reverse_reverse (path.staging tag).pieces, hkept, hmoves]
  simp

/-- The suffix stands behind the text of the path. -/
theorem staging_eq (h : path.Ordinary) (tag : Uuid) :
    path.staging tag = ⟨path.chars ++ stagingSuffix tag⟩ := by
  obtain ⟨front, last, hpieces⟩ := exists_pieces path
  have hstaging : split (path.staging tag).chars = split (path.chars ++ stagingSuffix tag) := by
    rw [split_append (slash_not_mem_stagingSuffix tag) hpieces]
    exact h.pieces_staging_eq hpieces tag
  rw [← split_injective hstaging]

theorem staging (h : path.Ordinary) (tag : Uuid) : (path.staging tag).Ordinary where
  pieces := by
    obtain ⟨front, last, hpieces⟩ := exists_pieces path
    rw [h.pieces_staging_eq hpieces tag]
    intro piece hm
    rcases List.mem_append.1 hm with hm | hm
    · exact h.pieces piece (hpieces ▸ List.mem_append_left _ hm)
    · rw [List.mem_singleton.1 hm]
      exact ordinary_stagingName last tag
  noNul := by
    rw [h.staging_eq, List.mem_append, not_or]
    exact ⟨h.noNul, nul_not_mem_stagingSuffix tag⟩

theorem byteLength_staging_eq (h : path.Ordinary) (tag : Uuid) :
    Name.byteLength (path.staging tag).chars = Name.byteLength path.chars + 41 := by
  rw [h.staging_eq, Name.byteLength_append, byteLength_stagingSuffix]

end Ordinary

end Path

end BootImage
