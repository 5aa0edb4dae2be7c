import BootImage.Staging
import BootImage.FileSystem.Resolve
import Mathlib.Data.List.TakeWhile
/-!
# The last step of a path

`Path.staging` works on the text of a path and `FileSystem.resolve` on its steps. Here the two meet:
a path whose last step is a name has that name as its file name, and the last step of its staging
file's path is the name with the tag's suffix behind it. So the two are never one entry.
-/

namespace BootImage

namespace Path

/-! ## Cutting at slashes -/

theorem split_ne_nil (cs : List Char) : split cs ≠ [] := by
  fun_cases split cs <;> simp

theorem split_append_slash (cs ds : List Char) : split (cs ++ '/' :: ds) = split cs ++ split ds := by
  induction cs with
  | nil => simp [split]
  | cons c cs ih =>
    by_cases h : c = '/'
    · simp [split, h, ih]
    · obtain ⟨piece, rest, hs⟩ := List.exists_cons_of_ne_nil (split_ne_nil cs)
      simp [split, h, ih, hs]

theorem split_eq_singleton {cs : List Char} (h : '/' ∉ cs) : split cs = [cs] := by
  induction cs with
  | nil => rfl
  | cons c cs ih =>
    rw [List.mem_cons, not_or] at h
    simp [split, Ne.symm h.1, ih h.2]

theorem slash_not_mem_of_mem_split {piece : Name} {cs : List Char} (h : piece ∈ split cs) :
    '/' ∉ piece := by
  induction cs generalizing piece with
  | nil => simp_all [split]
  | cons c cs ih =>
    obtain ⟨first, rest, hs⟩ := List.exists_cons_of_ne_nil (split_ne_nil cs)
    by_cases hc : c = '/'
    · simp only [split, hc, if_true, List.mem_cons] at h
      rcases h with rfl | h
      · simp
      · exact ih h
    · simp only [split, hc, if_false, hs, List.mem_cons] at h
      rcases h with rfl | h
      · have : '/' ∉ first := ih (by simp [hs])
        simp [Ne.symm hc, this]
      · exact ih (by simp [hs, h])

theorem steps_join {name : Name} (h : '/' ∉ name) (hne : name ≠ []) (directory : Path) :
    (directory.join name).steps = directory.steps ++ [name] := by
  unfold join
  split
  · rename_i e
    simp [steps, pieces, e, split_eq_singleton h, hne, split]
  · split
    · rename_i e
      obtain ⟨cs, hcs⟩ := List.getLast?_eq_some_iff.1 e
      simp [steps, pieces, hcs, split_append_slash, split_eq_singleton h, hne, split]
    · simp [steps, pieces, split_append_slash, split_eq_singleton h, hne]

/-! ## Pieces that are names -/

theorem ne_nil_of_ordinary {piece : Name} (h : ordinary piece = true) : piece ≠ [] := by
  rintro rfl
  cases h

theorem ne_dot_of_ordinary {piece : Name} (h : ordinary piece = true) : piece ≠ Name.dot := by
  rintro rfl
  cases h

theorem ne_dotDot_of_ordinary {piece : Name} (h : ordinary piece = true) : piece ≠ Name.dotDot := by
  rintro rfl
  cases h

/-! ## The last step -/

/-- The last step of a path, before any number of slashes. -/
theorem pieces_of_getLast?_steps {path : Path} {last : Name} (h : path.steps.getLast? = some last) :
    ∃ above below, path.pieces.reverse = below ++ last :: above ∧ ∀ piece ∈ below, piece = [] := by
  rw [steps, List.getLast?_eq_head?_reverse, ← List.filter_reverse] at h
  obtain ⟨others, hs⟩ := List.head?_eq_some_iff.1 h
  obtain ⟨below, above, hp, hb, -⟩ := List.filter_eq_cons_iff.1 hs
  exact ⟨above, below, hp, by simpa using hb⟩

/-- The path of a lone name: it is in the directory that the program runs in. -/
theorem splitName?_of_lone {path : Path} {last : Name} {below : List Name}
    (hp : path.pieces.reverse = below ++ [last]) (hb : ∀ piece ∈ below, piece = [])
    (hlast : ordinary last = true) : path.splitName? = some (⟨[]⟩, last) := by
  have hpieces : path.pieces = last :: below.reverse := by
    simpa using congrArg List.reverse hp
  have hbelow : below.dropWhile idle = [] :=
    List.dropWhile_eq_nil_iff.2 fun piece hm => by simp [idle, hb piece hm]
  simp [splitName?, hpieces, hbelow, hlast]

/-- The first piece of a path is kept apart, since it tells whether the path is absolute. -/
theorem splitName?_of_below {path : Path} {first last : Name} {above below : List Name}
    (hp : path.pieces.reverse = below ++ last :: (above ++ [first]))
    (hb : ∀ piece ∈ below, piece = []) (hlast : ordinary last = true) :
    path.splitName? = some (ofPieces (first :: (above.dropWhile idle).reverse), last) := by
  have hpieces : path.pieces = first :: (below ++ last :: above).reverse := by
    simpa using congrArg List.reverse hp
  have hidle : idle last = false := by
    simp only [ordinary, Bool.and_eq_true, Bool.not_eq_true'] at hlast
    exact hlast.1
  have hdrop : (below ++ last :: above).dropWhile idle = last :: above := by
    rw [List.dropWhile_append_of_pos (fun piece hm => by simp [idle, hb piece hm]),
      List.dropWhile_cons_of_neg (by simp [hidle])]
  simp [splitName?, hpieces, -List.reverse_append, -List.reverse_cons, hdrop, hlast]

theorem ordinary_of_getLast?_steps {path : Path} {last : Name}
    (h : path.steps.getLast? = some last) (hd : last ≠ Name.dot) (hdd : last ≠ Name.dotDot) :
    ordinary last = true := by
  have hne : last ≠ [] := by
    have := List.mem_of_getLast? h
    simpa [steps] using (List.mem_filter.1 this).2
  simp [ordinary, idle, hne, hd, hdd]

theorem fileName?_of_getLast?_steps {path : Path} {last : Name}
    (h : path.steps.getLast? = some last) (hd : last ≠ Name.dot) (hdd : last ≠ Name.dotDot) :
    path.fileName? = some last := by
  obtain ⟨above, below, hp, hb⟩ := pieces_of_getLast?_steps h
  have hordinary := ordinary_of_getLast?_steps h hd hdd
  rcases List.eq_nil_or_concat above with rfl | ⟨above, first, rfl⟩
  · rw [fileName?, splitName?_of_lone hp hb hordinary, Option.map_some]
  · rw [List.concat_eq_append] at hp
    rw [fileName?, splitName?_of_below hp hb hordinary, Option.map_some]

theorem slash_not_mem_of_fileName? {path : Path} {name : Name} (h : path.fileName? = some name) :
    '/' ∉ name := by
  suffices hm : name ∈ split path.chars from slash_not_mem_of_mem_split hm
  unfold fileName? splitName? at h
  split at h
  · simp at h
  · rename_i first rest hp
    rw [show split path.chars = first :: rest from hp]
    split at h
    · rename_i last above hd
      split at h
      · simp only [Option.map_some, Option.some.injEq] at h
        subst h
        have : last ∈ rest.reverse.dropWhile idle := by simp [hd]
        have := List.dropWhile_subset _ this
        simp_all
      · simp at h
    · split at h
      · simp at h
        simp [h]
      · simp at h

/-! ## Staging files -/

theorem slash_not_mem_stagingSuffix (tag : Uuid) : '/' ∉ stagingSuffix tag := by
  have hdigits : '/' ∉ tag.digits := fun h => absurd (tag.hex_digits _ h) (by decide)
  simp [stagingSuffix, hdigits]

/-- The end of a name tells the tag. -/
theorem tag_eq_of_append_stagingSuffix {stem stem' : Name} {tag tag' : Uuid}
    (h : stem ++ stagingSuffix tag = stem' ++ stagingSuffix tag') : tag = tag' := by
  have hlength : (stagingSuffix tag).length = (stagingSuffix tag').length := by
    simp [stagingSuffix, tag.length_digits, tag'.length_digits]
  have hsuffix : '.' :: (tag.digits ++ _) = '.' :: (tag'.digits ++ _) := List.append_inj_right' h hlength
  have hdigits : tag.digits = tag'.digits := List.append_cancel_right (List.cons.inj hsuffix).2
  cases tag
  cases tag'
  simpa using hdigits

/-- The name of a staging file ends in its tag's suffix, behind the target's file name if there is
one. -/
theorem getLast?_steps_staging (target : Path) (tag : Uuid) :
    ∃ stem, (target.staging tag).steps.getLast? = some (stem ++ stagingSuffix tag) ∧
      ∀ name, target.fileName? = some name → stem = name := by
  have hsuffix := slash_not_mem_stagingSuffix tag
  cases h : target.splitName? with
  | none =>
    refine ⟨['i', 'm', 'a', 'g', 'e'], ?_, by simp [fileName?, h]⟩
    simp only [staging, h]
    rw [steps_join (by simp [hsuffix]) (by simp), List.getLast?_concat]
  | some parts =>
    obtain ⟨directory, name⟩ := parts
    have hname : target.fileName? = some name := by simp [fileName?, h]
    refine ⟨name, ?_, fun other hother => by simpa [hname] using hother⟩
    simp only [staging, h]
    rw [steps_join (by simp [hsuffix, slash_not_mem_of_fileName? hname]) (by simp [stagingSuffix]),
      List.getLast?_concat]

end Path

end BootImage
