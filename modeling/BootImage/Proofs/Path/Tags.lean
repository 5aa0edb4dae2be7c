import BootImage.Proofs.Path.Sibling
/-!
# One tag is as good as another

All tags have thirty-two digits, so the staging paths of a target are equally long, and either all of
them lead beside the target or none does (`FileSystem.exists_locate?_staging`).
-/

namespace BootImage

namespace Name

theorem byteLength_append (name more : Name) :
    byteLength (name ++ more) = name.byteLength + more.byteLength := by
  induction name with
  | nil => exact (Nat.zero_add _).symm
  | cons c name ih => rw [List.cons_append, byteLength, byteLength, ih, Nat.add_assoc]

end Name

namespace Path

/-- Hexadecimal digits are single bytes. -/
theorem utf8Size_of_isHexDigit {c : Char} (h : isHexDigit c = true) : c.utf8Size = 1 := by
  have hle : c.val ≤ 0x7f := by
    simp only [isHexDigit, Bool.or_eq_true, Bool.and_eq_true, decide_eq_true_eq, Char.le_def] at h
    rcases h with ⟨-, h⟩ | ⟨-, h⟩
    · exact UInt32.le_trans h (by decide)
    · exact UInt32.le_trans h (by decide)
  exact Char.utf8Size_eq_one_iff.2 hle

theorem byteLength_of_isHexDigit {digits : Name} (h : ∀ c ∈ digits, isHexDigit c = true) :
    digits.byteLength = digits.length := by
  induction digits with
  | nil => rfl
  | cons c digits ih =>
    obtain ⟨hc, hdigits⟩ := List.forall_mem_cons.1 h
    rw [Name.byteLength, utf8Size_of_isHexDigit hc, ih hdigits, List.length_cons, Nat.add_comm]

/-- All tags are of one length. -/
theorem byteLength_stagingSuffix (tag : Uuid) : (stagingSuffix tag).byteLength = 41 := by
  rw [stagingSuffix, Name.byteLength_append, Name.byteLength,
    byteLength_of_isHexDigit tag.hex_digits, tag.length_digits]
  rfl

theorem byteLength_join (directory : Path) {name other : Name}
    (h : name.byteLength = other.byteLength) :
    Name.byteLength (directory.join name).chars = Name.byteLength (directory.join other).chars := by
  unfold join
  split
  · exact h
  · split <;> simp only [Name.byteLength_append, Name.byteLength, h]

theorem byteLength_staging (target : Path) (tag other : Uuid) :
    Name.byteLength (target.staging tag).chars = Name.byteLength (target.staging other).chars := by
  unfold staging
  split
  all_goals
    apply byteLength_join
    rw [Name.byteLength_append, Name.byteLength_append, byteLength_stagingSuffix,
      byteLength_stagingSuffix]

end Path

namespace FileSystem

/-- If one staging path of a target leads somewhere, all of them do. -/
theorem exists_locate?_staging {fs : FileSystem} {target : Path} {tag : Uuid} {goal place : Location}
    (hgoal : fs.locate? target = some goal) (hplace : fs.locate? (target.staging tag) = some place)
    (other : Uuid) : ∃ beside, fs.locate? (target.staging other) = some beside := by
  obtain ⟨name, directory, rfl⟩ := List.exists_cons_of_ne_nil (locate?_ne_nil hgoal)
  obtain ⟨stem, parent, rfl, hstem⟩ := name_of_locate?_staging hplace
  obtain rfl : stem = name := hstem name (fileName?_of_locate? hgoal).1
  obtain ⟨directory', name', hresolve, hshort, e⟩ := locate?_eq_some_iff.1 hplace
  obtain ⟨rfl, rfl⟩ := List.cons.inj e
  obtain ⟨-, hpath, -⟩ := resolve_eq_entry_iff.1 hresolve
  have hname : (stem ++ Path.stagingSuffix other).byteLength ≤ nameLimit := by
    rw [Name.byteLength_append, Path.byteLength_stagingSuffix] at hshort ⊢
    exact Nat.le_of_not_lt hshort
  exact ⟨_, locate?_staging hgoal hname (Path.byteLength_staging target tag other ▸ hpath)⟩

end FileSystem

end BootImage
