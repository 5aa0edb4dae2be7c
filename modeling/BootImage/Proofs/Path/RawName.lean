import BootImage.Proofs.Path.Ordinary
import BootImage.RawName
/-!
# Staging files of names that need not be text

What is shown of a name that is text is the name (`RawName.readable_ofName`), so its staging file is the one
that `Path.staging` names. Of other names more bytes may be shown than they have, up to three for one. It is
what is shown that has to leave room for the suffix, not the name itself
(`RawName.createFile_staging_eq_nameTooLong_iff`).
-/

namespace BootImage

open FileSystem

namespace RawName

/-! ## Characters in front -/

/-- The bytes of a character are read as that character, whatever is behind them. -/
theorem readable_append (c : Char) (rest : List UInt8) :
    readable (String.utf8EncodeChar c ++ rest) = c :: readable rest := by
  have hread : (String.utf8EncodeChar c ++ rest).toByteArray.utf8DecodeChar? 0 = some c := by
    rw [List.toByteArray_append]
    exact ByteArray.utf8DecodeChar?_utf8EncodeChar_append
  have hlength := String.length_utf8EncodeChar c
  obtain ⟨first, more, hbytes⟩ := List.exists_cons_of_ne_nil (String.utf8EncodeChar_ne_nil (c := c))
  rw [hbytes, List.cons_append] at hread ⊢
  rw [hbytes, List.length_cons] at hlength
  rw [readable, hread]
  simp only
  rw [← hlength, Nat.add_sub_cancel, List.drop_left]

/-- Nothing else is read as a character. -/
theorem exists_of_decode {bytes : List UInt8} {c : Char}
    (h : bytes.toByteArray.utf8DecodeChar? 0 = some c) :
    ∃ rest, bytes = String.utf8EncodeChar c ++ rest := by
  obtain ⟨rest, hrest⟩ := ByteArray.exists_of_utf8DecodeChar?_eq_some h
  have hlist : rest.data.toList.toByteArray = rest := ByteArray.ext (by simp)
  refine ⟨rest.data.toList, List.toByteArray_inj.1 ?_⟩
  rw [hrest, List.toByteArray_append, hlist]

/-! ## What is shown of a name -/

/-- A name that is text is shown as it is. -/
theorem readable_ofName (name : Name) : (ofName name).readable = name := by
  induction name with
  | nil => rw [ofName, List.flatMap_nil, readable]
  | cons c name ih => rw [ofName, List.flatMap_cons, readable_append, ← ofName, ih]

/-- All that is shown is in the name, except for replacements. -/
theorem subset_of_mem_readable {name : RawName} {c : Char} (h : c ∈ name.readable) :
    c = replacement ∨ String.utf8EncodeChar c ⊆ name := by
  fun_induction readable name with
  | case1 => cases h
  | case2 first rest d hread ih =>
    obtain ⟨behind, hbytes⟩ := exists_of_decode hread
    rcases List.mem_cons.1 h with rfl | h
    · exact .inr (hbytes ▸ List.subset_append_left _ _)
    · exact (ih h).imp_right fun hsub _ hm => List.mem_cons_of_mem _ (List.mem_of_mem_drop (hsub hm))
  | case3 first rest hread ih =>
    rcases List.mem_cons.1 h with rfl | h
    · exact .inl rfl
    · exact (ih h).imp_right fun hsub _ hm => List.mem_cons_of_mem _ (List.mem_of_mem_drop (hsub hm))

/-- A character that breaks off is replaced as one, and the bytes of a surrogate one by one. -/
example : readable [0x61, 0xe2, 0x82, 0x62, 0xf0, 0x9f, 0x98, 0x80, 0xed, 0xa0, 0x80] =
    ['a', replacement, 'b', '😀', replacement, replacement, replacement] := by cbv

/-- No more than three bytes are shown for one. -/
theorem byteLength_readable_le (name : RawName) : name.readable.byteLength ≤ 3 * name.length := by
  fun_induction readable name with
  | case1 => exact Nat.zero_le _
  | case2 first rest c hread ih =>
    obtain ⟨behind, hbytes⟩ := exists_of_decode hread
    have hlength := congrArg List.length hbytes
    have hpos := c.utf8Size_pos
    rw [List.length_append, String.length_utf8EncodeChar, List.length_cons] at hlength
    rw [List.length_drop] at ih
    rw [Name.byteLength, List.length_cons]
    omega
  | case3 first rest hread ih =>
    have hsize : replacement.utf8Size = 3 := by decide
    rw [List.length_drop] at ih
    rw [Name.byteLength, hsize, List.length_cons]
    omega

/-- The byte `ff` is in no character, so each of them is replaced by three bytes. -/
theorem readable_replicate (count : Nat) :
    readable (List.replicate count 0xff) = List.replicate count replacement := by
  induction count with
  | zero => rw [List.replicate_zero, readable, List.replicate_zero]
  | succ count ih =>
    have hread : (0xff :: List.replicate count 0xff : List UInt8).toByteArray.utf8DecodeChar? 0 = none := by
      rw [Option.eq_none_iff_forall_ne_some]
      intro c hc
      obtain ⟨behind, hbytes⟩ := exists_of_decode hc
      obtain ⟨first, more, hchar⟩ := List.exists_cons_of_ne_nil (String.utf8EncodeChar_ne_nil (c := c))
      have hfirst : first.IsUTF8FirstByte := by
        have hzero := @UInt8.isUTF8FirstByte_getElem_utf8EncodeChar c 0 (by simp [hchar])
        simpa [hchar] using hzero
      rw [hchar, List.cons_append, List.cons.injEq] at hbytes
      rw [← hbytes.1] at hfirst
      exact absurd hfirst (by decide)
    have hone : brokenOff 0xff (List.replicate count 0xff) = 0 := by
      cases count with
      | zero => rfl
      | succ count => rw [List.replicate_succ, brokenOff, if_neg (by decide)]
    rw [List.replicate_succ, readable, hread]
    simp only
    rw [hone, List.drop_zero, ih, List.replicate_succ]

/-! ## Staging files -/

/-- The staging file of a target that is text. -/
theorem staging_ofName {target directory : Path} {name : Name} (h : target.splitName? = some (directory, name))
    (tag : Uuid) : (ofName name).staging directory tag = target.staging tag := by
  rw [staging, readable_ofName, Path.staging, h]

/-- What can be the name of a file. -/
structure Ordinary (name : RawName) : Prop where
  ne_nil : name ≠ []
  ne_dot : name ≠ ofName Name.dot
  ne_dotDot : name ≠ ofName Name.dotDot
  noSlash : 0x2f ∉ name
  noNul : 0 ∉ name

theorem Ordinary.slash_not_mem_readable {name : RawName} (h : name.Ordinary) : '/' ∉ name.readable := by
  intro hm
  rcases subset_of_mem_readable hm with hslash | hsub
  · exact absurd hslash (by decide)
  · exact h.noSlash (hsub (by decide))

theorem Ordinary.nul_not_mem_readable {name : RawName} (h : name.Ordinary) : '\x00' ∉ name.readable := by
  intro hm
  rcases subset_of_mem_readable hm with hnul | hsub
  · exact absurd hnul (by decide)
  · exact h.noNul (hsub (by decide))

/-- In the directory where paths start, the path of a staging file is its name. -/
theorem chars_staging (name : RawName) (tag : Uuid) :
    (name.staging ⟨[]⟩ tag).chars = name.readable ++ Path.stagingSuffix tag := by
  rw [staging, Path.join, if_pos rfl]

/-- So the staging file lies there under that name. -/
theorem Ordinary.staging {name : RawName} (h : name.Ordinary) (tag : Uuid) :
    (name.staging ⟨[]⟩ tag).Ordinary ∧
      (name.staging ⟨[]⟩ tag).pieces = [name.readable ++ Path.stagingSuffix tag] := by
  have hpieces : (name.staging ⟨[]⟩ tag).pieces = [name.readable ++ Path.stagingSuffix tag] := by
    rw [Path.pieces, chars_staging]
    apply Path.split_eq_singleton
    rw [List.mem_append, not_or]
    exact ⟨h.slash_not_mem_readable, Path.slash_not_mem_stagingSuffix tag⟩
  refine ⟨⟨fun piece hm => ?_, ?_⟩, hpieces⟩
  · rw [hpieces, List.mem_singleton] at hm
    rw [hm]
    exact Path.ordinary_stagingName _ tag
  · rw [chars_staging, List.mem_append, not_or]
    exact ⟨h.nul_not_mem_readable, Path.nul_not_mem_stagingSuffix tag⟩

/-- A staging file is refused for its length if more than 214 bytes are shown of the name. -/
theorem createFile_staging_eq_nameTooLong_iff {name : RawName} (h : name.Ordinary)
    (hlength : name.length ≤ nameLimit) (tag : Uuid) (fs : FileSystem) :
    fs.createFile (name.staging ⟨[]⟩ tag) = .error .nameTooLong ↔ 214 < name.readable.byteLength := by
  obtain ⟨hordinary, hpieces⟩ := h.staging tag
  have hname : (name.readable ++ Path.stagingSuffix tag).byteLength = name.readable.byteLength + 41 := by
    rw [Name.byteLength_append, Path.byteLength_stagingSuffix]
  have hpath : ¬ pathLimit ≤ Name.byteLength (name.staging ⟨[]⟩ tag).chars := by
    have hle := byteLength_readable_le name
    rw [chars_staging, hname, pathLimit]
    rw [nameLimit] at hlength
    omega
  have hresolve := @Path.Ordinary.resolve_eq _ hordinary [] _ hpieces fs
  rw [if_neg hpath] at hresolve
  unfold createFile
  rw [hresolve]
  simp only [List.foldlM_nil, Except.map, pure, Except.pure, bind, Except.bind, lookup_eq, hname, nameLimit,
    Bool.false_eq_true, if_false]
  by_cases hlong : 255 < name.readable.byteLength + 41
  · simp only [hlong, if_true, true_iff]
    omega
  · simp only [hlong, if_false]
    refine ⟨fun hrefused => ?_, fun hlong' => absurd hlong' (by omega)⟩
    split at hrefused <;> cases hrefused

end RawName

end BootImage
