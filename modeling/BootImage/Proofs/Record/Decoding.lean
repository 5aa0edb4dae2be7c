import BootImage.Proofs.Record.Reading
/-!
# What bytes are read as

A record is told from the bytes in front alone. Eight bytes are the record of one word and of no other
(`Record.exists_word`), so whatever is read has been written there, and nothing else reads the same. The
tag of the payload length decides how long the record of a layout is: `Layout.Found` has a case for each
thing that bytes can begin with, and `Layout.found_iff` says that `Layout.ofRecord` tells these cases
apart.
-/

namespace BootImage

namespace Record

/-! ## Bytes as words -/

theorem littleEndian_ofLittleEndian (bytes : List UInt8) :
    littleEndian bytes.length (ofLittleEndian bytes) = bytes := by
  induction bytes with
  | nil => rfl
  | cons b bytes ih =>
    have hb := b.toNat_lt
    have hlow : UInt8.ofNat (b.toNat + 256 * ofLittleEndian bytes) = b := by
      apply UInt8.toNat_inj.1
      rw [UInt8.toNat_ofNat']
      omega
    have hrest : (b.toNat + 256 * ofLittleEndian bytes) / 256 = ofLittleEndian bytes := by omega
    rw [ofLittleEndian, List.length_cons, littleEndian, hlow, hrest, ih]

theorem ofLittleEndian_lt (bytes : List UInt8) : ofLittleEndian bytes < Nat.pow 256 bytes.length := by
  induction bytes with
  | nil => decide
  | cons b bytes ih =>
    have hb := b.toNat_lt
    rw [ofLittleEndian, List.length_cons, Nat.pow_eq, Nat.pow_succ]
    rw [Nat.pow_eq] at ih
    omega

theorem length_word (n : Nat) : (word n).length = 8 :=
  length_littleEndian 8 n

theorem littleEndian_eq_map (width n : Nat) :
    littleEndian width n = (List.range width).map fun i => UInt8.ofNat (n / Nat.pow 256 i) := by
  induction width generalizing n with
  | zero => rfl
  | succ width ih =>
    have hshift : ∀ i, n / 256 / Nat.pow 256 i = n / Nat.pow 256 (i + 1) := by
      intro i
      rw [Nat.div_div_eq_div_mul, Nat.pow_eq, Nat.pow_eq, Nat.pow_succ, Nat.mul_comm]
    rw [littleEndian, ih, List.range_succ_eq_map, List.map_cons, List.map_map]
    simp only [hshift, Function.comp_def]
    simp

/-- Any eight bytes are a word. -/
theorem exists_word {bytes : List UInt8} (h : 8 ≤ bytes.length) :
    ∃ n rest, n < wordLimit ∧ bytes = word n ++ rest := by
  have hlength : (bytes.take 8).length = 8 := List.length_take_of_le h
  refine ⟨ofLittleEndian (bytes.take 8), bytes.drop 8, ?_, ?_⟩
  · have hlt := ofLittleEndian_lt (bytes.take 8)
    rw [hlength] at hlt
    exact hlt
  · have hword : word (ofLittleEndian (bytes.take 8)) = bytes.take 8 := by
      have hbytes := littleEndian_ofLittleEndian (bytes.take 8)
      rwa [hlength] at hbytes
    rw [hword, List.take_append_drop]

/-- Any thirty-two bytes are four words. -/
theorem exists_fourWords {bytes : List UInt8} (h : 32 ≤ bytes.length) :
    ∃ a b c d rest, (a < wordLimit ∧ b < wordLimit ∧ c < wordLimit ∧ d < wordLimit) ∧
      bytes = word a ++ (word b ++ (word c ++ (word d ++ rest))) := by
  obtain ⟨a, rest, ha, rfl⟩ := exists_word (by omega : 8 ≤ bytes.length)
  rw [List.length_append, length_word] at h
  obtain ⟨b, rest, hb, rfl⟩ := exists_word (by omega : 8 ≤ rest.length)
  rw [List.length_append, length_word] at h
  obtain ⟨c, rest, hc, rfl⟩ := exists_word (by omega : 8 ≤ rest.length)
  rw [List.length_append, length_word] at h
  obtain ⟨d, rest, hd, rfl⟩ := exists_word (by omega : 8 ≤ rest.length)
  exact ⟨a, b, c, d, rest, ⟨ha, hb, hc, hd⟩, rfl⟩

/-! ## Readers that fail -/

theorem readWord_of_lt {bytes : List UInt8} (h : bytes.length < 8) :
    readWord bytes = .error .unexpectedEnd := by
  rw [readWord, if_pos h]

section

variable {α β : Type} {reader : Reader α} {next : α → Reader β} {bytes : List UInt8} {error : RecordError}

theorem bind_of_error (h : reader bytes = .error error) : (reader >>= next) bytes = .error error := by
  simp only [Bind.bind, StateT.bind, h, Except.bind]

/-- Behind bytes that are read, the next reader goes on. -/
theorem Reads.bind_eq {value : α} (h : Reads reader bytes value) (rest : List UInt8) :
    (reader >>= next) (bytes ++ rest) = next value rest := by
  have hfirst : reader (bytes ++ rest) = .ok (value, rest) := h rest
  simp only [Bind.bind, StateT.bind, hfirst, Except.bind]

/-- What begins with a word ends too early if the bytes do so before or behind that word. -/
theorem bind_readWord_of_end {next : Nat → Reader β}
    (h : ∀ n rest, bytes = word n ++ rest → next n rest = .error .unexpectedEnd) :
    (readWord >>= next) bytes = .error .unexpectedEnd := by
  rcases Nat.lt_or_ge bytes.length 8 with hshort | hlong
  · exact bind_of_error (readWord_of_lt hshort)
  · obtain ⟨n, rest, hn, rfl⟩ := exists_word hlong
    rw [(reads_word hn).bind_eq]
    exact h n rest rfl

end

theorem bind_readOptionalWord_of_badTag {β : Type} {next : Option Nat → Reader β} {tag : UInt8}
    (h0 : tag ≠ 0) (h1 : tag ≠ 1) (rest : List UInt8) :
    (readOptionalWord >>= next) (tag :: rest) = .error (.badTag tag) := by
  apply bind_of_error
  have htag : readByte (tag :: rest) = .ok (tag, rest) := rfl
  simp only [readOptionalWord, Bind.bind, StateT.bind, htag, Except.bind, if_neg h0, if_neg h1]
  rfl

end Record

namespace Layout

open Record

/-! ## Layouts -/

/-- The words of a layout that come before the tag of its payload length. -/
def header (layout : Layout) : List UInt8 :=
  word layout.sectorSize ++ word layout.bootSectorLen ++ word layout.extensionLen ++
    word layout.payloadOffset

theorem toRecord_eq (layout : Layout) :
    layout.toRecord = layout.header ++ optionalWord layout.payloadLen ++ word layout.imageLen := rfl

@[simp] theorem length_header (layout : Layout) : layout.header.length = 32 := by
  simp [header, length_word]

/-- A record is longer by a word if there is a payload. -/
theorem length_toRecord (layout : Layout) :
    layout.toRecord.length = if layout.payloadLen.isSome then 49 else 41 := by
  rw [toRecord_eq]
  cases layout.payloadLen <;> simp [optionalWord, length_word]

/-- The tag is the byte behind the header. -/
theorem getElem?_toRecord (layout : Layout) :
    layout.toRecord[32]? = some (if layout.payloadLen.isSome then 1 else 0) := by
  rw [toRecord_eq, List.append_assoc, List.getElem?_append_right (Nat.le_of_eq layout.length_header),
    length_header, Nat.sub_self]
  cases layout.payloadLen <;> rfl

/-- The numbers in the record of a layout, each with the offset of its first byte. -/
def numbers (layout : Layout) : List (Nat × Nat) :=
  [(0, layout.sectorSize), (8, layout.bootSectorLen), (16, layout.extensionLen),
    (24, layout.payloadOffset)] ++
  match layout.payloadLen with
  | none => [(33, layout.imageLen)]
  | some len => [(33, len), (41, layout.imageLen)]

theorem word_of_mem_numbers {layout : Layout} {number : Nat × Nat} (h : number ∈ layout.numbers) :
    (layout.toRecord.drop number.1).take 8 = word number.2 := by
  unfold numbers at h
  unfold toRecord
  cases hpayload : layout.payloadLen with
  | none =>
    rw [hpayload] at h
    simp only [List.mem_append, List.mem_cons, List.not_mem_nil, or_false] at h
    rcases h with (rfl | rfl | rfl | rfl) | rfl <;>
      simp [optionalWord, List.drop_append, List.drop_eq_nil_of_le, List.take_of_length_le, length_word]
  | some len =>
    rw [hpayload] at h
    simp only [List.mem_append, List.mem_cons, List.not_mem_nil, or_false] at h
    rcases h with (rfl | rfl | rfl | rfl) | rfl | rfl <;>
      simp [optionalWord, List.drop_append, List.drop_eq_nil_of_le, List.take_of_length_le, length_word]

/-- The numbers of the header fit words. -/
structure HeaderWords (layout : Layout) : Prop where
  sectorSize : layout.sectorSize < wordLimit
  bootSectorLen : layout.bootSectorLen < wordLimit
  extensionLen : layout.extensionLen < wordLimit
  payloadOffset : layout.payloadOffset < wordLimit

/-- Any thirty-two bytes are a header. -/
theorem exists_header {bytes : List UInt8} (h : 32 ≤ bytes.length) :
    ∃ (layout : Layout) (rest : List UInt8), layout.HeaderWords ∧ bytes = layout.header ++ rest := by
  obtain ⟨sectorSize, bootSectorLen, extensionLen, payloadOffset, rest,
    ⟨hsectorSize, hbootSectorLen, hextensionLen, hpayloadOffset⟩, rfl⟩ := exists_fourWords h
  refine ⟨⟨sectorSize, bootSectorLen, extensionLen, payloadOffset, none, 0⟩, rest,
    ⟨hsectorSize, hbootSectorLen, hextensionLen, hpayloadOffset⟩, ?_⟩
  simp only [header, List.append_assoc]

/-- Reads what stands behind the header. -/
def readTail (layout : Layout) : Reader Layout := do
  let payloadLen ← readOptionalWord
  let imageLen ← readWord
  return { layout with payloadLen, imageLen }

theorem read_header {layout : Layout} (h : layout.HeaderWords) (rest : List UInt8) :
    Layout.read (layout.header ++ rest) = layout.readTail rest := by
  unfold Layout.read header
  simp only [List.append_assoc]
  rw [(reads_word h.sectorSize).bind_eq, (reads_word h.bootSectorLen).bind_eq,
    (reads_word h.extensionLen).bind_eq, (reads_word h.payloadOffset).bind_eq]
  rfl

/-- Where a header is cut off, nothing is read. -/
theorem read_of_le {bytes : List UInt8} (h : bytes.length ≤ 32) :
    Layout.read bytes = .error .unexpectedEnd := by
  unfold Layout.read
  apply bind_readWord_of_end
  rintro sectorSize rest rfl
  apply bind_readWord_of_end
  rintro bootSectorLen rest rfl
  apply bind_readWord_of_end
  rintro extensionLen rest rfl
  apply bind_readWord_of_end
  rintro payloadOffset rest rfl
  -- Four words are all there is, and no tag behind them.
  simp only [List.length_append, length_word] at h
  obtain rfl : rest = [] := List.eq_nil_of_length_eq_zero (by omega)
  exact bind_of_error (bind_of_error rfl)

theorem readTail_badTag (layout : Layout) {tag : UInt8} (h0 : tag ≠ 0) (h1 : tag ≠ 1)
    (rest : List UInt8) : layout.readTail (tag :: rest) = .error (.badTag tag) :=
  bind_readOptionalWord_of_badTag h0 h1 rest

theorem readTail_none (layout : Layout) {rest : List UInt8} (h : rest.length < 8) :
    layout.readTail (0 :: rest) = .error .unexpectedEnd := by
  have htag : Reads readOptionalWord (optionalWord none) none := reads_optionalWord nofun
  have hrest : (readWord >>= fun imageLen => pure { layout with payloadLen := none, imageLen } :
      Reader Layout) rest = .error .unexpectedEnd := bind_of_error (readWord_of_lt h)
  rw [← hrest]
  exact htag.bind_eq rest

theorem readTail_some (layout : Layout) {rest : List UInt8} (h : rest.length < 16) :
    layout.readTail (1 :: rest) = .error .unexpectedEnd := by
  rcases Nat.lt_or_ge rest.length 8 with hshort | hlong
  · apply bind_of_error
    have htag : (readByte : Reader UInt8) (1 :: rest) = .ok (1, rest) := rfl
    have hword : (readWord >>= fun n => pure (some n) : Reader (Option Nat)) rest =
        .error .unexpectedEnd := bind_of_error (readWord_of_lt hshort)
    rw [← hword]
    rfl
  · obtain ⟨len, rest, hlen, rfl⟩ := exists_word hlong
    rw [List.length_append, length_word] at h
    have hpayload : Reads readOptionalWord (1 :: word len) (some len) :=
      reads_optionalWord fun n hn => Option.some.inj hn ▸ hlen
    have hrest : (readWord >>= fun imageLen => pure { layout with payloadLen := some len, imageLen } :
        Reader Layout) rest = .error .unexpectedEnd := bind_of_error (readWord_of_lt (by omega))
    rw [← hrest]
    exact hpayload.bind_eq rest

/-! ## What bytes begin with -/

/-- What bytes can begin with, and what they are read as. -/
inductive Found (bytes : List UInt8) : Except RecordError Layout → Prop
  | record {layout : Layout} (words : layout.Words) (h : layout.toRecord <+: bytes) :
    Found bytes (.ok layout)
  | badTag {tag} (h : bytes[32]? = some tag) (h0 : tag ≠ 0) (h1 : tag ≠ 1) :
    Found bytes (.error (.badTag tag))
  /-- The bytes end before the tag. -/
  | untagged (h : bytes.length ≤ 32) : Found bytes (.error .unexpectedEnd)
  /-- The tag says that there is no payload, and the bytes end too early behind it. -/
  | bare (h : bytes[32]? = some 0) (hshort : bytes.length < 41) : Found bytes (.error .unexpectedEnd)
  /-- The tag says that there is a payload, and the bytes end too early behind it. -/
  | loaded (h : bytes[32]? = some 1) (hshort : bytes.length < 49) : Found bytes (.error .unexpectedEnd)

variable {bytes : List UInt8} {answer : Except RecordError Layout}

/-- The tag is the first byte behind the header. -/
theorem exists_tagged {tag : UInt8} (h : bytes[32]? = some tag) :
    ∃ (layout : Layout) (rest : List UInt8), layout.HeaderWords ∧
      bytes = layout.header ++ tag :: rest := by
  obtain ⟨hlt, -⟩ := List.getElem?_eq_some_iff.1 h
  obtain ⟨layout, tail, hwords, rfl⟩ := exists_header (Nat.le_of_lt hlt)
  rw [List.getElem?_append_right (Nat.le_of_eq layout.length_header), length_header, Nat.sub_self] at h
  obtain ⟨rest, rfl⟩ : ∃ rest, tail = tag :: rest := by
    cases tail with
    | nil => cases h
    | cons b rest => exact ⟨rest, by rw [Option.some.inj h]⟩
  exact ⟨layout, rest, hwords, rfl⟩

theorem ofRecord_of_error {error : RecordError} (h : Layout.read bytes = .error error) :
    ofRecord bytes = .error error := by
  simp only [ofRecord, StateT.run, h, Except.map]

theorem Found.ofRecord_eq (h : Found bytes answer) : ofRecord bytes = answer := by
  cases h with
  | record words h =>
    obtain ⟨rest, rfl⟩ := h
    exact ofRecord_toRecord words rest
  | badTag h h0 h1 =>
    obtain ⟨layout, rest, hwords, rfl⟩ := exists_tagged h
    exact ofRecord_of_error ((read_header hwords _).trans (layout.readTail_badTag h0 h1 rest))
  | untagged h => exact ofRecord_of_error (read_of_le h)
  | bare h hshort =>
    obtain ⟨layout, rest, hwords, rfl⟩ := exists_tagged h
    rw [List.length_append, length_header, List.length_cons] at hshort
    exact ofRecord_of_error ((read_header hwords _).trans (layout.readTail_none (by omega)))
  | loaded h hshort =>
    obtain ⟨layout, rest, hwords, rfl⟩ := exists_tagged h
    rw [List.length_append, length_header, List.length_cons] at hshort
    exact ofRecord_of_error ((read_header hwords _).trans (layout.readTail_some (by omega)))

/-- Behind a tag and enough bytes there is a record. -/
theorem found_record_of_tail {layout : Layout} {payloadLen : Option Nat} {rest : List UInt8}
    (hwords : layout.HeaderWords) (hpayload : ∀ len, payloadLen = some len → len < wordLimit)
    (hlong : 8 ≤ rest.length) :
    ∃ answer, Found (layout.header ++ (optionalWord payloadLen ++ rest)) answer := by
  obtain ⟨imageLen, rest, himage, rfl⟩ := exists_word hlong
  refine ⟨.ok { layout with payloadLen, imageLen }, .record ?_ ⟨rest, ?_⟩⟩
  · exact ⟨hwords.sectorSize, hwords.bootSectorLen, hwords.extensionLen, hwords.payloadOffset,
      hpayload, himage⟩
  · simp only [toRecord_eq, header, List.append_assoc]

theorem exists_found (bytes : List UInt8) : ∃ answer, Found bytes answer := by
  rcases Nat.lt_or_ge 32 bytes.length with hlong | hshort
  · have htag : bytes[32]? = some bytes[32] := List.getElem?_eq_getElem hlong
    generalize bytes[32] = tag at htag
    by_cases h0 : tag = 0
    · subst h0
      rcases Nat.lt_or_ge bytes.length 41 with hend | hend
      · exact ⟨_, .bare htag hend⟩
      · obtain ⟨layout, rest, hwords, rfl⟩ := exists_tagged htag
        rw [List.length_append, length_header, List.length_cons] at hend
        exact @found_record_of_tail layout none rest hwords nofun (by omega)
    · by_cases h1 : tag = 1
      · subst h1
        rcases Nat.lt_or_ge bytes.length 49 with hend | hend
        · exact ⟨_, .loaded htag hend⟩
        · obtain ⟨layout, rest, hwords, rfl⟩ := exists_tagged htag
          rw [List.length_append, length_header, List.length_cons] at hend
          obtain ⟨len, rest, hlen, rfl⟩ := exists_word (by omega : 8 ≤ rest.length)
          rw [List.length_append, length_word] at hend
          exact @found_record_of_tail layout (some len) rest hwords
            (fun n hn => Option.some.inj hn ▸ hlen) (by omega)
      · exact ⟨_, .badTag htag h0 h1⟩
  · exact ⟨_, .untagged hshort⟩

/-- Bytes are read as what they begin with. -/
theorem found_iff : Found bytes answer ↔ ofRecord bytes = answer := by
  refine ⟨Found.ofRecord_eq, ?_⟩
  rintro rfl
  obtain ⟨answer, h⟩ := exists_found bytes
  rwa [h.ofRecord_eq]

/-- No record begins with another. -/
theorem eq_of_toRecord_begins {layout other : Layout} (h : layout.Words) (h' : other.Words)
    (hle : other.toRecord <+: layout.toRecord) : other = layout := by
  have hother : ofRecord layout.toRecord = .ok other := (Found.record h' hle).ofRecord_eq
  have hlayout : ofRecord layout.toRecord = .ok layout :=
    (Found.record h (List.prefix_refl _)).ofRecord_eq
  exact Except.ok.inj (hother.symm.trans hlayout)

theorem ofRecord_eq_badTag_iff {tag : UInt8} :
    ofRecord bytes = .error (.badTag tag) ↔ bytes[32]? = some tag ∧ tag ≠ 0 ∧ tag ≠ 1 := by
  rw [← found_iff]
  constructor
  · intro h
    cases h with
    | badTag h h0 h1 => exact ⟨h, h0, h1⟩
  · rintro ⟨h, h0, h1⟩
    exact .badTag h h0 h1

theorem ofRecord_eq_unexpectedEnd_iff :
    ofRecord bytes = .error .unexpectedEnd ↔ bytes.length ≤ 32 ∨
      bytes[32]? = some 0 ∧ bytes.length < 41 ∨ bytes[32]? = some 1 ∧ bytes.length < 49 := by
  rw [← found_iff]
  constructor
  · intro h
    cases h with
    | untagged h => exact .inl h
    | bare h hshort => exact .inr (.inl ⟨h, hshort⟩)
    | loaded h hshort => exact .inr (.inr ⟨h, hshort⟩)
  · rintro (h | ⟨h, hshort⟩ | ⟨h, hshort⟩)
    · exact .untagged h
    · exact .bare h hshort
    · exact .loaded h hshort

/-- The record of a layout of words is its numbers in their order, each in eight bytes with the lowest in
front, and a tag before the length of the payload. It is read as that layout, whatever follows it, and it
begins with no other record. Whatever is read as a layout begins with its record. Bytes are refused for
their tag if there is one that is neither 0 nor 1, however many bytes follow, and otherwise only if they
end before the tag or before the length that the tag asks for. -/
theorem record_exact {layout : Layout} (h : layout.Words) (bytes : List UInt8) :
    layout.toRecord.length = (if layout.payloadLen.isSome then 49 else 41) ∧
      layout.toRecord[32]? = some (if layout.payloadLen.isSome then 1 else 0) ∧
      (∀ number ∈ layout.numbers, (layout.toRecord.drop number.1).take 8 =
        (List.range 8).map fun i => UInt8.ofNat (number.2 / Nat.pow 256 i)) ∧
      (∀ rest, ofRecord (layout.toRecord ++ rest) = .ok layout) ∧
      (∀ other : Layout, other.Words →
        (other.toRecord <+: layout.toRecord ∨ layout.toRecord <+: other.toRecord) → other = layout) ∧
      (∀ read, ofRecord bytes = .ok read → read.Words ∧ read.toRecord <+: bytes) ∧
      (∀ tag, ofRecord bytes = .error (.badTag tag) ↔ bytes[32]? = some tag ∧ tag ≠ 0 ∧ tag ≠ 1) ∧
      (ofRecord bytes = .error .unexpectedEnd ↔ bytes.length ≤ 32 ∨
        bytes[32]? = some 0 ∧ bytes.length < 41 ∨ bytes[32]? = some 1 ∧ bytes.length < 49) := by
  refine ⟨length_toRecord layout, getElem?_toRecord layout, ?_, ofRecord_toRecord h, ?_, ?_, ?_,
    ofRecord_eq_unexpectedEnd_iff⟩
  · intro number hnumber
    rw [word_of_mem_numbers hnumber, word, littleEndian_eq_map]
  · rintro other h' (hle | hle)
    · exact eq_of_toRecord_begins h h' hle
    · exact (eq_of_toRecord_begins h' h hle).symm
  · intro read hread
    cases found_iff.2 hread with
    | record words hprefix => exact ⟨words, hprefix⟩
  · intro tag
    exact ofRecord_eq_badTag_iff

/-- The largest numbers there are, with a payload; and a record cut off behind a tag that is none. -/
theorem record_exact_largest :
    ∃ layout : Layout, layout.Words ∧ layout.payloadLen = some (wordLimit - 1) ∧
      layout.toRecord.length = 49 ∧ ofRecord (layout.toRecord ++ [7]) = .ok layout ∧
      ofRecord (List.replicate 33 2) = .error (.badTag 2) := by
  let layout : Layout := ⟨wordLimit - 1, wordLimit - 1, wordLimit - 1, wordLimit - 1,
    some (wordLimit - 1), wordLimit - 1⟩
  have hlast : wordLimit - 1 < wordLimit := by decide
  have hwords : layout.Words :=
    ⟨hlast, hlast, hlast, hlast, fun n hn => Option.some.inj hn ▸ hlast, hlast⟩
  obtain ⟨hlength, -, -, hread, -, -, htag, -⟩ := record_exact hwords (List.replicate 33 2)
  exact ⟨layout, hwords, rfl, hlength, hread [7], (htag 2).2 ⟨rfl, by decide, by decide⟩⟩

end Layout

end BootImage
