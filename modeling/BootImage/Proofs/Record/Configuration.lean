import BootImage.Proofs.Layout.Regions
import BootImage.Proofs.Record.Decoding
/-!
# Records of configurations

The record of a configuration is its four numbers, each in eight bytes, and nothing else. Any thirty-two
bytes are such a record, whether or not an image can be built with the parameters, and what follows them is
not looked at (`Config.codec_exact`).
-/

namespace BootImage

namespace Config

open Record

/-! ## The record -/

theorem length_toRecord (config : Config) : config.toRecord.length = 32 := by
  simp [toRecord, length_word]

/-- The numbers in the record of a configuration, each with the offset of its first byte. -/
def numbers (config : Config) : List (Nat × Nat) :=
  [(0, config.sectorSize), (8, config.bootSectorLen), (16, config.maxLoaderSize),
    (24, config.maxImageSize)]

theorem word_of_mem_numbers {config : Config} {number : Nat × Nat} (h : number ∈ config.numbers) :
    (config.toRecord.drop number.1).take 8 = word number.2 := by
  unfold numbers at h
  unfold toRecord
  simp only [List.mem_cons, List.not_mem_nil, or_false] at h
  rcases h with rfl | rfl | rfl | rfl <;>
    simp [List.drop_append, List.drop_eq_nil_of_le, List.take_of_length_le, length_word]

/-! ## Reading -/

theorem reads_toRecord {config : Config} (h : config.Words) :
    Reads Config.read config.toRecord config := by
  unfold Config.read toRecord
  simp only [List.append_assoc]
  apply (reads_word h.sectorSize).bind
  apply (reads_word h.bootSectorLen).bind
  apply (reads_word h.maxLoaderSize).bind
  exact (reads_word h.maxImageSize).map

/-- The record of a configuration gives the configuration back, whatever follows it. -/
theorem ofRecord_toRecord {config : Config} (h : config.Words) (rest : List UInt8) :
    ofRecord (config.toRecord ++ rest) = .ok config := by
  have hread : Config.read (config.toRecord ++ rest) = .ok (config, rest) := reads_toRecord h rest
  simp [ofRecord, StateT.run, hread, Except.map]

variable {bytes : List UInt8}

/-- Where a record is cut off, inside a number or between two of them, nothing is read. -/
theorem ofRecord_of_lt (h : bytes.length < 32) : ofRecord bytes = .error .unexpectedEnd := by
  have hread : Config.read bytes = .error .unexpectedEnd := by
    unfold Config.read
    apply bind_readWord_of_end
    rintro sectorSize rest rfl
    apply bind_readWord_of_end
    rintro bootSectorLen rest rfl
    apply bind_readWord_of_end
    rintro maxLoaderSize rest rfl
    -- Three words have been read, and less than a fourth is left.
    simp only [List.length_append, length_word] at h
    exact bind_of_error (readWord_of_lt (by omega))
  simp only [ofRecord, StateT.run, hread, Except.map]

/-- Any thirty-two bytes are a record. -/
theorem exists_record (h : 32 ≤ bytes.length) :
    ∃ config : Config, config.Words ∧ config.toRecord = bytes.take 32 ∧
      ofRecord bytes = .ok config := by
  obtain ⟨sectorSize, bootSectorLen, maxLoaderSize, maxImageSize, rest,
    ⟨hsectorSize, hbootSectorLen, hmaxLoaderSize, hmaxImageSize⟩, rfl⟩ := exists_fourWords h
  let config : Config := ⟨sectorSize, bootSectorLen, maxLoaderSize, maxImageSize⟩
  have hwords : config.Words := ⟨hsectorSize, hbootSectorLen, hmaxLoaderSize, hmaxImageSize⟩
  have hbytes : word sectorSize ++ (word bootSectorLen ++ (word maxLoaderSize ++
      (word maxImageSize ++ rest))) = config.toRecord ++ rest := by
    simp only [config, toRecord, List.append_assoc]
  rw [hbytes]
  exact ⟨config, hwords, (List.take_left' config.length_toRecord).symm, ofRecord_toRecord hwords rest⟩

theorem exists_ofRecord_eq_ok_iff :
    (∃ config, ofRecord bytes = .ok config) ↔ 32 ≤ bytes.length := by
  constructor
  · rintro ⟨config, hread⟩
    apply Nat.le_of_not_lt
    intro hshort
    rw [ofRecord_of_lt hshort] at hread
    cases hread
  · intro hlong
    obtain ⟨config, -, -, hread⟩ := exists_record hlong
    exact ⟨config, hread⟩

/-- What is read has been written there. -/
theorem toRecord_of_ofRecord {config : Config} (h : ofRecord bytes = .ok config) :
    config.Words ∧ config.toRecord = bytes.take 32 := by
  obtain ⟨found, hwords, hrecord, hread⟩ := exists_record (exists_ofRecord_eq_ok_iff.1 ⟨config, h⟩)
  obtain rfl : found = config := Except.ok.inj (hread.symm.trans h)
  exact ⟨hwords, hrecord⟩

/-- The record of parameters that are words, valid or not, is the four of them in their order, each in
eight bytes with the lowest in front. It is read as these parameters, whatever follows it. Bytes are read
as parameters just if there are thirty-two of them, and then the first thirty-two are their record;
otherwise they end too early. -/
theorem codec_exact {config : Config} (h : config.Words) (bytes : List UInt8) :
    config.toRecord.length = 32 ∧
      (∀ number ∈ config.numbers, (config.toRecord.drop number.1).take 8 =
        (List.range 8).map fun i => UInt8.ofNat (number.2 / Nat.pow 256 i)) ∧
      (∀ rest, ofRecord (config.toRecord ++ rest) = .ok config) ∧
      ((∃ read, ofRecord bytes = .ok read) ↔ 32 ≤ bytes.length) ∧
      (∀ read, ofRecord bytes = .ok read → read.Words ∧ read.toRecord = bytes.take 32) ∧
      (bytes.length < 32 → ofRecord bytes = .error .unexpectedEnd) := by
  refine ⟨config.length_toRecord, ?_, ofRecord_toRecord h, exists_ofRecord_eq_ok_iff,
    fun read => toRecord_of_ofRecord, ofRecord_of_lt⟩
  intro number hnumber
  rw [word_of_mem_numbers hnumber, word, littleEndian_eq_map]

/-- Parameters that no image can be built with, the largest word among them; and a record that ends one byte
too early. -/
theorem codec_exact_flawed :
    ∃ config : Config, config.Words ∧ config.flaw? ≠ none ∧
      ofRecord (config.toRecord ++ [7]) = .ok config ∧
      ofRecord (List.replicate 31 0) = .error .unexpectedEnd := by
  let config : Config := ⟨wordLimit - 1, 0, 258, 65536⟩
  have hwords : config.Words := by constructor <;> decide
  obtain ⟨-, -, hread, -, -, hshort⟩ := codec_exact hwords (List.replicate 31 0)
  exact ⟨config, hwords, by decide, hread [7], hshort (by decide)⟩

end Config

end BootImage
