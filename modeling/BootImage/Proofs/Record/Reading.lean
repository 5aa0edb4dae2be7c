import BootImage.Record
/-!
# Reading what was written

A reader `Reads` a value from some bytes if it finds the value in front of whatever follows them. Such
readers can be put one after the other (`Record.Reads.bind`), so a record of words is read back field
by field. `Layout.ofRecord_toRecord` is the result for layouts whose fields are words.
-/

namespace BootImage

namespace Record

/-! ## Words -/

theorem length_littleEndian (width n : Nat) : (littleEndian width n).length = width := by
  induction width generalizing n with
  | zero => rfl
  | succ width ih => rw [littleEndian, List.length_cons, ih]

theorem ofLittleEndian_littleEndian {width n : Nat} (h : n < Nat.pow 256 width) :
    ofLittleEndian (littleEndian width n) = n := by
  induction width generalizing n with
  | zero =>
    have hzero : n = 0 := Nat.lt_one_iff.1 h
    rw [hzero]
    rfl
  | succ width ih =>
    have hquotient : n / 256 < Nat.pow 256 width :=
      Nat.div_lt_of_lt_mul (Nat.mul_comm _ _ ▸ h)
    have hbyte : (UInt8.ofNat n).toNat = n % 256 := UInt8.toNat_ofNat'
    rw [littleEndian, ofLittleEndian, ih hquotient, hbyte]
    exact Nat.mod_add_div n 256

/-! ## Readers -/

/-- The reader finds the value in the bytes and leaves what follows them. -/
def Reads {α : Type} (reader : Reader α) (bytes : List UInt8) (value : α) : Prop :=
  ∀ rest, reader (bytes ++ rest) = .ok (value, rest)

namespace Reads

variable {α β : Type}

theorem pure (value : α) : Reads (Pure.pure value) [] value :=
  fun _ => rfl

theorem bind {reader : Reader α} {next : α → Reader β} {bytes more : List UInt8} {value : α}
    {result : β} (h : Reads reader bytes value) (h' : Reads (next value) more result) :
    Reads (reader >>= next) (bytes ++ more) result := by
  intro rest
  have hfirst : reader (bytes ++ (more ++ rest)) = .ok (value, more ++ rest) := h (more ++ rest)
  rw [List.append_assoc]
  simp only [Bind.bind, StateT.bind, Except.bind, hfirst]
  exact h' rest

/-- A value made from what was read. -/
theorem map {reader : Reader α} {f : α → β} {bytes : List UInt8} {value : α}
    (h : Reads reader bytes value) :
    Reads (do let a ← reader; Pure.pure (f a)) bytes (f value) := by
  have hboth : Reads (reader >>= fun a => Pure.pure (f a)) (bytes ++ []) (f value) :=
    bind h (pure (f value))
  rwa [List.append_nil] at hboth

end Reads

theorem reads_word {n : Nat} (h : n < wordLimit) : Reads readWord (word n) n := by
  intro rest
  have hlength : (word n).length = 8 := length_littleEndian 8 n
  have hlong : ¬ (word n ++ rest).length < 8 := by
    rw [List.length_append]
    omega
  have hvalue : ofLittleEndian (word n) = n := @ofLittleEndian_littleEndian 8 n h
  rw [readWord, if_neg hlong, List.take_left' hlength, List.drop_left' hlength, hvalue]

theorem reads_byte (byte : UInt8) : Reads readByte [byte] byte :=
  fun _ => rfl

theorem reads_optionalWord {value : Option Nat} (h : ∀ n, value = some n → n < wordLimit) :
    Reads readOptionalWord (optionalWord value) value := by
  cases value with
  | none => exact (reads_byte 0).bind (Reads.pure none)
  | some n => exact (reads_byte 1).bind (reads_word (h n rfl)).map

end Record

namespace Layout

open Record

/-- All numbers of the layout fit a word. -/
structure Words (layout : Layout) : Prop where
  sectorSize : layout.sectorSize < wordLimit
  bootSectorLen : layout.bootSectorLen < wordLimit
  extensionLen : layout.extensionLen < wordLimit
  payloadOffset : layout.payloadOffset < wordLimit
  payloadLen : ∀ len, layout.payloadLen = some len → len < wordLimit
  imageLen : layout.imageLen < wordLimit

theorem reads_toRecord {layout : Layout} (h : layout.Words) :
    Reads Layout.read layout.toRecord layout := by
  unfold Layout.read toRecord
  simp only [List.append_assoc]
  apply (reads_word h.sectorSize).bind
  apply (reads_word h.bootSectorLen).bind
  apply (reads_word h.extensionLen).bind
  apply (reads_word h.payloadOffset).bind
  apply (reads_optionalWord h.payloadLen).bind
  exact (reads_word h.imageLen).map

/-- The record of a layout gives the layout back, whatever follows it. -/
theorem ofRecord_toRecord {layout : Layout} (h : layout.Words) (rest : List UInt8) :
    ofRecord (layout.toRecord ++ rest) = .ok layout := by
  have hread : Layout.read (layout.toRecord ++ rest) = .ok (layout, rest) := reads_toRecord h rest
  simp [ofRecord, StateT.run, hread, Except.map]

end Layout

end BootImage
