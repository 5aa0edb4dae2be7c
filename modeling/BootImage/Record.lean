import BootImage.Layout
/-!
# Binary records

A record is the fields of a structure one after the other: a word is eight bytes, least
significant first, and an optional word is a tag byte, 0 for none and 1 for some, followed by the
word if there is one. Reading takes what it needs from the front and ignores what follows.
-/

namespace BootImage

/-- Why bytes are not a record. -/
inductive RecordError
  /-- The bytes end inside the record. -/
  | unexpectedEnd
  /-- The tag of an optional field is neither 0 nor 1. -/
  | badTag (tag : UInt8)
deriving DecidableEq, Repr

/-- The error in words. -/
def RecordError.message : RecordError → String
  | .unexpectedEnd => "io error: unexpected end of file"
  | .badTag tag => "tag for enum is not valid, found " ++ toString tag.toNat

namespace Record

/-! ## Words as bytes -/

/-- The `width` lowest bytes of a number, least significant first. -/
def littleEndian : (width : Nat) → Nat → List UInt8
  | 0, _ => []
  | width + 1, n => UInt8.ofNat n :: littleEndian width (n / 256)

/-- The number with the given bytes, least significant first. -/
def ofLittleEndian : List UInt8 → Nat
  | [] => 0
  | b :: bs => b.toNat + 256 * ofLittleEndian bs

/-- The eight bytes of a word. -/
def word (n : Nat) : List UInt8 :=
  littleEndian 8 n

/-- An optional word behind its tag. -/
def optionalWord : Option Nat → List UInt8
  | none => [0]
  | some n => 1 :: word n

/-! ## Reading -/

/-- Reads a value from the front of some bytes and leaves the rest. -/
abbrev Reader (α : Type) := StateT (List UInt8) (Except RecordError) α

/-- Reads one byte. -/
def readByte : Reader UInt8
  | [] => .error .unexpectedEnd
  | b :: rest => .ok (b, rest)

/-- Reads a word. -/
def readWord : Reader Nat := fun bytes =>
  if bytes.length < 8 then
    .error .unexpectedEnd
  else
    .ok (ofLittleEndian (bytes.take 8), bytes.drop 8)

/-- Reads an optional word; a bad tag is refused before anything behind it is looked at. -/
def readOptionalWord : Reader (Option Nat) := do
  let tag ← readByte
  if tag = 0 then
    return none
  else if tag = 1 then
    return some (← readWord)
  else
    throw (.badTag tag)

end Record

namespace Config

/-- The record of a configuration: four words. -/
def toRecord (config : Config) : List UInt8 :=
  Record.word config.sectorSize ++ Record.word config.bootSectorLen ++
    Record.word config.maxLoaderSize ++ Record.word config.maxImageSize

/-- Reads the four words of a configuration. -/
def read : Record.Reader Config := do
  let sectorSize ← Record.readWord
  let bootSectorLen ← Record.readWord
  let maxLoaderSize ← Record.readWord
  let maxImageSize ← Record.readWord
  return { sectorSize, bootSectorLen, maxLoaderSize, maxImageSize }

/-- The configuration whose record the bytes start with. -/
def ofRecord (bytes : List UInt8) : Except RecordError Config :=
  (read.run bytes).map Prod.fst

end Config

namespace Layout

/-- The record of a layout: its fields in order, the payload length being optional. -/
def toRecord (layout : Layout) : List UInt8 :=
  Record.word layout.sectorSize ++ Record.word layout.bootSectorLen ++
    Record.word layout.extensionLen ++ Record.word layout.payloadOffset ++
    Record.optionalWord layout.payloadLen ++ Record.word layout.imageLen

/-- Reads the fields of a layout. -/
def read : Record.Reader Layout := do
  let sectorSize ← Record.readWord
  let bootSectorLen ← Record.readWord
  let extensionLen ← Record.readWord
  let payloadOffset ← Record.readWord
  let payloadLen ← Record.readOptionalWord
  let imageLen ← Record.readWord
  return { sectorSize, bootSectorLen, extensionLen, payloadOffset, payloadLen, imageLen }

/-- The layout whose record the bytes start with. -/
def ofRecord (bytes : List UInt8) : Except RecordError Layout :=
  (read.run bytes).map Prod.fst

end Layout

end BootImage
