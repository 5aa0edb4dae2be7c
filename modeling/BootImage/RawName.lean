import BootImage.Staging
/-!
# Names that need not be text

The system takes any bytes but the slash and NUL for a name; a `Path` has those names that are text
in UTF-8. A `RawName` is a file name as the system has it. It is shown as text by putting a
replacement character for whatever in it is not UTF-8 (`RawName.readable`), and a staging file is
named after what is shown of its target, so the name of a staging file is text in any case.
-/

namespace BootImage

/-- A file name as the system has it. -/
abbrev RawName := List UInt8

namespace RawName

/-- The bytes of a name that is text. -/
def ofName (name : Name) : RawName :=
  name.flatMap String.utf8EncodeChar

/-- What is shown for bytes that are not UTF-8. -/
def replacement : Char := '\ufffd'

/-- Whether a byte can stand in a character behind its first byte. -/
def continues (byte : UInt8) : Bool :=
  0x80 ≤ byte && byte ≤ 0xbf

/-- Whether a byte can be the second of a character of three or four bytes. With some first bytes not
all can: the rest would be a longer form of a shorter character, a surrogate, or beyond all
characters. -/
def isSecond (first byte : UInt8) : Bool :=
  if first = 0xe0 then 0xa0 ≤ byte && byte ≤ 0xbf
  else if first = 0xed then 0x80 ≤ byte && byte ≤ 0x9f
  else if first = 0xf0 then 0x90 ≤ byte && byte ≤ 0xbf
  else if first = 0xf4 then 0x80 ≤ byte && byte ≤ 0x8f
  else continues byte

/-- How many bytes behind `first` are replaced together with it where no character can be read: those
that a character could have gone on with, so that a character that breaks off is replaced as one. -/
def brokenOff (first : UInt8) : (rest : List UInt8) → Nat
  | [] => 0
  | second :: rest =>
    if 0xe0 ≤ first && first ≤ 0xf4 && isSecond first second then
      if 0xf0 ≤ first && rest.head?.any continues then 2 else 1
    else
      0

/-- What is shown of a name: its characters, and a replacement for all else. -/
def readable : (bytes : RawName) → Name
  | [] => []
  | first :: rest =>
    match (first :: rest).toByteArray.utf8DecodeChar? 0 with
    | some c => c :: readable (rest.drop (c.utf8Size - 1))
    | none => replacement :: readable (rest.drop (brokenOff first rest))
termination_by bytes => bytes.length

/-- The staging file of a target with that file name in a directory: beside it, and named after what is
shown of its name. -/
def staging (directory : Path) (name : RawName) (tag : Uuid) : Path :=
  directory.join (name.readable ++ Path.stagingSuffix tag)

end RawName

end BootImage
