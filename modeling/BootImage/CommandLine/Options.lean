import BootImage.Config
import BootImage.Path
/-!
# Options of the command line

Every option by what it stands for, with the spellings that name it. Options with a value take a
path or a size; flags take none.
-/

namespace BootImage

/-- What a build is asked to do. -/
structure Options where
  /-- The loader to read. -/
  boot : Path
  /-- The kernel to read, if the image gets one. -/
  kernel : Option Path
  /-- Where the image goes. -/
  output : Path
  /-- Where the record of the layout goes, if it is wanted. -/
  layout : Option Path
  /-- Whether the image is read back and compared before it is committed. -/
  verify : Bool
  /-- Whether only errors are printed. -/
  quiet : Bool
  config : Config
deriving DecidableEq, Repr

namespace CommandLine

/-- An option whose value is a path. -/
inductive PathOption
  | boot
  | kernel
  | output
  | layout
deriving DecidableEq, Repr

/-- An option whose value is a size in bytes. -/
inductive SizeOption
  | sectorSize
  | bootSectorLen
  | maxLoaderSize
  | maxImageSize
deriving DecidableEq, Repr

/-- An option that takes a value. -/
inductive ValueOption
  | path (option : PathOption)
  | size (option : SizeOption)
deriving DecidableEq, Repr

/-- An option without a value. -/
inductive Flag
  | verify
  | quiet
deriving DecidableEq, Repr

/-- What the name of an option stands for. -/
inductive Switch
  | value (option : ValueOption)
  | flag (flag : Flag)
  | help
  | version
deriving DecidableEq, Repr

/-- The switch of a name written after two dashes. -/
def longNames : List (String × Switch) := [
  ("boot", .value (.path .boot)),
  ("kernel", .value (.path .kernel)),
  ("source", .value (.path .kernel)),
  ("output", .value (.path .output)),
  ("sector-size", .value (.size .sectorSize)),
  ("boot-sector-len", .value (.size .bootSectorLen)),
  ("max-loader-size", .value (.size .maxLoaderSize)),
  ("max-image-size", .value (.size .maxImageSize)),
  ("layout", .value (.path .layout)),
  ("verify", .flag .verify),
  ("quiet", .flag .quiet),
  ("help", .help),
  ("version", .version)]

/-- The switch of a letter written after one dash. -/
def shortNames : List (Char × Switch) := [
  ('b', .value (.path .boot)),
  ('k', .value (.path .kernel)),
  ('s', .value (.path .kernel)),
  ('o', .value (.path .output)),
  ('q', .flag .quiet),
  ('h', .help),
  ('V', .version)]

/-- The switch of a long name. Names are not abbreviated. -/
def long? (name : List Char) : Option Switch :=
  (longNames.find? (·.1.toList = name)).map Prod.snd

/-- The switch of a letter. -/
def short? (letter : Char) : Option Switch :=
  (shortNames.find? (·.1 = letter)).map Prod.snd

/-- How messages name an option that takes a value. -/
def ValueOption.display : ValueOption → String
  | .path .boot => "--boot <BOOT>"
  | .path .kernel => "--kernel <KERNEL>"
  | .path .output => "--output <OUTPUT>"
  | .path .layout => "--layout <PATH>"
  | .size .sectorSize => "--sector-size <SECTOR_SIZE>"
  | .size .bootSectorLen => "--boot-sector-len <BOOT_SECTOR_LEN>"
  | .size .maxLoaderSize => "--max-loader-size <MAX_LOADER_SIZE>"
  | .size .maxImageSize => "--max-image-size <MAX_IMAGE_SIZE>"

/-- How messages name a switch. -/
def Switch.display : Switch → String
  | .value option => option.display
  | .flag .verify => "--verify"
  | .flag .quiet => "--quiet"
  | .help => "--help"
  | .version => "--version"

end CommandLine

end BootImage
