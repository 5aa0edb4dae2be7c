import BootImage.AssemblyError
import BootImage.Word
/-!
# Layout parameters

A `Config` says how large a sector and the boot sector are, and how much room the loader and the
whole image may take. `Config.flaw?` finds the first reason why no image can be built with it.
-/

namespace BootImage

/-- The parameters of a layout, all in bytes. -/
structure Config where
  /-- Disks are addressed in sectors of this size. -/
  sectorSize : Nat := 512
  /-- How much of the image the firmware loads and runs first. -/
  bootSectorLen : Nat := 512
  /-- Ceiling of the loader: the boot sector and its extension. -/
  maxLoaderSize : Nat := 64 * 512
  /-- Ceiling of the whole image. -/
  maxImageSize : Nat := 16 * 1024 * 1024
deriving DecidableEq, Repr

/-- A contradiction between parameters. -/
inductive ConfigFlaw
  | sectorSizeNotPowerOfTwo (sectorSize : Nat)
  | emptyBootSector
  | loaderCeilingBelowBootSector (maxLoaderSize bootSectorLen : Nat)
deriving DecidableEq, Repr

/-- The flaw in words. -/
def ConfigFlaw.reason : ConfigFlaw → String
  | .sectorSizeNotPowerOfTwo sectorSize =>
    "sector size " ++ toString sectorSize ++ " is not a non-zero power of two"
  | .emptyBootSector => "boot sector length must be non-zero"
  | .loaderCeilingBelowBootSector maxLoaderSize bootSectorLen =>
    "max loader size " ++ toString maxLoaderSize ++ " is smaller than the boot sector (" ++
      toString bootSectorLen ++ " bytes)"

namespace Config

/-- The first flaw, in the order sector size, boot sector, loader ceiling. -/
def flaw? (config : Config) : Option ConfigFlaw :=
  if !Word.isPowerOfTwo config.sectorSize then
    some (.sectorSizeNotPowerOfTwo config.sectorSize)
  else if config.bootSectorLen = 0 then
    some .emptyBootSector
  else if config.maxLoaderSize < config.bootSectorLen then
    some (.loaderCeilingBelowBootSector config.maxLoaderSize config.bootSectorLen)
  else
    none

/-- Refuses a configuration with a flaw. -/
def validate (config : Config) : Except AssemblyError Unit :=
  match config.flaw? with
  | some flaw => .error (.invalidConfig flaw.reason)
  | none => .ok ()

/-- Rounds a length up to a sector boundary. -/
def align (config : Config) (len : Nat) : Except Fault (Option Nat) :=
  Word.alignUp len config.sectorSize

end Config

end BootImage
