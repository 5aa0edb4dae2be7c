import BootImage.Config
/-!
# Image layout

The regions of an image, as byte offsets:

```text
| boot sector | loader extension | pad | payload | pad |
0             bootSectorLen            payloadOffset   imageLen
```

`Layout.compute` places them from the lengths of the inputs alone and makes every size check, so
that nothing is allocated or written for an image that does not fit.
-/

namespace BootImage

/-- Where the regions of an image lie, in bytes. -/
structure Layout where
  sectorSize : Nat
  bootSectorLen : Nat
  /-- How far the loader reaches beyond the boot sector. -/
  extensionLen : Nat
  payloadOffset : Nat
  /-- The length of the kernel; `none` if the image has none. -/
  payloadLen : Option Nat
  imageLen : Nat
deriving DecidableEq, Repr

namespace Layout

/-- The refusal of an image that ends beyond the last word, and so beyond every ceiling. -/
def beyondWords (config : Config) : Failure AssemblyError :=
  .error (.oversizedImage (wordLimit - 1) config.maxImageSize)

/-- The first sector boundary that is not before an offset. -/
def boundary (offset : Nat) (config : Config) : Except (Failure AssemblyError) Nat :=
  match config.align offset with
  | .error fault => .error (.fault fault)
  | .ok (some aligned) => .ok aligned
  | .ok none => .error (beyondWords config)

/-- Where the image ends: at the first boundary behind the payload, or, without a kernel, where the
payload would start. -/
def imageEnd (payloadOffset : Nat) (kernelLen : Option Nat) (config : Config) :
    Except (Failure AssemblyError) Nat :=
  match kernelLen with
  | none => .ok payloadOffset
  | some len =>
    match Word.add? payloadOffset len with
    | none => .error (beyondWords config)
    | some payloadEnd => boundary payloadEnd config

/-- Refuses a loader that is empty or exceeds its ceiling. -/
def checkLoader (bootLen : Nat) (config : Config) : Except AssemblyError Unit :=
  if bootLen = 0 then .error .emptyLoader
  else if config.maxLoaderSize < bootLen then
    .error (.oversizedLoader bootLen config.maxLoaderSize)
  else .ok ()

/-- Refuses an image that exceeds its ceiling. -/
def checkImage (imageLen : Nat) (config : Config) : Except AssemblyError Unit :=
  if config.maxImageSize < imageLen then .error (.oversizedImage imageLen config.maxImageSize)
  else .ok ()

/-- The layout of an image with a loader of `bootLen` bytes and a kernel of `kernelLen` bytes.

The payload starts at the first sector boundary behind the loader (at least behind the boot
sector), and the image ends at the first one behind the payload. -/
def compute (bootLen : Nat) (kernelLen : Option Nat) (config : Config) :
    Except (Failure AssemblyError) Layout := do
  config.validate
  checkLoader bootLen config
  let extensionLen := bootLen - config.bootSectorLen
  -- The greater of the loader's length and the boot sector's.
  let loaderEnd ← Word.add config.bootSectorLen extensionLen
  let payloadOffset ← boundary loaderEnd config
  let imageLen ← imageEnd payloadOffset kernelLen config
  checkImage imageLen config
  return {
    sectorSize := config.sectorSize
    bootSectorLen := config.bootSectorLen
    extensionLen
    payloadOffset
    payloadLen := kernelLen
    imageLen
  }

/-- How many sectors the image has. -/
def sectorCount (layout : Layout) : Except Fault Nat :=
  Word.div layout.imageLen layout.sectorSize

/-- The sector at which the payload starts. -/
def payloadSector (layout : Layout) : Except Fault Nat :=
  Word.div layout.payloadOffset layout.sectorSize

end Layout

end BootImage
