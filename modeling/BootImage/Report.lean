import BootImage.Layout
/-!
# Assembly report

What a finished build tells about its image, as numbers and as text.
-/

namespace BootImage

/-- The summary of an image. -/
structure Report where
  imageSize : Nat
  sectorSize : Nat
  sectorCount : Nat
  bootSectorLen : Nat
  extensionLen : Nat
  payloadOffset : Nat
  payloadSector : Nat
  payloadLen : Option Nat
deriving DecidableEq, Repr

namespace Report

/-- The summary of an image with the given layout. -/
def ofLayout (layout : Layout) : Except Fault Report := do
  let sectorCount ← layout.sectorCount
  let payloadSector ← layout.payloadSector
  return {
    imageSize := layout.imageLen
    sectorSize := layout.sectorSize
    sectorCount
    bootSectorLen := layout.bootSectorLen
    extensionLen := layout.extensionLen
    payloadOffset := layout.payloadOffset
    payloadSector
    payloadLen := layout.payloadLen
  }

/-- The last line, about the payload. -/
def payloadLine (report : Report) : String :=
  match report.payloadLen with
  | some len =>
    "Payload: " ++ toString len ++ " Bytes at offset " ++ toString report.payloadOffset ++
      " (sector " ++ toString report.payloadSector ++ ")"
  | none => "Payload: none (ends at offset " ++ toString report.payloadOffset ++ ")"

/-- The report as five lines, without a newline at the end. -/
def text (report : Report) : String :=
  "[MKFS REPORT]\n" ++
  "Size: " ++ toString report.imageSize ++ " Bytes (" ++ toString report.sectorCount ++ " x " ++
    toString report.sectorSize ++ " B sectors)\n" ++
  "Boot sector: " ++ toString report.bootSectorLen ++ " Bytes\n" ++
  "Loader extension: " ++ toString report.extensionLen ++ " Bytes\n" ++
  report.payloadLine

end Report

end BootImage
