import BootImage.Layout
/-!
# Disk images

`Image.assemble` lays loader and kernel over zeros as a `Layout` says. It reads and writes no
file. `Image.sectors` cuts the result into the blocks a disk is written in.
-/

namespace BootImage

/-- An assembled image: its bytes, and where its regions lie in them. -/
structure Image where
  bytes : List UInt8
  layout : Layout
deriving DecidableEq, Repr

/-! ## Runs of bytes -/

namespace Bytes

/-- So many zero bytes, fewer than any buffer may hold. -/
def zeros (len : Nat) : Except Fault (List UInt8) :=
  if len < lengthLimit then .ok (List.replicate len 0) else .error .capacity

/-- The bytes from `start` up to `stop`, which have to exist. -/
def slice (bytes : Array UInt8) (start stop : Nat) : Except Fault (List UInt8) :=
  if start ≤ stop ∧ stop ≤ bytes.size then
    .ok (bytes.extract start stop).toList
  else
    .error .outOfRange

/-- The bytes with `data` in place of what was at `start`; `data` has to fit inside. -/
def overlay (bytes : List UInt8) (start : Nat) (data : List UInt8) : Except Fault (List UInt8) := do
  let stop ← Word.add start data.length
  if stop ≤ bytes.length then
    return bytes.take start ++ data ++ bytes.drop stop
  else
    throw .outOfRange

/-- The first `count` pieces of `size` bytes. -/
def pieces (size : Nat) : (count : Nat) → List UInt8 → List (List UInt8)
  | 0, _ => []
  | count + 1, bytes => bytes.take size :: pieces size count (bytes.drop size)

end Bytes

/-! ## Assembly -/

namespace Image

/-- The image of a loader and an optional kernel. What neither of them covers is zero. -/
def assemble (boot : List UInt8) (kernel : Option (List UInt8)) (config : Config) :
    Except (Failure AssemblyError) Image := do
  let layout ← Layout.compute boot.length (kernel.map List.length) config
  let blank ← Bytes.zeros layout.imageLen
  let loaded ← Bytes.overlay blank 0 boot
  match kernel with
  | none => return { bytes := loaded, layout }
  | some payload =>
    let bytes ← Bytes.overlay loaded layout.payloadOffset payload
    return { bytes, layout }

/-- The image in sectors. Bytes that do not fill a sector are left out. -/
def sectors (image : Image) : Except Fault (List (List UInt8)) := do
  let count ← Word.div image.bytes.length image.layout.sectorSize
  return Bytes.pieces image.layout.sectorSize count image.bytes

end Image

end BootImage
