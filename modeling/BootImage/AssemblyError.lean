/-!
# Errors of the assembly

What an image can be refused for, before anything is allocated or written for it.
-/

namespace BootImage

/-- Why an image cannot be assembled. Trying again with the same inputs does not help. -/
inductive AssemblyError
  /-- The loader has no bytes. -/
  | emptyLoader
  /-- The loader exceeds its ceiling. -/
  | oversizedLoader (size max : Nat)
  /-- The image exceeds its ceiling. A size too large for a word is given as the largest word. -/
  | oversizedImage (size max : Nat)
  /-- The parameters contradict each other. -/
  | invalidConfig (reason : String)
deriving DecidableEq, Repr

/-- The one-line text of an error. -/
def AssemblyError.message : AssemblyError → String
  | .emptyLoader => "Bootloader is empty: an image needs boot sector content"
  | .oversizedLoader size max =>
    "Bootloader is " ++ toString size ++ " bytes, exceeding the loader region limit of " ++
      toString max ++ " bytes"
  | .oversizedImage size max =>
    "Image would be " ++ toString size ++ " bytes, exceeding the maximum image size of " ++
      toString max ++ " bytes"
  | .invalidConfig reason => "Invalid layout configuration: " ++ reason

end BootImage
