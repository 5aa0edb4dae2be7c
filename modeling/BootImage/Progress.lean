/-!
# Progress

How far a task is, in steps of equal size.
-/

namespace BootImage

/-- How far a task is. The length is unknown until it has been set. -/
structure Progress where
  position : Nat
  length : Option Nat
deriving DecidableEq, Repr

namespace Progress

/-- A task of unknown length that has not begun. -/
def fresh : Progress := ⟨0, none⟩

/-- The same position in a task of known length. -/
def ofLength (progress : Progress) (length : Nat) : Progress :=
  { progress with length := some length }

/-- One step further. -/
def advance (progress : Progress) : Progress :=
  { progress with position := progress.position + 1 }

end Progress

end BootImage
