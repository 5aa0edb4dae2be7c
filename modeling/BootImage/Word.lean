import BootImage.Fault
/-!
# Machine words

Sizes and offsets are natural numbers. Where one of them has to fit a 64-bit word, the operation
that computes it says so: `add`, `mul` and `div` fault, `add?` and `alignUp` answer `none`.
-/

namespace BootImage

/-- The first number that does not fit a word. -/
def wordLimit : Nat := Nat.pow 2 64

/-- Buffers and files are shorter than this many bytes. -/
def lengthLimit : Nat := Nat.pow 2 63

namespace Word

/-- The sum, if it fits a word. -/
def add? (a b : Nat) : Option Nat :=
  if a + b < wordLimit then some (a + b) else none

/-- The sum, which has to fit a word. -/
def add (a b : Nat) : Except Fault Nat :=
  if a + b < wordLimit then .ok (a + b) else .error .overflow

/-- The product, which has to fit a word. -/
def mul (a b : Nat) : Except Fault Nat :=
  if a * b < wordLimit then .ok (a * b) else .error .overflow

/-- The quotient rounded down; the divisor has to be positive. -/
def div (a b : Nat) : Except Fault Nat :=
  if b = 0 then .error .divisionByZero else .ok (a / b)

/-- The least multiple of `align` that is not below `len`, or `none` if it does not fit a word.
An alignment of zero has no multiples to choose from. -/
def alignUp (len align : Nat) : Except Fault (Option Nat) :=
  if align = 0 then
    .error .divisionByZero
  else
    let multiple := (len + align - 1) / align * align
    .ok (if multiple < wordLimit then some multiple else none)

/-- Whether the number is 1, 2, 4, 8, … -/
def isPowerOfTwo (n : Nat) : Bool :=
  n == Nat.pow 2 n.log2

end Word

end BootImage
