import BootImage.Path
/-!
# Staging files

An image is first written beside its target, under the target's name with a random tag behind it,
and renamed when it is complete. Both names are in one directory, so that the rename never has to
copy between file systems.
-/

namespace BootImage

/-- Whether a character is a lower-case hexadecimal digit. -/
def isHexDigit (c : Char) : Bool :=
  ('0' ≤ c && c ≤ '9') || ('a' ≤ c && c ≤ 'f')

/-- A tag that tells files apart: thirty-two lower-case hexadecimal digits. -/
structure Uuid where
  digits : List Char
  length_digits : digits.length = 32
  hex_digits : ∀ c ∈ digits, isHexDigit c = true
deriving DecidableEq

namespace Uuid

/-- The hexadecimal digit of a number, which counts modulo sixteen. -/
def digit (n : Nat) : Char :=
  Nat.digitChar (n % 16)

/-- The `count` lowest hexadecimal digits of a number, least significant first. -/
def lowDigits : (count : Nat) → Nat → List Char
  | 0, _ => []
  | count + 1, n => digit n :: lowDigits count (n / 16)

theorem isHexDigit_digit (n : Nat) : isHexDigit (digit n) = true := by
  have all : ∀ k < 16, isHexDigit (Nat.digitChar k) = true := by decide
  exact all _ (Nat.mod_lt _ (by decide))

theorem length_lowDigits (count n : Nat) : (lowDigits count n).length = count := by
  induction count generalizing n with
  | zero => rfl
  | succ count ih => simp [lowDigits, ih]

theorem isHexDigit_of_mem_lowDigits {count n : Nat} {c : Char} (h : c ∈ lowDigits count n) :
    isHexDigit c = true := by
  induction count generalizing n with
  | zero => cases h
  | succ count ih =>
    rcases List.mem_cons.1 h with rfl | h
    · exact isHexDigit_digit n
    · exact ih h

/-- The tag made from a random number. The thirteenth digit says that the rest is random
(version 4), and the seventeenth has one and zero as its highest bits (the variant). -/
def ofRandom (n : Nat) : Uuid where
  digits :=
    lowDigits 12 n ++ '4' :: lowDigits 3 (n / Nat.pow 16 12) ++
      digit (8 + n / Nat.pow 16 15 % 4) :: lowDigits 15 (n / Nat.pow 16 16)
  length_digits := by simp [length_lowDigits]
  hex_digits c h := by
    simp only [List.mem_append, List.mem_cons] at h
    rcases h with (h | rfl | h) | rfl | h
    · exact isHexDigit_of_mem_lowDigits h
    · decide
    · exact isHexDigit_of_mem_lowDigits h
    · exact isHexDigit_digit _
    · exact isHexDigit_of_mem_lowDigits h

end Uuid

namespace Path

/-- What is added to a target's name to name its staging file. -/
def stagingSuffix (tag : Uuid) : Name :=
  '.' :: tag.digits ++ ['.', 'p', 'a', 'r', 't', 'i', 'a', 'l']

/-- The staging file of a target: beside it and named after it, or, if the target has no file
name, called `image` inside it. A target whose name is no text has the one in `RawName.staging`. -/
def staging (target : Path) (tag : Uuid) : Path :=
  match target.splitName? with
  | some (directory, name) => directory.join (name ++ stagingSuffix tag)
  | none => target.join (['i', 'm', 'a', 'g', 'e'] ++ stagingSuffix tag)

end Path

end BootImage
