import BootImage.CommandLine.Messages
import BootImage.Word
/-!
# Reading the command line

Words are read from left to right. An option that takes a value may have it attached
(`--name=value`, `-nvalue`, `-n=value`) or as the next word. A detached value is only looked at when
the next option is met or the words end, so an unknown option behind it is reported first. Options
may come in any order, each of them once.
-/

namespace BootImage

namespace CommandLine

/-- A word of the command line. -/
abbrev Argument := List Char

/-! ## Values -/

/-- Continues a number with decimal digits, as long as it fits a machine word. -/
def readDigits : Nat → Argument → Except SizeError Nat
  | n, [] => .ok n
  | n, c :: cs =>
    if '0' ≤ c ∧ c ≤ '9' then
      let next := n * 10 + (c.toNat - '0'.toNat)
      if next < wordLimit then readDigits next cs else .error .tooLarge
    else
      .error .invalidDigit

/-- Reads a size: decimal digits, with a plus sign in front or not. -/
def readSize : Argument → Except SizeError Nat
  | [] => .error .empty
  | ['+'] => .error .invalidDigit
  | '+' :: digits => readDigits 0 digits
  | digits => readDigits 0 digits

/-- What has been given so far. -/
structure Draft where
  paths : List (PathOption × Path)
  sizes : List (SizeOption × Nat)
  flags : List Flag
deriving DecidableEq, Repr

namespace Draft

/-- Nothing given yet. -/
def empty : Draft := ⟨[], [], []⟩

/-- The path given for an option. -/
def path? (draft : Draft) (option : PathOption) : Option Path :=
  (draft.paths.find? (·.1 = option)).map Prod.snd

/-- The size given for an option. -/
def size? (draft : Draft) (option : SizeOption) : Option Nat :=
  (draft.sizes.find? (·.1 = option)).map Prod.snd

/-- Adds the value of an option that has none yet. -/
def store (draft : Draft) (option : ValueOption) (value : Argument) : Except UsageError Draft :=
  match option with
  | .path option =>
    if (draft.path? option).isSome then
      .error (.repeated (.value (.path option)))
    else if value = [] then
      .error (.missingValue (.path option))
    else
      .ok { draft with paths := (option, ⟨value⟩) :: draft.paths }
  | .size option =>
    if (draft.size? option).isSome then
      .error (.repeated (.value (.size option)))
    else
      match readSize value with
      | .error reason => .error (.invalidSize option (String.ofList value) reason)
      | .ok size => .ok { draft with sizes := (option, size) :: draft.sizes }

/-- Adds a flag that has not been given yet. -/
def raise (draft : Draft) (flag : Flag) : Except UsageError Draft :=
  if flag ∈ draft.flags then
    .error (.repeated (.flag flag))
  else
    .ok { draft with flags := flag :: draft.flags }

/-- The options that have been given, and the defaults of the others. -/
def options (draft : Draft) : Options :=
  let defaults : Config := {}
  {
    boot := (draft.path? .boot).getD (.ofString "build/boot.bin")
    kernel := draft.path? .kernel
    output := (draft.path? .output).getD (.ofString "build/image.bin")
    layout := draft.path? .layout
    verify := decide (.verify ∈ draft.flags)
    quiet := decide (.quiet ∈ draft.flags)
    config := {
      sectorSize := (draft.size? .sectorSize).getD defaults.sectorSize
      bootSectorLen := (draft.size? .bootSectorLen).getD defaults.bootSectorLen
      maxLoaderSize := (draft.size? .maxLoaderSize).getD defaults.maxLoaderSize
      maxImageSize := (draft.size? .maxImageSize).getD defaults.maxImageSize
    }
  }

end Draft

/-! ## Words -/

/-- What a command line asks for. -/
inductive Request
  | build (options : Options)
  | help
  | version
deriving DecidableEq, Repr

/-- How far the words have been read. -/
structure State where
  draft : Draft
  /-- An option whose value is detached, and the value once it has been met. -/
  pending : Option (ValueOption × Option Argument)
deriving DecidableEq, Repr

/-- Reading goes on, or a request for help or version has ended it. -/
inductive Reading
  | more (state : State)
  | finished (request : Request)
deriving DecidableEq, Repr

namespace State

/-- Takes in the pending option, which must have met its value. -/
def settle (state : State) : Except UsageError Draft :=
  match state.pending with
  | none => .ok state.draft
  | some (option, none) => .error (.missingValue option)
  | some (option, some value) => state.draft.store option value

/-- Meets an option, with the value attached to it if there is one. -/
def option (state : State) (option : ValueOption) (attached : Option Argument) :
    Except UsageError Reading := do
  let draft ← state.settle
  match attached with
  | some value => return .more ⟨← draft.store option value, none⟩
  | none => return .more ⟨draft, some (option, none)⟩

/-- Meets a flag. -/
def flag (state : State) (flag : Flag) : Except UsageError State := do
  let draft ← state.settle
  return ⟨← draft.raise flag, none⟩

/-- Meets a request that ends the reading. -/
def finish (state : State) (request : Request) : Except UsageError Reading := do
  let _ ← state.settle
  return .finished request

/-- Reads what follows two dashes: a name, and a value behind the first equals sign. -/
def long (state : State) (body : Argument) : Except UsageError Reading := do
  let name := body.takeWhile (· ≠ '=')
  let attached := (body.dropWhile (· ≠ '=')).tail?
  match long? name, attached with
  | none, _ => throw (.unexpectedArgument ("--" ++ String.ofList name))
  | some (.value option), _ => state.option option attached
  | some switch, some value => throw (.unexpectedValue switch (String.ofList value))
  | some (.flag flag), none => return .more (← state.flag flag)
  | some .help, none => state.finish .help
  | some .version, none => state.finish .version

/-- Reads the letters that follow one dash. The first option that takes a value takes the rest of
the word, or, if nothing is left, the next word. -/
def letters (state : State) : Argument → Except UsageError Reading
  | [] => .ok (.more state)
  | c :: rest =>
    match short? c with
    | none => .error (.unexpectedArgument (String.ofList ['-', c]))
    | some (.flag flag) =>
      match state.flag flag with
      | .error error => .error error
      | .ok state => state.letters rest
    | some .help => state.finish .help
    | some .version => state.finish .version
    | some (.value option) =>
      match rest with
      | [] => state.option option none
      | '=' :: value => state.option option (some value)
      | value => state.option option (some value)

/-- Reads a word that is no option: the value of the option before it, if that waits for one. -/
def value (state : State) (word : Argument) : Except UsageError Reading :=
  match state.pending with
  | some (option, none) => .ok (.more { state with pending := some (option, some word) })
  | _ => .error (.unexpectedArgument (String.ofList word))

/-- Reads a word. A single dash is no option. -/
def word (state : State) : Argument → Except UsageError Reading
  | '-' :: '-' :: body => state.long body
  | '-' :: c :: rest => state.letters (c :: rest)
  | word => state.value word

/-- Reads the words that are left. There is no option behind a double dash, and nothing else may
stand there. -/
def words (state : State) : List Argument → Except UsageError Request
  | [] => return .build (← state.settle).options
  | ['-', '-'] :: [] => return .build (← state.settle).options
  | ['-', '-'] :: extra :: _ => throw (.unexpectedArgument (String.ofList extra))
  | word :: words => do
    match ← state.word word with
    | .more state => state.words words
    | .finished request => return request

end State

/-- What the arguments of the program ask for. -/
def parse (arguments : List String) : Except UsageError Request :=
  State.words ⟨.empty, none⟩ (arguments.map String.toList)

end CommandLine

end BootImage
