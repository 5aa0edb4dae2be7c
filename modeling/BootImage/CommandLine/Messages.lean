import BootImage.CommandLine.Options
import BootImage.Terminal
/-!
# Messages of the command line

The help and version texts, and what is said about arguments that make no sense.
-/

namespace BootImage

namespace Style

/-- Bold, for what is to be typed as it stands. -/
def literal : Style := ⟨["1"]⟩

/-- Bold and underlined, for headings. -/
def heading : Style := ⟨["1", "4"]⟩

/-- Yellow, for what is wrong. -/
def invalid : Style := ⟨["33"]⟩

/-- Bold red, for the word in front of a usage error. -/
def usageError : Style := ⟨["1", "31"]⟩

end Style

namespace CommandLine

/-- Why a text is not a size. -/
inductive SizeError
  | empty
  | invalidDigit
  /-- The number does not fit a word. -/
  | tooLarge
deriving DecidableEq, Repr

/-- The error in words. -/
def SizeError.message : SizeError → String
  | .empty => "cannot parse integer from empty string"
  | .invalidDigit => "invalid digit found in string"
  | .tooLarge => "number too large to fit in target type"

/-- Arguments that make no sense. -/
inductive UsageError
  /-- An option nobody knows, or a word that belongs to no option. -/
  | unexpectedArgument (argument : String)
  /-- An option without its value, or a path option with an empty one. -/
  | missingValue (option : ValueOption)
  /-- A size that is no number. -/
  | invalidSize (option : SizeOption) (value : String) (reason : SizeError)
  /-- An option given twice. -/
  | repeated (switch : Switch)
  /-- A value given to a flag. -/
  | unexpectedValue (switch : Switch) (value : String)
deriving DecidableEq, Repr

/-- The error as it looks in colour. -/
def UsageError.styled (error : UsageError) : String :=
  let invalid := Style.invalid.wrap
  let literal := Style.literal.wrap
  Style.usageError.wrap "error:" ++ " " ++
    match error with
    | .unexpectedArgument argument => "unexpected argument '" ++ invalid argument ++ "' found"
    | .missingValue option =>
      "a value is required for '" ++ invalid option.display ++ "' but none was supplied"
    | .invalidSize option value reason =>
      let named := (ValueOption.size option).display
      "invalid value '" ++ invalid value ++ "' for '" ++ literal named ++ "': " ++ reason.message
    | .repeated switch =>
      "the argument '" ++ invalid switch.display ++ "' cannot be used multiple times"
    | .unexpectedValue switch value =>
      "unexpected value '" ++ invalid value ++ "' for '" ++ literal switch.display ++
        "' found; no more were expected"

/-- The error in words. -/
def UsageError.message (error : UsageError) : String :=
  ControlSequence.strip error.styled

/-- What the program is called and which version this is. -/
def versionText : String := "mkfs 0.1.0\n"

/-- A line of the help text: the letter and the name of an option, and the rest of the line. -/
def helpLine (letter : Option Char) (name rest : String) : String :=
  let literal := Style.literal.wrap
  match letter with
  | some c => "  " ++ literal ("-" ++ String.singleton c) ++ ", " ++ literal name ++ rest ++ "\n"
  | none => "      " ++ literal name ++ rest ++ "\n"

/-- The help text as it looks in colour. -/
def styledHelp : String :=
  let heading := Style.heading.wrap
  "Assemble a bootloader and an optional kernel into a bootable disk image\n\n" ++
  heading "Usage:" ++ " " ++ Style.literal.wrap "mkfs" ++ " [OPTIONS]\n\n" ++
  heading "Options:" ++ "\n" ++
  helpLine (some 'b') "--boot"
    " <BOOT>                        引导程序二进制（引导扇区 + 扩展区） [default: build/boot.bin]" ++
  helpLine (some 'k') "--kernel"
    " <KERNEL>                    内核二进制，写在引导区之后的第一个扇区边界" ++
  helpLine (some 'o') "--output"
    " <OUTPUT>                    输出镜像路径 [default: build/image.bin]" ++
  helpLine none "--sector-size" " <SECTOR_SIZE>          [default: 512]" ++
  helpLine none "--boot-sector-len" " <BOOT_SECTOR_LEN>  [default: 512]" ++
  helpLine none "--max-loader-size" " <MAX_LOADER_SIZE>  [default: 32768]" ++
  helpLine none "--max-image-size" " <MAX_IMAGE_SIZE>    [default: 16777216]" ++
  helpLine none "--layout" " <PATH>                      把区域布局以 bincode 格式写到该文件" ++
  helpLine none "--verify" "                             提交前逐扇区读回校验" ++
  helpLine (some 'q') "--quiet" "                              " ++
  helpLine (some 'h') "--help" "                               Print help" ++
  helpLine (some 'V') "--version" "                            Print version"

/-- The help text. -/
def helpText : String :=
  ControlSequence.strip styledHelp

end CommandLine

end BootImage
