import BootImage.ControlSequence
import BootImage.Progress
import BootImage.Report
/-!
# Terminal output

What a build tells its user, and how it looks on a terminal. A `Notice` is a line (or, for the
report, five) on standard output, which a quiet build leaves out. An error goes to standard error
and is never left out. Colours change the looks only: without them the text is the same.
-/

namespace BootImage

/-- A way to set text off, as the codes that switch it on. -/
structure Style where
  codes : List String
deriving DecidableEq, Repr

namespace Style

/-- The escape sequence of a code. -/
def sequence (code : String) : List Char :=
  '\x1b' :: '[' :: code.toList ++ ['m']

/-- The escape sequences that switch a style on. -/
def opening (style : Style) : List Char :=
  style.codes.flatMap sequence

/-- The escape sequence that switches every style off. -/
def reset : List Char :=
  ['\x1b', '[', '0', 'm']

/-- Switches a style on again behind every reset that the text itself contains. -/
def reopen (opening : List Char) : List Char → List Char
  | '\x1b' :: '[' :: '0' :: 'm' :: rest => reset ++ opening ++ reopen opening rest
  | c :: rest => c :: reopen opening rest
  | [] => []

/-- Text between the sequences that switch a style on and off. -/
def wrap (style : Style) (text : String) : String :=
  String.ofList (style.opening ++ text.toList ++ reset)

/-- What is printed of styled output. Without colour no sequence is left at all, not even of those
that belong to no style. -/
def output (colour : Bool) (styled : String) : String :=
  if colour then styled else ControlSequence.stripOutput styled

/-- Text in a style, or just as it is. Resets inside the text do not end the style. -/
def paint (style : Style) (colour : Bool) (text : String) : String :=
  if colour then
    String.ofList (style.opening ++ reopen style.opening text.toList ++ reset)
  else
    text

/-- Grey, for what is being done. -/
def progress : Style := ⟨["90"]⟩

/-- Green, for the mark in front of a success. -/
def mark : Style := ⟨["32"]⟩

/-- Bold green, for a success. -/
def success : Style := ⟨["1;32"]⟩

/-- Bold red, for the mark in front of an error. -/
def failure : Style := ⟨["1;31"]⟩

end Style

/-- Whether output is coloured, given the variables `CLICOLOR_FORCE`, `NO_COLOR` and `CLICOLOR` and
whether it goes to a terminal. A variable set to `0` counts as off. -/
def useColour (force never allow : Option String) (isTerminal : Bool) : Bool :=
  if force.any (· ≠ "0") then true
  else if never.isSome then false
  else allow.all (· ≠ "0") && isTerminal

/-- Something a build tells while it runs. -/
inductive Notice
  /-- What is being done. -/
  | step (message : String)
  /-- That it is done. -/
  | success (message : String)
  | report (summary : Report)
deriving DecidableEq, Repr

/-- The notice as it is printed, with a newline at its end. -/
def Notice.text (colour : Bool) : Notice → String
  | .step message => Style.progress.paint colour message ++ "\n"
  | .success message =>
    Style.mark.paint colour "✅" ++ " " ++ Style.success.paint colour message ++ "\n"
  | .report summary => summary.text ++ "\n"

/-- How much is printed, and whether in colour. -/
structure Reporter where
  quiet : Bool
  colour : Bool
deriving DecidableEq, Repr

namespace Reporter

/-- What standard output gets of a notice. -/
def print (reporter : Reporter) (notice : Notice) : String :=
  if reporter.quiet then "" else notice.text reporter.colour

/-- The progress of a task that has not begun. A quiet reporter does not even show its length. -/
def progress (reporter : Reporter) : Progress :=
  if reporter.quiet then .fresh else Progress.fresh.ofLength 0

/-- What standard output gets of some notices. -/
def printAll (reporter : Reporter) (notices : List Notice) : String :=
  String.join (notices.map reporter.print)

/-- What standard error gets of an error: what was attempted, and behind each attempt why it
failed. -/
def error (reporter : Reporter) (chain : List String) : String :=
  Style.failure.paint reporter.colour "❌ Error:" ++ " " ++ ": ".intercalate chain ++ "\n"

end Reporter

end BootImage
