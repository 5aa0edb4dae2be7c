import BootImage.Build
import BootImage.CommandLine.Parse
/-!
# The program

A run of the program from its arguments and the files it finds to what it prints, its exit code,
and the files it leaves.
-/

namespace BootImage

/-- What a run of the program shows and leaves behind. -/
structure Execution where
  exitCode : UInt32
  stdout : String
  stderr : String
  fs : FileSystem

namespace Program

/-- What is printed and returned when a build has ended. A fault is a mistake of the program, not of
its user, and has an exit code of its own. The system that the program runs on reports a fault in its
own words; the line that stands for them here says only which fault it is. -/
def conclude (reporter : Reporter) (outcome : Outcome) : Execution :=
  let stdout := reporter.printAll outcome.notices
  match outcome.result with
  | .ok _ => ⟨0, stdout, "", outcome.fs⟩
  | .error (.error problem) => ⟨1, stdout, reporter.error problem.chain, outcome.fs⟩
  | .error (.fault fault) => ⟨101, stdout, reporter.error [fault.message], outcome.fs⟩

/-- Runs the program. -/
def execute (arguments : List String) (colour : Bool) (tag : Uuid) (fs : FileSystem) : Execution :=
  match CommandLine.parse arguments with
  | .error error =>
    let hint := "\n\nFor more information, try '--help'.\n"
    ⟨2, "", Style.output colour (error.styled ++ hint), fs⟩
  | .ok .help => ⟨0, Style.output colour CommandLine.styledHelp, "", fs⟩
  | .ok .version => ⟨0, CommandLine.versionText, "", fs⟩
  | .ok (.build options) =>
    conclude { quiet := options.quiet, colour } (Build.run options tag fs)

end Program

end BootImage
