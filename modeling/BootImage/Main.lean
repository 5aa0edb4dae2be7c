import BootImage.Program
/-!
# Entry point

Looks at the files that the arguments name, runs the program on them, and carries out what it
changed. All decisions are made in `BootImage.Program.execute`.
-/

namespace BootImage

/-- The path of a place, from the root. -/
def Location.text (place : Location) : String :=
  "/" ++ "/".intercalate (place.reverse.map String.ofList)

/-- The place where a path from the root leads. -/
def Location.ofText (text : String) : Location :=
  (Path.ofString text).steps.reverse

/-- The places that are passed in following a path, the first one first. -/
def FileSystem.passed (fs : FileSystem) (path : Path) : List Location :=
  let start := if path.isAbsolute then [] else fs.home
  (path.steps.foldl (fun (place, passed) piece =>
    let next :=
      if piece = Name.dot then place else if piece = Name.dotDot then place.tail
      else piece :: place
    (next, passed ++ [next])) (start, [])).2

/-- Adds what stands at a place to a tree. -/
def look (fs : FileSystem) (place : Location) : IO FileSystem := do
  let path := (← IO.currentDir) / Location.text place
  if ← path.isDir then
    return fs.addDirectory place
  else if ← path.pathExists then
    let bytes ← IO.FS.readBinFile path
    return fs.addFile place (.ofList bytes.toList)
  else
    return fs

/-- The part of the file tree that some paths pass through. -/
def survey (paths : List Path) : IO FileSystem := do
  let here ← IO.currentDir
  let fs := FileSystem.empty (Location.ofText here.toString)
  (paths.flatMap fs.passed).foldlM
    (fun fs place => if (fs.node? place).isSome then return fs else look fs place) fs

/-- Puts a file that the program changed in its place. -/
def store (tag : Uuid) (before after : FileSystem) (place : Location) : IO Unit := do
  if after.entry? place = before.entry? place then
    return
  match after.entry? place with
  | some (.file bytes) =>
    let staging := Location.text place ++ String.ofList (Path.stagingSuffix tag)
    IO.FS.writeBinFile staging ⟨bytes.toArray⟩
    IO.FS.rename staging (Location.text place)
  | _ => return

/-- The paths that a build reads or writes. -/
def Options.paths (options : Options) : List Path :=
  [options.boot, options.output] ++ options.kernel.toList ++ options.layout.toList

/-- The paths that some arguments name. -/
def involved (arguments : List String) : List Path :=
  match CommandLine.parse arguments with
  | .ok (.build options) => options.paths
  | _ => []

/-- Runs the program on the files of the system. -/
def runOnSystem (arguments : List String) : IO UInt32 := do
  let random ← IO.getRandomBytes 16
  let tag := Uuid.ofRandom (random.toList.foldl (fun n b => n * 256 + b.toNat) 0)
  let out ← IO.getStdout
  let colour := useColour (← IO.getEnv "CLICOLOR_FORCE") (← IO.getEnv "NO_COLOR")
    (← IO.getEnv "CLICOLOR") (← out.isTty)
  let paths := involved arguments
  let before ← survey paths
  let run := Program.execute arguments colour tag before
  (paths.flatMap before.passed).forM (store tag before run.fs)
  out.putStr run.stdout
  (← IO.getStderr).putStr run.stderr
  return run.exitCode

end BootImage

/-- The program. -/
def main (arguments : List String) : IO UInt32 :=
  BootImage.runOnSystem arguments
