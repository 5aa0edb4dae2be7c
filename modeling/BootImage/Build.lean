import BootImage.CommandLine.Options
import BootImage.Disk.Publish
import BootImage.Record
import BootImage.Terminal
/-!
# Builds

A build reads the loader and the kernel, assembles the image, publishes it, and keeps the record of
its layout if that is wanted, in this order. The first phase that fails ends it.
-/

namespace BootImage

/-- What was attempted, and why it failed. -/
structure Problem where
  attempt : String
  cause : BuildError
deriving DecidableEq, Repr

/-- The problem from the outside in. -/
def Problem.chain (problem : Problem) : List String :=
  [problem.attempt, problem.cause.message]

/-- What came of a build: its result, what it told, and the files as it left them. -/
structure Outcome where
  result : Except (Failure Problem) Report
  notices : List Notice
  fs : FileSystem

namespace Build

/-- A path as messages quote it. -/
def quote (path : Path) : String :=
  "`" ++ path.text ++ "`"

/-- A failure to do something with a path. -/
def failed (what : String) (path : Path) (failure : Failure BuildError) : Failure Problem :=
  failure.map (Problem.mk (what ++ " " ++ quote path))

/-- Something the system refused to do with a path. -/
def refused (what : String) (path : Path) (cause : SystemError) : Failure Problem :=
  failed what path (.error (.io (.system cause)))

/-- Reads the kernel if there is to be one. -/
def readKernel (options : Options) (fs : FileSystem) :
    List Notice × Except (Failure Problem) (Option (List UInt8)) :=
  match options.kernel with
  | none => ([], .ok none)
  | some path =>
    ([.step ("Reading kernel " ++ path.text)],
      match fs.readAll path with
      | .ok bytes => .ok (some bytes)
      | .error cause => .error (refused "failed to read kernel" path cause))

/-- Reads the inputs and assembles the image. No file is changed. -/
def prepare (options : Options) (fs : FileSystem) :
    List Notice × Except (Failure Problem) Image :=
  let reading : List Notice := [.step ("Reading bootloader " ++ options.boot.text)]
  match fs.readAll options.boot with
  | .error cause => (reading, .error (refused "failed to read bootloader" options.boot cause))
  | .ok boot =>
    match readKernel options fs with
    | (more, .error failure) => (reading ++ more, .error failure)
    | (more, .ok kernel) =>
      (reading ++ more ++ [.step "Assembling image..."],
        match Image.assemble boot kernel options.config with
        | .ok image => .ok image
        | .error failure =>
          .error (failed "cannot assemble" options.output (failure.map .assembly)))

/-- Keeps the record of a layout, if that is wanted. -/
def saveLayout (options : Options) (layout : Layout) (fs : FileSystem) :
    Except (Failure Problem) FileSystem :=
  match options.layout with
  | none => .ok fs
  | some path =>
    match fs.writeAll path layout.toRecord with
    | .ok fs => .ok fs
    | .error cause => .error (refused "failed to write layout" path cause)

/-- Publishes an image and keeps its record. -/
def deliver (options : Options) (image : Image) (report : Report) (tag : Uuid) (fs : FileSystem) :
    Outcome :=
  let writing : List Notice := [.step ("Writing " ++ toString report.sectorCount ++
    " sectors to " ++ options.output.text)]
  let progress := Reporter.progress { quiet := options.quiet, colour := false }
  match image.publish options.output options.verify tag progress fs with
  | ⟨.error failure, fs, _⟩ =>
    ⟨.error (failed "failed to write image" options.output (failure.map .io)), writing, fs⟩
  | ⟨.ok (), fs, _⟩ =>
    -- The image is published by now, and stays so if its record cannot be kept.
    match saveLayout options image.layout fs with
    | .error failure => ⟨.error failure, writing, fs⟩
    | .ok fs =>
      let told := [.success ("Image written to " ++ options.output.text), .report report]
      ⟨.ok report, writing ++ told, fs⟩

/-- The whole build. The tag names the staging file. -/
def run (options : Options) (tag : Uuid) (fs : FileSystem) : Outcome :=
  match prepare options fs with
  | (notices, .error failure) => ⟨.error failure, notices, fs⟩
  | (notices, .ok image) =>
    match Report.ofLayout image.layout with
    | .error fault => ⟨.error (.fault fault), notices, fs⟩
    | .ok report =>
      let outcome := deliver options image report tag fs
      { outcome with notices := notices ++ outcome.notices }

end Build

end BootImage
