/-!
# Errors of the operating system

What can go wrong with a file, in the system's own words, and the kinds that errors of files and
disks fall into.
-/

namespace BootImage

/-- What an error is about, for callers that act on it. -/
inductive ErrorKind
  | notFound
  | alreadyExists
  | notADirectory
  | isADirectory
  | resourceBusy
  | invalidFilename
  | invalidInput
  | invalidData
  | unexpectedEof
deriving DecidableEq, Repr

/-- An operation on files that was refused. -/
inductive SystemError
  /-- There is nothing of that name. -/
  | noSuchEntry
  /-- There is something of that name already. -/
  | alreadyExists
  /-- A file stands where a directory is needed. -/
  | notADirectory
  /-- A directory stands where a file is needed. -/
  | isADirectory
  /-- The root, `.` or `..` cannot be replaced. -/
  | busy
  /-- A name or a whole path is too long. -/
  | nameTooLong
  /-- A path contains the NUL character, which no name can. -/
  | nulInPath
  /-- No file can be that long. -/
  | lengthTooLarge
  /-- The file ends before all the bytes asked for. -/
  | unexpectedEnd
deriving DecidableEq, Repr

namespace SystemError

/-- The kind of an error. -/
def kind : SystemError → ErrorKind
  | .noSuchEntry => .notFound
  | .alreadyExists => .alreadyExists
  | .notADirectory => .notADirectory
  | .isADirectory => .isADirectory
  | .busy => .resourceBusy
  | .nameTooLong => .invalidFilename
  | .nulInPath => .invalidInput
  | .lengthTooLarge => .invalidInput
  | .unexpectedEnd => .unexpectedEof

/-- The error in words, with the system's number for those it has numbered. -/
def message : SystemError → String
  | .noSuchEntry => "No such file or directory (os error 2)"
  | .alreadyExists => "File exists (os error 17)"
  | .notADirectory => "Not a directory (os error 20)"
  | .isADirectory => "Is a directory (os error 21)"
  | .busy => "Device or resource busy (os error 16)"
  | .nameTooLong => "File name too long (os error 36)"
  | .nulInPath => "file name contained an unexpected NUL byte"
  | .lengthTooLarge => "number too large to fit in target type"
  | .unexpectedEnd => "failed to fill whole buffer"

end SystemError

end BootImage
