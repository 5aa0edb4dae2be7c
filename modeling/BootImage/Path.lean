/-!
# Paths as text

A path is a text, which the system has in UTF-8; slashes cut it into pieces. Looking at the text
alone, `Path.splitName?` tells the file name from the directory it is in, and `Path.join` puts a name
behind a directory. What a path stands for in a file tree is decided in
`BootImage.FileSystem.Resolve`. File names whose bytes are no text are in `BootImage.RawName`.
-/

namespace BootImage

/-- A file or directory name, or any other piece of a path. -/
abbrev Name := List Char

namespace Name

/-- The name of the directory a path has come to. -/
def dot : Name := ['.']

/-- The name of the directory above. -/
def dotDot : Name := ['.', '.']

/-- The length in bytes when written in UTF-8. -/
def byteLength : Name → Nat
  | [] => 0
  | c :: cs => c.utf8Size + byteLength cs

end Name

/-- A path as it was written, in characters. -/
structure Path where
  chars : List Char
deriving DecidableEq, Repr

namespace Path

/-- The path with the given text. -/
def ofString (text : String) : Path :=
  ⟨text.toList⟩

/-- The text of the path. -/
def text (path : Path) : String :=
  String.ofList path.chars

/-! ## Pieces -/

/-- Cuts at every slash: one piece more than there are slashes. -/
def split : List Char → List Name
  | [] => [[]]
  | c :: cs =>
    if c = '/' then
      [] :: split cs
    else
      match split cs with
      | [] => [[c]]
      | piece :: rest => (c :: piece) :: rest

/-- The pieces of a path. -/
def pieces (path : Path) : List Name :=
  split path.chars

/-- An empty piece or a single dot stays where it is, so a path may end in any number of them. -/
def idle (piece : Name) : Bool :=
  piece = [] || piece = Name.dot

/-- Whether a piece can be a file name. -/
def ordinary (piece : Name) : Bool :=
  !idle piece && piece != Name.dotDot

/-- The text of pieces with slashes in between. A lone empty piece is the root. -/
def ofPieces (pieces : List Name) : Path :=
  if pieces = [[]] then ⟨['/']⟩ else ⟨['/'].intercalate pieces⟩

/-! ## The file name -/

/-- The directory and the file name of a path, both without idle pieces at their ends.

A path has no file name if it is empty, the root, or ends in `..` or at the directory it starts
from. The first piece is kept whatever it is: it tells whether the path is absolute. -/
def splitName? (path : Path) : Option (Path × Name) :=
  match path.pieces with
  | [] => none
  | first :: rest =>
    match rest.reverse.dropWhile idle with
    | name :: above =>
      if ordinary name then
        some (ofPieces (first :: (above.dropWhile idle).reverse), name)
      else
        none
    | [] => if ordinary first then some (⟨[]⟩, first) else none

/-- The file name, if there is one. -/
def fileName? (path : Path) : Option Name :=
  path.splitName?.map Prod.snd

/-- The directory of a path that has a file name. -/
def parent? (path : Path) : Option Path :=
  path.splitName?.map Prod.fst

/-- Some pieces, the last one first, then all but the last, and so on. Idle pieces are not counted,
but the first piece is. -/
def shortenings : (pieces : List Name) → List (List Name)
  | [] => []
  | [first] => [[first]]
  | piece :: next :: above =>
    if idle piece then shortenings (next :: above)
    else (piece :: next :: above) :: shortenings (next :: above)

/-- The directories that a path passes through before its last piece, the nearest one first, each
by its pieces from the last one on. The directory that the program runs in is not among them unless
it is named. -/
def above (path : Path) : List (List Name) :=
  (shortenings path.pieces.reverse).tail

/-- A name inside a directory. The empty path is the directory the program runs in, and a slash is
added unless there is one. -/
def join (directory : Path) (name : Name) : Path :=
  if directory.chars = [] then
    ⟨name⟩
  else if directory.chars.getLast? = some '/' then
    ⟨directory.chars ++ name⟩
  else
    ⟨directory.chars ++ '/' :: name⟩

end Path

end BootImage
