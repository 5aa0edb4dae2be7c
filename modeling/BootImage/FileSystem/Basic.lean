import BootImage.FileContent
import BootImage.FileSystem.NameTree
/-!
# File trees

A file tree without links. A directory entry refers to a file by number, so that a file that is
open stays the same file when its entry is renamed or removed. No two entries share a file, which
is part of the type: writing one file never changes another.

`FileSystem.entry?` is what can be seen at a location. The operations here are the elementary
changes; `BootImage.FileSystem.Operations` builds those that take paths from them.
-/

namespace BootImage

/-- A place in the tree: the names on the way to it from the root, the last one first. -/
abbrev Location := List Name

/-- The number of a file. Numbers are never used twice. -/
abbrev FileId := Nat

/-- What a directory entry refers to. -/
inductive Node
  | directory
  | file (id : FileId)
deriving DecidableEq, Repr

/-- A tree of directories and files. -/
structure FileSystem where
  /-- The entries. The root is a directory and has none. -/
  nodes : NameTree Node
  /-- The contents of all files there ever were, by number. -/
  contents : List FileContent
  /-- Where relative paths start. -/
  home : Location
  id_lt : ∀ {way id}, nodes.get? way = some (.file id) → id < contents.length
  id_inj : ∀ {way other id},
    nodes.get? way = some (.file id) → nodes.get? other = some (.file id) → way = other

/-- What can be seen at a place. -/
inductive Entry
  | directory
  | file (bytes : List UInt8)
deriving DecidableEq, Repr

namespace FileSystem

/-- The tree with nothing in it, where relative paths start at `home`. -/
def empty (home : Location) : FileSystem where
  nodes := .empty
  contents := []
  home := home
  id_lt h := by simp at h
  id_inj h := by simp at h

/-- What lies below a place. -/
def within (fs : FileSystem) (place : Location) : NameTree Node :=
  fs.nodes.walk place.reverse

/-- What the entry at a place refers to. The root is a directory. -/
def node? (fs : FileSystem) (place : Location) : Option Node :=
  if place = [] then some .directory else fs.nodes.get? place.reverse

/-- The content of a file. -/
def content (fs : FileSystem) (id : FileId) : FileContent :=
  fs.contents.getD id .empty

/-- What can be seen at a place. -/
def entry? (fs : FileSystem) (place : Location) : Option Entry :=
  (fs.node? place).map fun
    | .directory => .directory
    | .file id => .file (fs.content id).toList

/-! ## Elementary changes -/

/-- Puts a new file at a place, instead of what was there. -/
def addFile (fs : FileSystem) (place : Location) (content : FileContent) : FileSystem where
  nodes := fs.nodes.set place.reverse (some (.file fs.contents.length))
  contents := fs.contents ++ [content]
  home := fs.home
  id_lt := by
    intro way id h
    rw [List.length_append]
    rcases NameTree.get?_set_eq_some h with ⟨-, h⟩ | ⟨-, h⟩
    · cases h
      simp
    · exact Nat.lt_add_right _ (fs.id_lt h)
  id_inj := by
    intro way other id h h'
    rcases NameTree.get?_set_eq_some h with ⟨rfl, e⟩ | ⟨-, h⟩ <;>
      rcases NameTree.get?_set_eq_some h' with ⟨rfl, e'⟩ | ⟨-, h'⟩
    · rfl
    · cases e
      exact absurd (fs.id_lt h') (Nat.lt_irrefl _)
    · cases e'
      exact absurd (fs.id_lt h) (Nat.lt_irrefl _)
    · exact fs.id_inj h h'

/-- Puts a directory at a place, instead of what was there. -/
def addDirectory (fs : FileSystem) (place : Location) : FileSystem where
  nodes := fs.nodes.set place.reverse (some .directory)
  contents := fs.contents
  home := fs.home
  id_lt h := fs.id_lt (NameTree.get?_of_get?_set h nofun).2
  id_inj h h' := fs.id_inj (NameTree.get?_of_get?_set h nofun).2 (NameTree.get?_of_get?_set h' nofun).2

/-- Removes the entry at a place. Its file lives on for those who have it open. -/
def erase (fs : FileSystem) (place : Location) : FileSystem where
  nodes := fs.nodes.set place.reverse none
  contents := fs.contents
  home := fs.home
  id_lt h := fs.id_lt (NameTree.get?_of_get?_set h nofun).2
  id_inj h h' := fs.id_inj (NameTree.get?_of_get?_set h nofun).2 (NameTree.get?_of_get?_set h' nofun).2

/-- Moves the entry at `source` to `target`, instead of what was there. -/
def move (fs : FileSystem) (source target : Location) : FileSystem where
  nodes :=
    (fs.nodes.set source.reverse none).set target.reverse (fs.nodes.get? source.reverse)
  contents := fs.contents
  home := fs.home
  id_lt h := by
    rcases NameTree.get?_set_eq_some h with ⟨-, h⟩ | ⟨-, h⟩
    · exact fs.id_lt h
    · exact fs.id_lt (NameTree.get?_of_get?_set h nofun).2
  id_inj h h' := by
    rcases NameTree.get?_set_eq_some h with ⟨rfl, e⟩ | ⟨-, h⟩ <;>
      rcases NameTree.get?_set_eq_some h' with ⟨rfl, e'⟩ | ⟨-, h'⟩
    · rfl
    · have ⟨hne, h'⟩ := NameTree.get?_of_get?_set h' nofun
      exact absurd (fs.id_inj h' e) hne
    · have ⟨hne, h⟩ := NameTree.get?_of_get?_set h nofun
      exact absurd (fs.id_inj h e') hne
    · exact fs.id_inj (NameTree.get?_of_get?_set h nofun).2 (NameTree.get?_of_get?_set h' nofun).2

/-- Gives a file new content. -/
def setContent (fs : FileSystem) (id : FileId) (content : FileContent) : FileSystem where
  nodes := fs.nodes
  contents := fs.contents.set id content
  home := fs.home
  id_lt h := by
    rw [List.length_set]
    exact fs.id_lt h
  id_inj := fs.id_inj

end FileSystem

end BootImage
