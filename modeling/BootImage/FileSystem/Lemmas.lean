import BootImage.FileSystem.Basic
/-!
# What the elementary changes do

Each elementary change of a file tree is described by what it does to `FileSystem.node?` and
`FileSystem.content`. With these equations the tree of entries is never looked at again.
-/

namespace BootImage

namespace FileSystem

@[simp] theorem node?_root (fs : FileSystem) : fs.node? [] = some .directory :=
  rfl

theorem node?_eq {place : Location} (h : place ≠ []) (fs : FileSystem) :
    fs.node? place = fs.nodes.get? place.reverse := by
  simp [node?, h]

/-- The entry of a name in a directory is the one that the name has below it. -/
theorem node?_cons (fs : FileSystem) (name : Name) (directory : Location) :
    fs.node? (name :: directory) = (fs.within directory).value? name := by
  rw [node?_eq (List.cons_ne_nil name directory), List.reverse_cons, NameTree.get?_append, within]

theorem within_cons (fs : FileSystem) (name : Name) (directory : Location) :
    fs.within (name :: directory) = (fs.within directory).subtree name := by
  simp [within, NameTree.walk]

theorem lt_of_node? {fs : FileSystem} {place : Location} {id : FileId}
    (h : fs.node? place = some (.file id)) : id < fs.contents.length := by
  cases place with
  | nil => cases h
  | cons name directory => exact fs.id_lt h

/-- Two entries are never the same file. -/
theorem node?_inj {fs : FileSystem} {p q : Location} {id : FileId}
    (hp : fs.node? p = some (.file id)) (hq : fs.node? q = some (.file id)) : p = q := by
  cases p with
  | nil => cases hp
  | cons name directory =>
    cases q with
    | nil => cases hq
    | cons => exact List.reverse_inj.1 (fs.id_inj hp hq)

theorem get?_set_reverse {place : Location} (h : place ≠ []) (nodes : NameTree Node)
    (value : Option Node) (p : Location) :
    (nodes.set place.reverse value).get? p.reverse =
      if p = place then value else nodes.get? p.reverse := by
  rw [NameTree.get?_set (by simpa using h)]
  simp

theorem node?_addFile {place : Location} (h : place ≠ []) (fs : FileSystem) (content : FileContent)
    (p : Location) :
    (fs.addFile place content).node? p =
      if p = place then some (.file fs.contents.length) else fs.node? p := by
  by_cases hp : p = []
  · subst hp
    simp [Ne.symm h]
  · rw [node?_eq hp, node?_eq hp]
    exact get?_set_reverse h _ _ p

theorem node?_addDirectory (fs : FileSystem) (place p : Location) :
    (fs.addDirectory place).node? p = if p = place then some .directory else fs.node? p := by
  by_cases hp : p = []
  · subst hp
    simp
  · by_cases h : place = []
    · subst h
      simp [node?, addDirectory, hp]
    · rw [node?_eq hp, node?_eq hp]
      exact get?_set_reverse h _ _ p

theorem node?_erase {place : Location} (h : place ≠ []) (fs : FileSystem) (p : Location) :
    (fs.erase place).node? p = if p = place then none else fs.node? p := by
  by_cases hp : p = []
  · subst hp
    simp [Ne.symm h]
  · rw [node?_eq hp, node?_eq hp]
    exact get?_set_reverse h _ _ p

theorem node?_setContent (fs : FileSystem) (id : FileId) (content : FileContent) (p : Location) :
    (fs.setContent id content).node? p = fs.node? p :=
  rfl

/-- After a move the target has what the source had, and nothing is left at the source. -/
theorem node?_move {source target : Location} (hs : source ≠ []) (ht : target ≠ [])
    (fs : FileSystem) (p : Location) :
    (fs.move source target).node? p =
      if p = target then fs.node? source else if p = source then none else fs.node? p := by
  by_cases hp : p = []
  · subst hp
    simp [Ne.symm hs, Ne.symm ht]
  · rw [node?_eq hp, node?_eq hs, node?_eq hp]
    simp only [move, get?_set_reverse ht, get?_set_reverse hs]

theorem content_addFile_new (fs : FileSystem) (place : Location) (content : FileContent) :
    (fs.addFile place content).content fs.contents.length = content := by
  simp [FileSystem.content, addFile]

theorem content_addFile_of_lt {fs : FileSystem} {id : FileId} (h : id < fs.contents.length)
    (place : Location) (content : FileContent) :
    (fs.addFile place content).content id = fs.content id := by
  simp [FileSystem.content, addFile, List.getElem?_append_left h]

theorem content_setContent {fs : FileSystem} {id : FileId} (h : id < fs.contents.length)
    (content : FileContent) (i : FileId) :
    (fs.setContent id content).content i = if i = id then content else fs.content i := by
  by_cases e : i = id
  · subst e
    simp [FileSystem.content, setContent, h]
  · simp [FileSystem.content, setContent, e, Ne.symm e]

end FileSystem

end BootImage
