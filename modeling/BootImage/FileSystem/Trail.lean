import BootImage.FileSystem.Lemmas
/-!
# Trails

Following a path keeps every directory it has passed, so that a step down looks only at the
entries of the last one and a step up has nothing to look for. `FileSystem.around_trailTo` says
that this shows the same entries as the place alone.
-/

namespace BootImage

/-- The directories passed on the way to a place, the last one first, each with what is in it. -/
abbrev Trail := List (Name × NameTree Node)

/-- The place a trail has come to. -/
def Trail.place (trail : Trail) : Location :=
  trail.map Prod.fst

namespace FileSystem

/-- What is in the directory where a trail has come to. -/
def around (fs : FileSystem) : Trail → NameTree Node
  | [] => fs.nodes
  | (_, inner) :: _ => inner

/-- A trail one name further. -/
def extend (fs : FileSystem) (trail : Trail) (name : Name) : Trail :=
  (name, (fs.around trail).subtree name) :: trail

/-- The trail from the root to a place. -/
def trailTo (fs : FileSystem) : Location → Trail
  | [] => []
  | name :: directory => fs.extend (fs.trailTo directory) name

theorem extend_trailTo (fs : FileSystem) (directory : Location) (name : Name) :
    fs.extend (fs.trailTo directory) name = fs.trailTo (name :: directory) :=
  rfl

theorem tail_trailTo (fs : FileSystem) (place : Location) :
    (fs.trailTo place).tail = fs.trailTo place.tail := by
  cases place <;> rfl

@[simp] theorem place_trailTo (fs : FileSystem) (place : Location) :
    (fs.trailTo place).place = place := by
  induction place with
  | nil => rfl
  | cons name directory ih => exact congrArg (name :: ·) ih

theorem around_trailTo (fs : FileSystem) (place : Location) :
    fs.around (fs.trailTo place) = fs.within place := by
  induction place with
  | nil => rfl
  | cons name directory ih => rw [within_cons, ← ih]; rfl

end FileSystem

end BootImage
