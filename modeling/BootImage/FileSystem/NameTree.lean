import BootImage.Path
/-!
# Trees of names

A `NameTree` has values at some of the places below a root. A place is given by the names on the
way to it, the first one first, and `NameTree.get?` is what is there. Where a long way is gone step
by step, `NameTree.subtree` keeps what is still ahead, so that no step starts at the root again.

`NameTree.get?_set` is all there is to say about a change: the place has its new value, and every
other place has the one it had.
-/

namespace BootImage

/-- Values at some of the places below a root: for each name the value there, if any, and the tree
below it. The names are in order. -/
inductive NameTree (α : Type)
  | empty
  | branch (name : Name) (value : Option α) (inner : NameTree α) (others : NameTree α)

namespace NameTree

variable {α : Type}

/-! ## One name -/

/-- The value of a name right below the root. -/
def value? : NameTree α → Name → Option α
  | empty, _ => none
  | branch name value _ others, wanted => if name = wanted then value else others.value? wanted

/-- The tree below a name. -/
def subtree : NameTree α → Name → NameTree α
  | empty, _ => empty
  | branch name _ inner others, wanted => if name = wanted then inner else others.subtree wanted

/-- Gives a name its value and the tree below it. -/
def put : NameTree α → Name → Option α → NameTree α → NameTree α
  | empty, new, newValue, newInner => branch new newValue newInner empty
  | branch name value inner others, new, newValue, newInner =>
    if name = new then
      branch new newValue newInner others
    else if name < new then
      branch name value inner (others.put new newValue newInner)
    else
      branch new newValue newInner (branch name value inner others)

theorem value?_put (tree : NameTree α) (new : Name) (newValue : Option α) (newInner : NameTree α)
    (name : Name) :
    (tree.put new newValue newInner).value? name =
      if name = new then newValue else tree.value? name := by
  induction tree with
  | empty => grind [put, value?]
  | branch first value inner others _ ih => grind [put, value?]

theorem subtree_put (tree : NameTree α) (new : Name) (newValue : Option α) (newInner : NameTree α)
    (name : Name) :
    (tree.put new newValue newInner).subtree name =
      if name = new then newInner else tree.subtree name := by
  induction tree with
  | empty => grind [put, subtree]
  | branch first value inner others _ ih => grind [put, subtree]

/-! ## A way of several names -/

/-- The tree at the end of a way. -/
def walk (tree : NameTree α) (way : List Name) : NameTree α :=
  way.foldl subtree tree

/-- The value at the end of a way. The root has none. -/
def get? : NameTree α → (way : List Name) → Option α
  | _, [] => none
  | tree, [name] => tree.value? name
  | tree, name :: next :: way => (tree.subtree name).get? (next :: way)

/-- Gives the end of a way a value, or takes its value away. The root does not get one. -/
def set : NameTree α → (way : List Name) → Option α → NameTree α
  | tree, [], _ => tree
  | tree, [name], value => tree.put name value (tree.subtree name)
  | tree, name :: next :: way, value =>
    tree.put name (tree.value? name) ((tree.subtree name).set (next :: way) value)

@[simp] theorem get?_nil (tree : NameTree α) : tree.get? [] = none := by
  cases tree <;> rfl

@[simp] theorem get?_empty (way : List Name) : (empty : NameTree α).get? way = none := by
  induction way with
  | nil => rfl
  | cons name way ih =>
    cases way with
    | nil => rfl
    | cons next way => exact ih

/-- Going a way and looking at a name there is looking at the end of the longer way. -/
theorem get?_append (tree : NameTree α) (way : List Name) (name : Name) :
    tree.get? (way ++ [name]) = (tree.walk way).value? name := by
  induction way generalizing tree with
  | nil => rfl
  | cons first way ih =>
    rw [walk, List.foldl_cons, ← walk, ← ih]
    cases way <;> rfl

theorem get?_set {way : List Name} (h : way ≠ []) (tree : NameTree α) (value : Option α)
    (w : List Name) : (tree.set way value).get? w = if w = way then value else tree.get? w := by
  induction way generalizing tree w with
  | nil => exact absurd rfl h
  | cons name rest ih =>
    rcases w with _ | ⟨n, _ | ⟨m, w⟩⟩
    · simp
    · rcases rest with _ | ⟨next, rest⟩
      · simp [set, get?, value?_put]
      · by_cases e : n = name
        · subst e
          simp [set, get?, value?_put]
        · simp [set, get?, value?_put, e]
    · rcases rest with _ | ⟨next, rest⟩
      · by_cases e : n = name
        · subst e
          simp [set, get?, subtree_put]
        · simp [set, get?, subtree_put, e]
      · by_cases e : n = name
        · subst e
          simp [set, get?, subtree_put, ih (List.cons_ne_nil next rest)]
        · simp [set, get?, subtree_put, e]

@[simp] theorem set_nil (tree : NameTree α) (value : Option α) : tree.set [] value = tree := by
  cases tree <;> rfl

/-- A value that is there after a change is the new one or was there before. -/
theorem get?_set_eq_some {tree : NameTree α} {way w : List Name} {value : Option α} {found : α}
    (h : (tree.set way value).get? w = some found) :
    w = way ∧ value = some found ∨ w ≠ way ∧ tree.get? w = some found := by
  by_cases hne : way = []
  · subst hne
    rw [set_nil] at h
    exact .inr ⟨fun e => by simp [e] at h, h⟩
  · rw [get?_set hne] at h
    split at h
    · exact .inl ⟨‹_›, h⟩
    · exact .inr ⟨‹_›, h⟩

/-- A value that a change did not bring was there before, elsewhere. -/
theorem get?_of_get?_set {tree : NameTree α} {way w : List Name} {value : Option α} {found : α}
    (h : (tree.set way value).get? w = some found) (hne : value ≠ some found) :
    w ≠ way ∧ tree.get? w = some found :=
  (get?_set_eq_some h).resolve_left fun e => hne e.2

/-! ## Everything -/

/-- All values and their places, the last name of each place first and `above` behind its first
name. A name comes before those below it, and names come in order. -/
def valuesFrom (above : List Name) : NameTree α → List (List Name × α)
  | empty => []
  | branch name value inner others =>
    (value.map fun v => (name :: above, v)).toList ++ inner.valuesFrom (name :: above) ++
      others.valuesFrom above

end NameTree

end BootImage
