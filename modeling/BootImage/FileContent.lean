/-!
# The bytes of a file

A file may be far longer than what was written to it: the rest reads as zeros and takes no room.
So its content is kept as runs of bytes and runs of zeros. `FileContent.toList` is the sequence of
bytes that the runs stand for, and every operation is described by what it does to that sequence.
-/

namespace BootImage

/-- A run of consecutive bytes in a file. -/
inductive Extent
  | zeros (len : Nat)
  | data (bytes : Array UInt8)
deriving Repr

namespace Extent

/-- The bytes of a run. -/
def toList : Extent → List UInt8
  | .zeros len => List.replicate len 0
  | .data bytes => bytes.toList

/-- The number of bytes in a run. -/
def length : Extent → Nat
  | .zeros len => len
  | .data bytes => bytes.size

/-- The bytes of a run from `start` up to `stop`, as far as there are any. -/
def slice (start stop : Nat) : Extent → Extent
  | .zeros len => .zeros (min stop len - start)
  | .data bytes => .data (bytes.extract start stop)

@[simp] theorem length_toList (run : Extent) : run.toList.length = run.length := by
  cases run <;> simp [toList, length]

@[simp] theorem toList_slice (start stop : Nat) (run : Extent) :
    (run.slice start stop).toList = (run.toList.take stop).drop start := by
  cases run <;> simp [toList, slice, List.take_replicate, List.extract_eq_take_drop, List.drop_take]

/-- Puts a run before others. Empty runs are left out, and neighbours of a kind are merged unless
the first is much longer, so that a file that is written piece by piece keeps few runs. -/
def cons (run : Extent) (runs : List Extent) : List Extent :=
  if run.length = 0 then
    runs
  else
    match run, runs with
    | .zeros len, .zeros more :: rest => .zeros (len + more) :: rest
    | .data bytes, .data more :: rest =>
      if bytes.size ≤ 2 * more.size then .data (bytes ++ more) :: rest else run :: runs
    | _, _ => run :: runs

/-- The first `n` bytes of some runs. -/
def takeAll : Nat → List Extent → List Extent
  | _, [] => []
  | n, run :: runs =>
    if n < run.length then [run.slice 0 n] else run :: takeAll (n - run.length) runs

/-- Some runs without their first `n` bytes. -/
def dropAll : Nat → List Extent → List Extent
  | _, [] => []
  | n, run :: runs =>
    if n < run.length then run.slice n run.length :: runs else dropAll (n - run.length) runs

/-- The `len` bytes from an offset on in some runs, as far as there are any. -/
def readAll : (offset len : Nat) → List Extent → List UInt8
  | _, _, [] => []
  | offset, len, run :: runs =>
    if len = 0 then []
    else if run.length ≤ offset then readAll (offset - run.length) len runs
    else
      (run.slice offset (offset + len)).toList ++ readAll 0 (offset + len - run.length) runs

end Extent

/-- The content of a file. -/
structure FileContent where
  runs : List Extent
deriving Repr

namespace FileContent

/-- The bytes of the file. -/
def toList (content : FileContent) : List UInt8 :=
  content.runs.flatMap Extent.toList

/-- The file made of some runs. -/
def ofRuns (runs : List Extent) : FileContent :=
  ⟨runs.foldr Extent.cons []⟩

/-- The file with the given bytes. -/
def ofList (bytes : List UInt8) : FileContent :=
  ofRuns [.data bytes.toArray]

/-- The file without bytes. -/
def empty : FileContent :=
  ⟨[]⟩

/-- The number of bytes. -/
def length (content : FileContent) : Nat :=
  content.runs.foldr (fun run len => run.length + len) 0

/-- Cuts the file off at a length, or fills it up with zeros. -/
def resize (len : Nat) (content : FileContent) : FileContent :=
  ofRuns (Extent.takeAll len content.runs ++ [.zeros (len - content.length)])

/-- Puts bytes at an offset, over what was there. A gap before them is filled with zeros, and
writing nothing changes nothing. -/
def write (offset : Nat) (bytes : List UInt8) (content : FileContent) : FileContent :=
  if bytes = [] then
    content
  else
    ofRuns (Extent.takeAll offset content.runs ++ .zeros (offset - content.length) ::
      .data bytes.toArray :: Extent.dropAll (offset + bytes.length) content.runs)

/-- The bytes from an offset on, `len` of them or as many as there are. -/
def read (offset len : Nat) (content : FileContent) : List UInt8 :=
  Extent.readAll offset len content.runs

end FileContent

/-! ## What the operations do to the bytes -/

namespace Extent

theorem flatMap_toList_cons (run : Extent) (runs : List Extent) :
    (cons run runs).flatMap toList = run.toList ++ runs.flatMap toList := by
  unfold cons
  split
  · rename_i h
    have : run.toList = [] := List.eq_nil_of_length_eq_zero (by simpa using h)
    simp [this]
  · split
    · simp [toList, ← List.append_assoc, List.replicate_append_replicate]
    · split
      · simp [toList]
      · simp
    · simp

theorem flatMap_toList_takeAll (n : Nat) (runs : List Extent) :
    (takeAll n runs).flatMap toList = (runs.flatMap toList).take n := by
  induction runs generalizing n with
  | nil => simp [takeAll]
  | cons run runs ih =>
    simp only [takeAll, List.flatMap_cons, List.take_append, length_toList]
    split
    · rename_i h
      simp [Nat.sub_eq_zero_of_le (Nat.le_of_lt h)]
    · rename_i h
      have whole : run.toList.take n = run.toList :=
        List.take_of_length_le (by rw [length_toList]; omega)
      rw [List.flatMap_cons, ih, whole]

theorem flatMap_toList_dropAll (n : Nat) (runs : List Extent) :
    (dropAll n runs).flatMap toList = (runs.flatMap toList).drop n := by
  induction runs generalizing n with
  | nil => simp [dropAll]
  | cons run runs ih =>
    simp only [dropAll, List.flatMap_cons, List.drop_append, length_toList]
    split
    · rename_i h
      have whole : run.toList.take run.length = run.toList :=
        List.take_of_length_le (Nat.le_of_eq (length_toList run))
      simp [Nat.sub_eq_zero_of_le (Nat.le_of_lt h), whole]
    · rename_i h
      have none_left : run.toList.drop n = [] :=
        List.drop_eq_nil_of_le (by rw [length_toList]; omega)
      rw [ih, none_left, List.nil_append]

theorem readAll_eq (offset len : Nat) (runs : List Extent) :
    readAll offset len runs = ((runs.flatMap toList).drop offset).take len := by
  induction runs generalizing offset len with
  | nil => simp [readAll]
  | cons run runs ih =>
    simp only [readAll, List.flatMap_cons, List.drop_append, length_toList]
    split
    · rename_i h
      simp [h]
    · split
      · rename_i h
        have none_left : run.toList.drop offset = [] :=
          List.drop_eq_nil_of_le (by rw [length_toList]; omega)
        rw [ih, none_left, List.nil_append]
      · rename_i h
        rw [ih, toList_slice, List.drop_take, Nat.add_sub_cancel_left, List.take_append,
          Nat.sub_eq_zero_of_le (by omega : offset ≤ run.length), List.drop_zero,
          List.length_drop, length_toList]
        congr 2
        omega

end Extent

namespace FileContent

@[simp] theorem toList_ofRuns (runs : List Extent) :
    (ofRuns runs).toList = runs.flatMap Extent.toList := by
  induction runs with
  | nil => rfl
  | cons run runs ih =>
    simp only [ofRuns, toList, List.foldr_cons, List.flatMap_cons] at ih ⊢
    rw [Extent.flatMap_toList_cons, ih]

@[simp] theorem toList_ofList (bytes : List UInt8) : (ofList bytes).toList = bytes := by
  simp [ofList, Extent.toList]

@[simp] theorem toList_empty : empty.toList = [] := rfl

@[simp] theorem length_toList (content : FileContent) : content.toList.length = content.length := by
  unfold toList length
  induction content.runs with
  | nil => rfl
  | cons run runs ih =>
    rw [List.flatMap_cons, List.length_append, ih, Extent.length_toList, List.foldr_cons]

@[simp] theorem toList_resize (len : Nat) (content : FileContent) :
    (content.resize len).toList =
      content.toList.take len ++ List.replicate (len - content.length) 0 := by
  rw [resize, toList_ofRuns]
  simp [toList, Extent.flatMap_toList_takeAll, Extent.toList]

theorem toList_write {bytes : List UInt8} (h : bytes ≠ []) (offset : Nat) (content : FileContent) :
    (content.write offset bytes).toList =
      content.toList.take offset ++ List.replicate (offset - content.length) 0 ++ bytes ++
        content.toList.drop (offset + bytes.length) := by
  rw [write, if_neg h, toList_ofRuns]
  simp [toList, Extent.flatMap_toList_takeAll, Extent.flatMap_toList_dropAll, Extent.toList]

@[simp] theorem write_nil (offset : Nat) (content : FileContent) :
    content.write offset [] = content := by
  simp [write]

theorem read_eq (offset len : Nat) (content : FileContent) :
    content.read offset len = (content.toList.drop offset).take len :=
  Extent.readAll_eq offset len content.runs

end FileContent

end BootImage
