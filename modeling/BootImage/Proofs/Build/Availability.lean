import BootImage.Proofs.Build.FreshTags
import BootImage.Proofs.Disk.Opening
import BootImage.Proofs.Path.RawName
/-!
# Where an image can be published

The staging file of an ordinary path can be made if all directories on the way are there and neither its
name nor its whole path is too long (`FileSystem.Stageable`). Both are forty-one bytes longer than those that
were asked for, so the limits bite on a name and a path that nobody has typed. With the staging file in
place only the rename is left that can be refused, and it is if the path leads to a directory. How far the
progress has come tells the two refusals apart (`Image.publish_ok_iff_stageable`).

All this is about paths that are text. A staging file is named after what is shown of its target's name, and
that may be longer than a name that is no text (`Image.publish_refused_unreadable`).
-/

namespace BootImage

open FileSystem

namespace FileSystem

variable {fs : FileSystem}

/-! ## Ways through directories -/

theorem descend_eq_ok_iff {directory next : Location} {name : Name} (h : Path.ordinary name = true) :
    fs.descend directory name = .ok next ↔
      fs.lookup directory name = .ok (some .directory) ∧ next = name :: directory := by
  rw [descend, if_neg (Path.ne_dot_of_ordinary h), if_neg (Path.ne_dotDot_of_ordinary h)]
  rcases fs.lookup directory name with cause | _ | _ | id <;> simp [eq_comm]

/-- Names lead to a place if each of them is that of a directory in the one before. -/
theorem foldlM_descend_eq_ok_iff {names : List Name} (h : ∀ name ∈ names, Path.ordinary name = true)
    {start place : Location} :
    names.foldlM fs.descend start = .ok place ↔
      place = names.reverse ++ start ∧ ∀ front name rest, names = front ++ name :: rest →
        fs.lookup (front.reverse ++ start) name = .ok (some .directory) := by
  induction names generalizing start with
  | nil => simp [pure, Except.pure, eq_comm]
  | cons first names ih =>
    obtain ⟨hfirst, hnames⟩ := List.forall_mem_cons.1 h
    have hbind : (first :: names).foldlM fs.descend start = .ok place ↔
        fs.lookup start first = .ok (some .directory) ∧
          names.foldlM fs.descend (first :: start) = .ok place := by
      rw [List.foldlM_cons]
      constructor
      · intro hwalk
        obtain ⟨next, hnext, hwalk⟩ := bind_eq_ok hwalk
        obtain ⟨hlookup, rfl⟩ := (descend_eq_ok_iff hfirst).1 hnext
        exact ⟨hlookup, hwalk⟩
      · rintro ⟨hlookup, hwalk⟩
        rw [(descend_eq_ok_iff hfirst).2 ⟨hlookup, rfl⟩]
        exact hwalk
    rw [hbind, ih hnames]
    constructor
    · rintro ⟨hlookup, rfl, hways⟩
      refine ⟨by simp, fun front name rest hsplit => ?_⟩
      rcases List.cons_eq_append_iff.1 hsplit with ⟨rfl, hrest⟩ | ⟨front, rfl, hrest⟩
      · obtain ⟨rfl, rfl⟩ := List.cons.inj hrest
        exact hlookup
      · simpa using hways front name rest hrest
    · rintro ⟨rfl, hways⟩
      refine ⟨hways [] first names rfl, by simp, fun front name rest hsplit => ?_⟩
      simpa using hways (first :: front) name rest (by rw [hsplit]; rfl)

/-- Every proper prefix of a path from the home directory is there and is a directory. -/
def Passable (fs : FileSystem) (path : Path) : Prop :=
  ∀ front name rest, path.pieces = front ++ name :: rest → rest ≠ [] →
    fs.lookup (front.reverse ++ fs.home) name = .ok (some .directory)

theorem passable_iff {path : Path} (h : path.Ordinary) {front : List Name} {last : Name}
    (hpieces : path.pieces = front ++ [last]) :
    fs.Passable path ↔ front.foldlM fs.descend fs.home = .ok (front.reverse ++ fs.home) := by
  rw [foldlM_descend_eq_ok_iff (h.front hpieces), and_iff_right rfl]
  constructor
  · intro hpassable front' name rest hsplit
    exact hpassable front' name (rest ++ [last]) (by rw [hpieces, hsplit]; simp) (by simp)
  · intro hways front' name rest hsplit hrest
    obtain ⟨rest, other, rfl⟩ := List.eq_nil_or_concat rest |>.resolve_left hrest
    rw [hpieces, List.concat_eq_append, ← List.cons_append, ← List.append_assoc] at hsplit
    exact hways front' name rest (List.append_inj_left' hsplit rfl)

/-! ## Staging files beside ordinary paths -/

/-- A staging file can be made beside a path: its directory is there, and its name and its path are not too
long. The suffix is a dot, the digits of the tag, and the extension. -/
structure Stageable (fs : FileSystem) (path : Path) : Prop where
  passable : fs.Passable path
  name_le : ∀ name, path.pieces.getLast? = some name → name.byteLength ≤ 214
  path_lt : Name.byteLength path.chars + 41 < pathLimit

theorem stageable_iff {path : Path} (h : path.Ordinary) (tag : Uuid) :
    fs.Stageable path ↔ ∃ place, fs.locate? (path.staging tag) = some place := by
  obtain ⟨front, last, hpieces⟩ := Path.exists_pieces path
  have hlast : path.pieces.getLast? = some last := by rw [hpieces, List.getLast?_concat]
  have hname : (last ++ Path.stagingSuffix tag).byteLength = last.byteLength + 41 := by
    rw [Name.byteLength_append, Path.byteLength_stagingSuffix]
  have hresolve := (h.staging tag).resolve_eq (h.pieces_staging_eq hpieces tag) fs
  rw [h.byteLength_staging_eq] at hresolve
  constructor
  · rintro ⟨hpassable, hshort, hpath⟩
    rw [if_neg (Nat.not_le.2 hpath), (passable_iff h hpieces).1 hpassable] at hresolve
    refine ⟨_, locate?_eq_some_iff.2 ⟨_, _, hresolve, ?_, rfl⟩⟩
    have hle := hshort last hlast
    rw [hname, nameLimit]
    omega
  · rintro ⟨place, hplace⟩
    obtain ⟨directory, name, hentry, hshort, rfl⟩ := locate?_eq_some_iff.1 hplace
    rw [hresolve] at hentry
    by_cases hpath : pathLimit ≤ Name.byteLength path.chars + 41
    · rw [if_pos hpath] at hentry
      cases hentry
    · rw [if_neg hpath] at hentry
      cases hway : front.foldlM fs.descend fs.home with
      | error cause =>
        rw [hway] at hentry
        cases hentry
      | ok parent =>
        rw [hway] at hentry
        obtain ⟨-, rfl, -⟩ := Destination.entry.inj (Except.ok.inj hentry)
        obtain ⟨rfl, -⟩ := (foldlM_descend_eq_ok_iff (h.front hpieces)).1 hway
        refine ⟨(passable_iff h hpieces).2 hway, fun name hm => ?_, Nat.lt_of_not_le hpath⟩
        rw [hlast, Option.some.injEq] at hm
        rw [hname, nameLimit] at hshort
        rw [← hm]
        omega

theorem createFile_staging_iff {path : Path} (h : path.Ordinary) {tag : Uuid}
    (hfresh : Build.Fresh path tag fs) :
    fs.Stageable path ↔ ∃ made, fs.createFile (path.staging tag) = .ok made := by
  rw [stageable_iff h tag]
  constructor
  · rintro ⟨place, hplace⟩
    have hvacant := entry?_eq_none_iff.1 (hfresh place hplace)
    exact ⟨_, createFile_eq_ok_iff.2 ⟨place, hplace, hvacant, rfl, rfl⟩⟩
  · rintro ⟨⟨file, made⟩, hmade⟩
    obtain ⟨place, hplace, -⟩ := createFile_eq_ok_iff.1 hmade
    exact ⟨place, hplace⟩

end FileSystem

theorem Disk.renameFile_of_commit {disk : Disk} {fs after : FileSystem} {cause : SystemError}
    (h : disk.commit fs = (.error (.system cause), after)) :
    fs.renameFile disk.staging disk.target = .error cause := by
  unfold commit at h
  cases hr : fs.renameFile disk.staging disk.target with
  | error refusal =>
    simp only [hr, Prod.mk.injEq, Except.error.injEq, IoError.system.injEq] at h
    rw [h.1]
  | ok renamed => simp [hr] at h

/-- Behind a way that can be taken, a directory is all that a commit does not replace. -/
theorem Disk.answer_of_stageable {fs : FileSystem} {path : Path} (h : path.Ordinary)
    (hstageable : fs.Stageable path) :
    answer path fs = if fs.entry? (path.pieces.reverse ++ fs.home) = some .directory then
      .error (.system .isADirectory) else .ok () := by
  obtain ⟨front, last, hpieces⟩ := Path.exists_pieces path
  have hpath : ¬ pathLimit ≤ Name.byteLength path.chars := by
    have hlt := hstageable.path_lt
    omega
  have hshort : ¬ nameLimit < last.byteLength := by
    have hle := hstageable.name_le last (by rw [hpieces, List.getLast?_concat])
    rw [nameLimit]
    omega
  have hresolve := h.resolve_eq hpieces fs
  rw [if_neg hpath, (passable_iff h hpieces).1 hstageable.passable] at hresolve
  have hplace : path.pieces.reverse ++ fs.home = last :: (front.reverse ++ fs.home) := by simp [hpieces]
  have hentry : fs.entry? (last :: (front.reverse ++ fs.home)) = some .directory ↔
      fs.node? (last :: (front.reverse ++ fs.home)) = some .directory := by
    unfold entry?
    rcases fs.node? (last :: (front.reverse ++ fs.home)) with _ | _ | id <;> simp
  simp only [answer, hresolve, Except.map, hshort, if_false, Bool.false_eq_true, hplace, hentry]

namespace Image

variable {boot : List UInt8} {kernel : Option (List UInt8)} {config : Config} {image : Image}
variable {output : Path} {verify : Bool} {tag : Uuid} {progress : Progress} {before : FileSystem}

/-- Nothing has been done: the system has refused the staging file, and the progress is what it was. -/
structure FailsToOpen (image : Image) (output : Path) (verify : Bool) (tag : Uuid) (progress : Progress)
    (before : FileSystem) (cause : SystemError) : Prop where
  refused : before.createFile (output.staging tag) = .error cause
  publish_eq : image.publish output verify tag progress before =
    ⟨.error (.error (.system cause)), before, progress⟩

/-- All has been done but the last step: the whole image is in the staging file, and the system has refused to
rename it. All sectors are counted. -/
structure FailsToRename (image : Image) (output : Path) (verify : Bool) (tag : Uuid) (progress : Progress)
    (before now after : FileSystem) (cause : SystemError) (count : Nat) : Prop where
  sectorCount : image.layout.sectorCount = .ok count
  staged : now.readAll (output.staging tag) = .ok image.bytes
  refused : now.renameFile (output.staging tag) output = .error cause
  publish_eq : image.publish output verify tag progress before =
    ⟨.error (.error (.system cause)), after, ⟨progress.position + count, some count⟩⟩
  sameOutside : SameOutside ∅ before after

theorem Assembled.exists_failsToOpen (h : Assembled boot kernel config image) (hordinary : output.Ordinary)
    (hfresh : Build.Fresh output tag before) (hnot : ¬ before.Stageable output) (verify : Bool)
    (progress : Progress) : ∃ cause, FailsToOpen image output verify tag progress before cause := by
  cases hmade : before.createFile (output.staging tag) with
  | error cause =>
    exact ⟨cause, hmade, h.publish_eq_of_not_created verify progress (Disk.create_of_not_made hmade)⟩
  | ok made => exact absurd ((createFile_staging_iff hordinary hfresh).2 ⟨made, hmade⟩) hnot

theorem Assembled.failsToRename (h : Assembled boot kernel config image) {made : FileId × FileSystem}
    {cause : SystemError} (hmade : before.createFile (output.staging tag) = .ok made)
    (hanswer : Disk.answer output before = .error (.system cause)) (verify : Bool) (progress : Progress) :
    ∃ now after count, FailsToRename image output verify tag progress before now after cause count := by
  obtain ⟨place, hplace, hvacant, -⟩ := createFile_eq_ok_iff.1 hmade
  obtain ⟨disk, created, hc⟩ := Disk.exists_create hplace hvacant h.fits
  obtain ⟨staged, now, hpending, hbytes, hpublish⟩ := h.publish_eq_of_created progress hc
  obtain ⟨rfl, -⟩ := Disk.create_ok hc
  have hresult := @publish_of_made _ _ _ _ _ verify _ progress _ h _ hmade
  rw [hpublish verify, hanswer] at hresult
  rcases hcommit : Disk.commit _ now with ⟨refusal | _, after⟩
  · rw [hcommit] at hresult
    obtain rfl : refusal = .system cause := Failure.error.inj (Except.error.inj hresult)
    refine ⟨now, after, _, {
      sectorCount := h.sectorCount_eq
      staged := readAll_eq_ok_iff.2 ⟨staged, hpending.staged.locate, ?_⟩
      refused := Disk.renameFile_of_commit hcommit
      publish_eq := by rw [hpublish verify, hcommit]; rfl
      sameOutside := (hpending.commit_error hcommit).sameOutside
    }⟩
    rw [entry?_of_file hpending.staged.node, hbytes]
  · rw [hcommit] at hresult
    cases hresult

/-- Of an ordinary output path, with a fresh tag: an image is published if and only if its staging file can be
made beside the path and the path does not lead to a directory. If the staging file cannot be made, nothing
has been counted; if the path leads to a directory, the rename is refused after all sectors have been. -/
theorem publish_ok_iff_stageable (h : assemble boot kernel config = .ok image) (hordinary : output.Ordinary)
    (hfresh : Build.Fresh output tag before) (verify : Bool) (progress : Progress) :
    let directory := before.entry? (output.pieces.reverse ++ before.home) = some .directory
    ((image.publish output verify tag progress before).result = .ok () ↔
      before.Stageable output ∧ ¬ directory) ∧
    (¬ before.Stageable output →
      ∃ cause, FailsToOpen image output verify tag progress before cause) ∧
    (before.Stageable output → directory →
      ∃ now after count,
        FailsToRename image output verify tag progress before now after .isADirectory count) := by
  intro directory
  have hassembled := assembled_of_assemble h
  have hopen : ¬ before.Stageable output →
      ∃ cause, FailsToOpen image output verify tag progress before cause := fun hnot =>
    hassembled.exists_failsToOpen hordinary hfresh hnot verify progress
  have hrename : before.Stageable output → directory → ∃ now after count,
      FailsToRename image output verify tag progress before now after .isADirectory count := by
    intro hstageable hdirectory
    obtain ⟨made, hmade⟩ := (createFile_staging_iff hordinary hfresh).1 hstageable
    refine hassembled.failsToRename hmade ?_ verify progress
    rw [Disk.answer_of_stageable hordinary hstageable, if_pos hdirectory]
  refine ⟨⟨fun hok => ?_, ?_⟩, hopen, hrename⟩
  · by_cases hstageable : before.Stageable output
    · refine ⟨hstageable, fun hdirectory => ?_⟩
      obtain ⟨now, after, count, hfails⟩ := hrename hstageable hdirectory
      rw [hfails.publish_eq] at hok
      cases hok
    · obtain ⟨cause, hfails⟩ := hopen hstageable
      rw [hfails.publish_eq] at hok
      cases hok
  · rintro ⟨hstageable, hfree⟩
    obtain ⟨made, hmade⟩ := (createFile_staging_iff hordinary hfresh).1 hstageable
    rw [hassembled.publish_of_made hmade, Disk.answer_of_stageable hordinary hstageable, if_neg hfree]
    rfl

/-- Beside a directory inside `d` an image is published; over that directory it is staged and not renamed;
and in a directory that is not there it is not even staged. -/
theorem publish_ok_iff_stageable_around_directory :
    ∃ image before, assemble [7, 8] none ⟨1, 1, 2, 2⟩ = .ok image ∧
      (image.publish ⟨['d', '/', 'x']⟩ true (.ofRandom 0) ⟨3, none⟩ before).result = .ok () ∧
      (∃ now after count, FailsToRename image ⟨['d', '/', 'o']⟩ true (.ofRandom 0) ⟨3, none⟩ before now
        after .isADirectory count) ∧
      ∃ cause, FailsToOpen image ⟨['n', '/', 'x']⟩ true (.ofRandom 0) ⟨3, none⟩ before cause := by
  let image : Image := ⟨[7, 8], ⟨1, 1, 1, 2, none, 2⟩⟩
  let before := ((FileSystem.empty []).addDirectory [['d']]).addDirectory [['o'], ['d']]
  have himage : assemble [7, 8] none ⟨1, 1, 2, 2⟩ = .ok image := by decide
  have hordinary : ∀ directory ∈ [['d'], ['n']], ∀ name ∈ [['x'], ['o']],
      Path.Ordinary ⟨directory ++ '/' :: name⟩ := by
    intro directory hd name hn
    simp only [List.mem_cons, List.not_mem_nil, or_false] at hd hn
    rcases hd with rfl | rfl <;> rcases hn with rfl | rfl <;> exact ⟨by decide, by decide⟩
  have hplace : ∀ name ∈ [['x'], ['o']],
      before.locate? (Path.staging ⟨['d'] ++ '/' :: name⟩ (.ofRandom 0)) =
          some [name ++ Path.stagingSuffix (.ofRandom 0), ['d']] ∧
        before.entry? [name ++ Path.stagingSuffix (.ofRandom 0), ['d']] = none := by
    decide +kernel
  have hnowhere : before.locate? (Path.staging ⟨['n'] ++ '/' :: ['x']⟩ (.ofRandom 0)) = none := by
    decide +kernel
  have hfresh : ∀ name ∈ [['x'], ['o']], Build.Fresh ⟨['d'] ++ '/' :: name⟩ (.ofRandom 0) before := by
    intro name hn place hlocate
    obtain ⟨hstaging, hvacant⟩ := hplace name hn
    rw [hstaging, Option.some.injEq] at hlocate
    rwa [← hlocate]
  have hstageable : ∀ name ∈ [['x'], ['o']], before.Stageable ⟨['d'] ++ '/' :: name⟩ := fun name hn =>
    (stageable_iff (hordinary ['d'] (by simp) name hn) (.ofRandom 0)).2 ⟨_, (hplace name hn).1⟩
  have hx := publish_ok_iff_stageable himage (hordinary ['d'] (by simp) ['x'] (by simp))
    (hfresh ['x'] (by simp)) true ⟨3, none⟩
  have ho := publish_ok_iff_stageable himage (hordinary ['d'] (by simp) ['o'] (by simp))
    (hfresh ['o'] (by simp)) true ⟨3, none⟩
  refine ⟨image, before, himage, hx.1.2 ⟨hstageable ['x'] (by simp), by decide +kernel⟩,
    ho.2.2 (hstageable ['o'] (by simp)) (by decide +kernel), ?_⟩
  have hn := hordinary ['n'] (by simp) ['x'] (by simp)
  refine (publish_ok_iff_stageable himage hn ?_ true ⟨3, none⟩).2.1 ?_
  · intro place hlocate
    rw [hnowhere] at hlocate
    cases hlocate
  · rw [stageable_iff hn (.ofRandom 0), hnowhere]
    rintro ⟨place, hplace⟩
    cases hplace

/-- Sixteen directories deep, all of them there, and with names that leave room for the suffix: the path has
4070 bytes and is not too long, but the staging path is. -/
theorem publish_refused_deep :
    let directory : Name := List.replicate 240 'a'
    let pieces := List.replicate 16 directory ++ [List.replicate 214 'b']
    let output := Path.ofPieces pieces
    let before := (List.range 16).foldl
      (fun fs depth => fs.addDirectory (List.replicate (depth + 1) directory)) (FileSystem.empty [])
    let image : Image := ⟨[7, 8], ⟨1, 1, 1, 2, none, 2⟩⟩
    assemble [7, 8] none ⟨1, 1, 2, 2⟩ = .ok image ∧ output.Ordinary ∧
      Name.byteLength output.chars < pathLimit ∧ Build.Fresh output (.ofRandom 0) before ∧
      before.Passable output ∧
      before.entry? (output.pieces.reverse ++ before.home) ≠ some .directory ∧
      (∀ name, output.pieces.getLast? = some name → name.byteLength ≤ 214) ∧
      (image.publish output false (.ofRandom 0) ⟨0, none⟩ before).result ≠ .ok () := by
  intro directory pieces output before image
  have himage : assemble [7, 8] none ⟨1, 1, 2, 2⟩ = .ok image := by decide
  have hchars : output.chars = ['/'].intercalate pieces := by
    unfold output
    rw [Path.ofPieces, if_neg (by decide)]
  have hpieces : output.pieces = pieces := by
    unfold Path.pieces
    rw [hchars]
    exact Path.split_intercalate (by decide +kernel) (by decide)
  have hordinary : output.Ordinary := by
    refine ⟨by rw [hpieces]; decide +kernel, ?_⟩
    rw [hchars, List.intercalate, List.mem_flatten]
    decide +kernel
  have hlength : Name.byteLength output.chars = 4070 := by
    rw [Path.byteLength_eq hpieces]
    decide +kernel
  have hlast : ∀ name, output.pieces.getLast? = some name → name.byteLength ≤ 214 := by
    rw [hpieces]
    decide +kernel
  have hpassable : before.Passable output := (passable_iff hordinary hpieces).2 (by decide +kernel)
  have hnot : ¬ before.Stageable output := by
    rintro ⟨-, -, hlt⟩
    rw [hlength] at hlt
    exact absurd hlt (by decide)
  have hfresh : Build.Fresh output (.ofRandom 0) before := by
    intro place hplace
    exact absurd ((stageable_iff hordinary (.ofRandom 0)).2 ⟨place, hplace⟩) hnot
  refine ⟨himage, hordinary, by rw [hlength]; decide, hfresh, hpassable, ?_, hlast, ?_⟩
  · rw [hpieces]
    decide +kernel
  · obtain ⟨cause, hfails⟩ :=
      (assembled_of_assemble himage).exists_failsToOpen hordinary hfresh hnot false ⟨0, none⟩
    rw [hfails.publish_eq]
    intro hok
    cases hok

/-- A target with a name that is text is published through the staging file that the bytes of the name give. -/
theorem publish_eq_publishThrough {directory : Path} {name : Name}
    (h : output.splitName? = some (directory, name)) (image : Image) (verify : Bool) (tag : Uuid)
    (progress : Progress) (before : FileSystem) :
    image.publish output verify tag progress before =
      image.publishThrough (Disk.openAt ((RawName.ofName name).staging directory tag) output) verify progress
        before := by
  rw [RawName.staging_ofName h]
  rfl

/-- Of a name that need not be text it is what is shown of it that has to leave room for the suffix. If it does
not, nothing has been done and nothing has been counted, whatever the target is and whatever the tree holds. -/
theorem Assembled.publishThrough_of_long (h : Assembled boot kernel config image) {name : RawName}
    (hname : name.Ordinary) (hlength : name.length ≤ nameLimit) (hlong : 214 < name.readable.byteLength)
    (tag : Uuid) (target : Path) (verify : Bool) (progress : Progress) (before : FileSystem) :
    image.publishThrough (Disk.openAt (name.staging ⟨[]⟩ tag) target) verify progress before =
      ⟨.error (.error (.system .nameTooLong)), before, progress⟩ := by
  have hrefused := (RawName.createFile_staging_eq_nameTooLong_iff hname hlength tag before).2 hlong
  simp only [publishThrough, h.sectorCount_eq, Disk.openAt, hrefused]

/-- A name of a hundred bytes, none of them in any character: what is shown of it is three times as long. -/
theorem publish_refused_unreadable :
    let name : RawName := List.replicate 100 0xff
    let image : Image := ⟨[7, 8], ⟨1, 1, 1, 2, none, 2⟩⟩
    assemble [7, 8] none ⟨1, 1, 2, 2⟩ = .ok image ∧ name.Ordinary ∧ name.length ≤ 214 ∧
      (∀ text, name ≠ .ofName text) ∧
      ∀ tag target verify progress before,
        image.publishThrough (Disk.openAt (name.staging ⟨[]⟩ tag) target) verify progress before =
          ⟨.error (.error (.system .nameTooLong)), before, progress⟩ := by
  intro name image
  have himage : assemble [7, 8] none ⟨1, 1, 2, 2⟩ = .ok image := by decide
  have hname : name.Ordinary := ⟨by decide, by decide, by decide, by decide, by decide⟩
  have hreadable : name.readable = List.replicate 100 RawName.replacement := RawName.readable_replicate 100
  refine ⟨himage, hname, by decide, fun text htext => ?_, fun tag target verify progress before => ?_⟩
  · have hshown : text = List.replicate 100 RawName.replacement := by
      rw [← hreadable, htext, RawName.readable_ofName]
    have hlength : name.length = 300 := by
      rw [htext, hshown]
      decide +kernel
    exact absurd hlength (by decide)
  · refine (assembled_of_assemble himage).publishThrough_of_long hname (by decide) ?_ tag target verify
      progress before
    rw [hreadable]
    decide +kernel

/-- The limits on the path and on its last name do not tell what can be published: a path may be too deep, and
a name that is no text may be shown too long. -/
theorem publish_refused_within_limits :
    ∃ image, assemble [7, 8] none ⟨1, 1, 2, 2⟩ = .ok image ∧
      (∃ output before, output.Ordinary ∧ Name.byteLength output.chars < pathLimit ∧
        Build.Fresh output (.ofRandom 0) before ∧ before.Passable output ∧
        before.entry? (output.pieces.reverse ++ before.home) ≠ some .directory ∧
        (∀ name, output.pieces.getLast? = some name → name.byteLength ≤ 214) ∧
        (image.publish output false (.ofRandom 0) ⟨0, none⟩ before).result ≠ .ok ()) ∧
      ∃ name : RawName, name.Ordinary ∧ name.length ≤ 214 ∧ (∀ text, name ≠ .ofName text) ∧
        ∀ tag target verify progress before,
          (image.publishThrough (Disk.openAt (name.staging ⟨[]⟩ tag) target) verify progress before).result ≠
            .ok () := by
  obtain ⟨himage, hdeep⟩ := publish_refused_deep
  obtain ⟨-, hname, hlength, hnotext, hrefused⟩ := publish_refused_unreadable
  refine ⟨_, himage, ⟨_, _, hdeep⟩, _, hname, hlength, hnotext, fun tag target verify progress before => ?_⟩
  rw [hrefused]
  nofun

end Image

end BootImage
