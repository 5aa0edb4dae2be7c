import BootImage.Proofs.Build.Promise
import BootImage.Proofs.Image.Publishable
import BootImage.Proofs.Path.Tags
/-!
# Building again

A build that has succeeded leaves its inputs, its image and its record in place (`Build.Settled`), if what
it writes is apart from what it reads. Where they are in place, the same build succeeds once more and
finds nothing to change (`Build.Settled.run_eq`). What the output and the record held before does not
matter for what they hold afterwards: that depends on the bytes of the inputs and on the parameters of the
layout only (`Build.rebuild_same`).
-/

namespace BootImage

open FileSystem

namespace Build

/-- The paths that a build reads. -/
def sources (options : Options) : List Path :=
  options.boot :: options.kernel.toList

/-- The paths that a build writes. -/
def products (options : Options) : List Path :=
  options.output :: options.layout.toList

/-- The record goes to another file than the image. -/
def Aside (options : Options) (fs : FileSystem) : Prop :=
  ∀ path, options.layout = some path → fs.locate? path ≠ fs.locate? options.output

/-- What is written goes to files of its own. -/
structure Apart (options : Options) (fs : FileSystem) : Prop where
  aside : Aside options fs
  sources : ∀ product ∈ products options, ∀ source ∈ sources options,
    fs.locate? product ≠ fs.locate? source

/-- A tag that no staging file beside the output has. -/
def Fresh (output : Path) (tag : Uuid) (fs : FileSystem) : Prop :=
  ∀ place, fs.locate? (output.staging tag) = some place → fs.entry? place = none

variable {options : Options} {tag : Uuid} {before after : FileSystem} {report : Report}
variable {boot : List UInt8} {kernel : Option (List UInt8)} {image : Image}

/-! ## What is in place afterwards -/

/-- What has been written elsewhere is not read. -/
theorem Inputs.replaced {place : Location} {bytes : List UInt8}
    (h : Inputs options before boot kernel) (hreplaced : Replaced place bytes before after)
    (hplace : ∀ source ∈ sources options, before.locate? source ≠ some place) :
    Inputs options after boot kernel where
  boot := (hreplaced.readAll_iff (hplace _ List.mem_cons_self) _).2 h.boot
  kernel := by
    have hkernel := h.kernel
    rcases hgiven : options.kernel with _ | path
    · rw [hgiven] at hkernel
      cases hkernel
      exact .none
    · rw [hgiven] at hkernel
      have hsource : path ∈ sources options := by simp [sources, hgiven]
      cases hkernel with
      | some hread => exact .some ((hreplaced.readAll_iff (hplace path hsource) _).2 hread)

/-- The output holds the image, and the record its layout, unless one was written over the other. -/
theorem contents_of_ok (h : (run options tag before).result = .ok report) :
    ∃ boot kernel image, Prepared options before boot kernel image ∧
      (∀ path, options.layout = some path →
        (run options tag before).fs.readAll path = .ok image.layout.toRecord) ∧
      (Aside options before →
        (run options tag before).fs.readAll options.output = .ok image.bytes) := by
  obtain ⟨boot, kernel, image, goal, published, hprepared, hgoal, himage, hlast⟩ := replaced_of_ok h
  have houtput : published.readAll options.output = .ok image.bytes := himage.readAll_eq hgoal
  refine ⟨boot, kernel, image, hprepared, ?_⟩
  rcases hlast with ⟨hnone, hfs⟩ | ⟨path, place, hpath, hplace, hrecord⟩
  · refine ⟨fun path hpath => ?_, fun _ => hfs ▸ houtput⟩
    rw [hnone] at hpath
    cases hpath
  · have hplace' : published.locate? path = some place := (himage.locate?_eq path).trans hplace
    refine ⟨fun other hother => ?_, fun haside => ?_⟩
    · obtain rfl : path = other := Option.some.inj (hpath.symm.trans hother)
      exact hrecord.readAll_eq hplace'
    · have hother : published.locate? options.output ≠ some place := by
        rw [himage.locate?_eq, ← hplace]
        exact (haside path hpath).symm
      exact (hrecord.readAll_iff hother _).2 houtput

/-- Inputs, image and record are in place, and there is room for a staging file. -/
structure Settled (options : Options) (image : Image) (fs : FileSystem) : Prop where
  prepared : ∃ boot kernel, Prepared options fs boot kernel image
  output : fs.readAll options.output = .ok image.bytes
  record : ∀ path, options.layout = some path → fs.readAll path = .ok image.layout.toRecord
  beside : ∃ tag place, fs.locate? (options.output.staging tag) = some place

theorem settled_of_ok (h : (run options tag before).result = .ok report)
    (hapart : Apart options before) :
    ∃ image, Report.ofLayout image.layout = .ok report ∧
      run options tag before = ⟨.ok report, allLines options report, (run options tag before).fs⟩ ∧
      Settled options image (run options tag before).fs := by
  obtain ⟨boot, kernel, image, after, hprepared, hreport, hpublished, hsaved, hrun⟩ :=
    complete_of_ok h
  obtain ⟨boot', kernel', image', hprepared', hrecord, houtput⟩ := contents_of_ok h
  obtain ⟨-, -, rfl⟩ := hprepared.unique hprepared'
  obtain ⟨goal, hgoal, himage⟩ := hprepared.replaced hpublished
  obtain ⟨-, staged, hstaged, -⟩ :=
    (Image.assembled_of_assemble hprepared.assembled).publish_ok_iff.1 hpublished
  -- Neither what is published nor, further down, the record reaches an input.
  have hinputs : Inputs options (publication options image tag before).fs boot kernel := by
    apply hprepared.inputs.replaced himage
    intro source hsource
    rw [← hgoal]
    exact (hapart.sources _ List.mem_cons_self source hsource).symm
  have hfs : (run options tag before).fs = after := by rw [hrun]
  rw [hfs] at hrecord houtput ⊢
  refine ⟨image, hreport, hrun, ?_⟩
  rcases saveLayout_eq_ok hsaved with ⟨-, rfl⟩ | ⟨path, place, hpath, hplace, hlayout⟩
  · exact ⟨⟨boot, kernel, hinputs, hprepared.assembled⟩, houtput hapart.aside, hrecord, tag, staged,
      (himage.locate?_eq _).trans hstaged⟩
  · have hproduct : path ∈ products options := by simp [products, hpath]
    have hinputs' : Inputs options after boot kernel := by
      apply hinputs.replaced hlayout
      intro source hsource
      rw [← hplace, himage.locate?_eq, himage.locate?_eq]
      exact (hapart.sources path hproduct source hsource).symm
    exact ⟨⟨boot, kernel, hinputs', hprepared.assembled⟩, houtput hapart.aside, hrecord, tag, staged,
      (hlayout.locate?_eq _).trans ((himage.locate?_eq _).trans hstaged)⟩

/-! ## The same build once more -/

/-- The image is published over itself. -/
theorem Settled.publish {fs : FileSystem} (h : Settled options image fs)
    (hfresh : Fresh options.output tag fs) :
    (publication options image tag fs).result = .ok () ∧
      SameOutside ∅ fs (publication options image tag fs).fs ∧
      ∀ path, (publication options image tag fs).fs.locate? path = fs.locate? path := by
  obtain ⟨boot, kernel, hprepared⟩ := h.prepared
  obtain ⟨goal, hgoal, hentry⟩ := readAll_eq_ok_iff.1 h.output
  obtain ⟨tag', place', hplace'⟩ := h.beside
  obtain ⟨place, hplace⟩ := exists_locate?_staging hgoal hplace' tag
  have hfree : fs.node? goal ≠ some .directory := by
    rw [ne_eq, ← entry?_eq_directory_iff, hentry]
    exact nofun
  have hvacant : fs.node? place = none := entry?_eq_none_iff.1 (hfresh place hplace)
  have hdone : (publication options image tag fs).result = .ok () :=
    (Image.assembled_of_assemble hprepared.assembled).publish_ok_iff.2
      ⟨⟨goal, hgoal, hfree⟩, place, hplace, hvacant⟩
  obtain ⟨goal', hgoal', hreplaced⟩ := hprepared.replaced hdone
  obtain rfl : goal = goal' := Option.some.inj (hgoal.symm.trans hgoal')
  exact ⟨hdone, hreplaced.sameOutside_empty_iff.2 hentry, hreplaced.locate?_eq⟩

/-- The record is kept over itself. -/
theorem exists_saveLayout {fs : FileSystem}
    (h : ∀ path, options.layout = some path → fs.readAll path = .ok image.layout.toRecord) :
    ∃ after, saveLayout options image.layout fs = .ok after ∧ SameOutside ∅ fs after := by
  unfold saveLayout
  rcases hgiven : options.layout with _ | path
  · exact ⟨fs, rfl, .refl fs⟩
  · obtain ⟨place, hplace, hentry⟩ := readAll_eq_ok_iff.1 (h path hgiven)
    obtain ⟨after, hwrite⟩ := exists_writeAll hplace hentry image.layout.toRecord
    obtain ⟨place', hplace', hreplaced⟩ := replaced_of_writeAll hwrite
    obtain rfl : place = place' := Option.some.inj (hplace.symm.trans hplace')
    exact ⟨after, by simp only [hwrite], hreplaced.sameOutside_empty_iff.2 hentry⟩

theorem Settled.run_eq {fs : FileSystem} (h : Settled options image fs)
    (hreport : Report.ofLayout image.layout = .ok report) (hfresh : Fresh options.output tag fs) :
    ∃ after, run options tag fs = ⟨.ok report, allLines options report, after⟩ ∧
      SameOutside ∅ fs after := by
  obtain ⟨hdone, hsame, hlocate⟩ := h.publish hfresh
  obtain ⟨boot, kernel, hprepared⟩ := h.prepared
  have hrecord : ∀ path, options.layout = some path →
      (publication options image tag fs).fs.readAll path = .ok image.layout.toRecord := by
    intro path hpath
    obtain ⟨place, hplace, hentry⟩ := readAll_eq_ok_iff.1 (h.record path hpath)
    exact readAll_eq_ok_iff.2 ⟨place, (hlocate path).trans hplace,
      (hsame.entry?_eq place (Set.notMem_empty place)).trans hentry⟩
  obtain ⟨after, hsaved, hsame'⟩ := exists_saveLayout hrecord
  exact ⟨after, run_of_course (.complete hprepared hreport hdone hsaved), hsame.trans hsame'⟩

/-- Two builds tell and return the same, and the second has not changed what the first one left. -/
structure Repeats (first second : Outcome) : Prop where
  result : second.result = first.result
  notices : second.notices = first.notices
  fs : SameOutside ∅ first.fs second.fs

theorem repeats_of_ok (h : (run options tag before).result = .ok report)
    (hapart : Apart options before) {again : Uuid}
    (hfresh : Fresh options.output again (run options tag before).fs) :
    Repeats (run options tag before) (run options again (run options tag before).fs) := by
  obtain ⟨image, hreport, hfirst, hsettled⟩ := settled_of_ok h hapart
  obtain ⟨after, hagain, hsame⟩ := hsettled.run_eq hreport hfresh
  rw [hagain]
  refine ⟨h.symm, ?_, hsame⟩
  rw [hfirst]

/-- What is printed does not depend on the files. -/
theorem Repeats.stdout {first second : Outcome} (h : Repeats first second) (reporter : Reporter) :
    (Program.conclude reporter second).stdout = (Program.conclude reporter first).stdout := by
  rw [stdout_conclude, stdout_conclude, h.notices]

/-! ## Different builds of one image -/

/-- The records of two builds are the same, and their outputs are, if no record was written over them. -/
structure Agree (options other : Options) (before before' after after' : FileSystem) : Prop where
  record : ∀ path path', options.layout = some path → other.layout = some path' →
    ∃ record, after.readAll path = .ok record ∧ after'.readAll path' = .ok record
  output : Aside options before → Aside other before' →
    ∃ bytes, after.readAll options.output = .ok bytes ∧ after'.readAll other.output = .ok bytes

theorem agree_of_ok {other : Options} {tag' : Uuid} {before' : FileSystem} {report' : Report}
    (h : (run options tag before).result = .ok report)
    (h' : (run other tag' before').result = .ok report') (hconfig : other.config = options.config)
    (hinputs : Inputs options before boot kernel) (hinputs' : Inputs other before' boot kernel) :
    Agree options other before before' (run options tag before).fs (run other tag' before').fs := by
  obtain ⟨_, _, image, hprepared, hrecord, houtput⟩ := contents_of_ok h
  obtain ⟨_, _, image', hprepared', hrecord', houtput'⟩ := contents_of_ok h'
  obtain ⟨rfl, rfl⟩ := hprepared.inputs.unique hinputs
  obtain ⟨rfl, rfl⟩ := hprepared'.inputs.unique hinputs'
  -- There is one image of the same bytes with the same parameters.
  obtain rfl : image = image' := by
    have hassembled := hprepared'.assembled
    rw [hconfig, hprepared.assembled] at hassembled
    exact Except.ok.inj hassembled
  constructor
  · intro path path' hpath hpath'
    exact ⟨_, hrecord path hpath, hrecord' path' hpath'⟩
  · intro haside haside'
    exact ⟨_, houtput haside, houtput' haside'⟩

/-- A build that has succeeded, and that has written to files of their own, can be repeated with a new
tag: it succeeds with the same report and tells the same, and every entry stays as it is. And whenever two
builds with the same parameters of the layout succeed on the same loader and kernel, whatever else differs
between them, their records are the same, and so are their images. -/
theorem rebuild_same (h : (run options tag before).result = .ok report) :
    (Apart options before → ∀ again, Fresh options.output again (run options tag before).fs →
      (run options again (run options tag before).fs).result = .ok report ∧
        Repeats (run options tag before) (run options again (run options tag before).fs) ∧
        ∀ arguments colour, CommandLine.parse arguments = .ok (.build options) →
          (Program.execute arguments colour again (run options tag before).fs).stdout =
            (Program.execute arguments colour tag before).stdout) ∧
    ∀ (other : Options) (tag' : Uuid) (before' : FileSystem) (report' : Report)
      (boot : List UInt8) (kernel : Option (List UInt8)),
      (run other tag' before').result = .ok report' → other.config = options.config →
      Inputs options before boot kernel → Inputs other before' boot kernel →
        Agree options other before before' (run options tag before).fs
          (run other tag' before').fs := by
  constructor
  · intro hapart again hfresh
    have hrepeats := repeats_of_ok h hapart hfresh
    refine ⟨hrepeats.result.trans h, hrepeats, ?_⟩
    intro arguments colour hparse
    simp only [Program.execute, hparse]
    exact hrepeats.stdout _
  · intro other tag' before' report' boot kernel h' hconfig hinputs hinputs'
    exact agree_of_ok h h' hconfig hinputs hinputs'

/-- Twice over a longer output, with a kernel and a record. -/
theorem rebuild_same_over_longer_output :
    ∃ options before first second, (run options (.ofRandom 0) before).fs = first ∧
      before.readAll options.output = .ok (List.replicate 20 9) ∧
      first.readAll options.output = .ok [1, 2, 3, 0, 0, 0, 0, 0, 7, 8, 0, 0] ∧
      run options (.ofRandom 1) first =
        ⟨.ok ⟨12, 4, 3, 6, 0, 8, 2, some 2⟩, (run options (.ofRandom 0) before).notices, second⟩ ∧
      SameOutside ∅ first second := by
  let options : Options :=
    ⟨⟨['b']⟩, some ⟨['k']⟩, ⟨['o']⟩, some ⟨['l']⟩, true, true, ⟨4, 6, 16, 64⟩⟩
  let before := (((FileSystem.empty []).addFile [['b']] (.ofList [1, 2, 3])).addFile [['k']]
    (.ofList [7, 8])).addFile [['o']] (.ofList (List.replicate 20 9))
  have hrun : (run options (.ofRandom 0) before).result = .ok ⟨12, 4, 3, 6, 0, 8, 2, some 2⟩ := by
    subst options before
    decide +kernel
  have hread : (run options (.ofRandom 0) before).fs.readAll options.output =
      .ok [1, 2, 3, 0, 0, 0, 0, 0, 7, 8, 0, 0] := by
    subst options before
    decide +kernel
  have hapart : Apart options before := by
    constructor
    · intro path hpath
      obtain rfl : (⟨['l']⟩ : Path) = path := Option.some.inj hpath
      decide
    · decide
  have hstaging : ((run options (.ofRandom 0) before).fs.locate?
      (options.output.staging (.ofRandom 1))).bind (run options (.ofRandom 0) before).fs.entry? =
        none := by
    subst options before
    decide +kernel
  have hfresh : Fresh options.output (.ofRandom 1) (run options (.ofRandom 0) before).fs := by
    intro place hplace
    rwa [hplace, Option.bind_some] at hstaging
  obtain ⟨hagain, -⟩ := rebuild_same hrun
  obtain ⟨hresult, hrepeats, -⟩ := hagain hapart (.ofRandom 1) hfresh
  refine ⟨options, before, _, _, rfl, by rfl, hread, ?_, hrepeats.fs⟩
  rw [← hresult, ← hrepeats.notices]

end Build

end BootImage
