import BootImage.Proofs.Image.Acceptance
import BootImage.Proofs.CommandLine.Sizes
import BootImage.Proofs.Disk.ReadBack
import BootImage.Disk.Publish
import BootImage.Proofs.Report.Identity
/-!
# Nothing breaks on the way to a file

Sums, products, quotients and slices are computed unchecked in many places: while a layout is computed, an
image assembled, its sectors counted, a disk opened for it, and each sector written and read back. They are
safe for reasons that lie elsewhere, and all of these reasons are in the layout (`Layout.Regular`): the
sector size has been found positive, and every offset is at most the length of the image, which is a word.
So it does not matter how close to the last word that length is (`Image.faultless_of_words`).
-/

namespace BootImage

/-! ## Computations that do not break -/

/-- The computation does not break. It may fail for a reason of the domain. -/
def Faultless {ε α : Type} (x : Except (Failure ε) α) : Prop :=
  ∀ fault, x ≠ .error (.fault fault)

namespace Faultless

variable {ε ε' α β : Type}

theorem ok (a : α) : Faultless (.ok a : Except (Failure ε) α) := nofun

theorem error (cause : ε) : Faultless (.error (.error cause) : Except (Failure ε) α) := nofun

theorem bind {x : Except (Failure ε) α} {f : α → Except (Failure ε) β} (hx : Faultless x)
    (hf : ∀ a, x = .ok a → Faultless (f a)) : Faultless (x >>= f) := by
  intro fault h
  rcases bind_eq_error h with h | ⟨a, ha, h⟩
  · exact hx fault h
  · exact hf a ha fault h

theorem liftM_error (x : Except ε α) : Faultless (liftM x : Except (Failure ε) α) :=
  fun _ => liftM_error_ne_fault

theorem liftM_fault {x : Except Fault α} {a : α} (h : x = .ok a) :
    Faultless (liftM x : Except (Failure ε) α) := by
  rw [h]
  exact ok a

/-- The failure of one computation is passed on by another. -/
theorem pass {failure : Failure ε} (h : Faultless (.error failure : Except (Failure ε) α)) :
    Faultless (.error failure : Except (Failure ε) β) := by
  intro fault hfault
  cases hfault
  exact h fault rfl

/-- What the system refuses is no fault. -/
theorem liftM_system (x : Except SystemError α) : Faultless (liftM x : Except (Failure IoError) α) := by
  cases x <;> nofun

end Faultless

namespace Word

theorem mul_of_lt {a b : Nat} (h : a * b < wordLimit) : mul a b = .ok (a * b) :=
  if_pos h

theorem div_of_pos {a b : Nat} (h : 0 < b) : div a b = .ok (a / b) :=
  if_neg (Nat.ne_of_gt h)

end Word

/-! ## The numbers of a layout -/

namespace Layout

/-- All that is computed with the numbers of a layout has a result: the end of its loader, its sectors and
the report of them, the length of a disk for them, and the places where a sector starts and ends. -/
structure Regular (layout : Layout) : Prop where
  loaderEnd : Word.add layout.bootSectorLen layout.extensionLen =
    .ok (layout.bootSectorLen + layout.extensionLen)
  sectorCount : layout.sectorCount = .ok (layout.imageLen / layout.sectorSize)
  payloadSector : layout.payloadSector = .ok (layout.payloadOffset / layout.sectorSize)
  report : ∃ report, Report.ofLayout layout = .ok report
  diskLength : Word.mul layout.sectorSize (layout.imageLen / layout.sectorSize) = .ok layout.imageLen
  offset : ∀ sector ≤ layout.imageLen / layout.sectorSize,
    Word.mul sector layout.sectorSize = .ok (sector * layout.sectorSize)
  offset_le : ∀ sector ≤ layout.imageLen / layout.sectorSize,
    sector * layout.sectorSize ≤ layout.imageLen

theorem Placed.regular {bootLen : Nat} {kernelLen : Option Nat} {config : Config} {layout : Layout}
    (h : Placed bootLen kernelLen config layout) : layout.Regular := by
  have hpos : 0 < layout.sectorSize := by
    rw [h.sectorSize_eq]
    exact Word.pos_of_isPowerOfTwo h.isPowerOfTwo
  have hdvd : layout.sectorSize ∣ layout.imageLen := by
    rw [h.sectorSize_eq]
    exact h.imageLen_eq.dvd
  have hword := h.imageLen_lt
  have hle : ∀ sector ≤ layout.imageLen / layout.sectorSize,
      sector * layout.sectorSize ≤ layout.imageLen := by
    intro sector hsector
    calc sector * layout.sectorSize
      _ ≤ layout.imageLen / layout.sectorSize * layout.sectorSize :=
        Nat.mul_le_mul_right _ hsector
      _ ≤ layout.imageLen := Nat.div_mul_le_self _ _
  have hcount := @Word.div_of_pos layout.imageLen _ hpos
  have hstart := @Word.div_of_pos layout.payloadOffset _ hpos
  exact {
    loaderEnd := by
      -- Loader and boot sector end before the payload starts, and that is before the image ends.
      have hloader := h.payloadOffset_eq.le
      have hpayload := h.imageLen_eq.le
      have hsector := h.bootSectorLen_eq
      have hextension := h.extensionLen_eq
      exact Word.add_eq_ok_iff.2 ⟨rfl, by omega⟩
    sectorCount := hcount
    payloadSector := hstart
    report := ⟨_, Report.ofLayout_of_pos hpos⟩
    diskLength := by
      have hproduct : layout.sectorSize * (layout.imageLen / layout.sectorSize) = layout.imageLen :=
        Nat.mul_div_cancel' hdvd
      rw [Word.mul_of_lt (by rwa [hproduct]), hproduct]
    offset := fun sector hsector =>
      Word.mul_of_lt (Nat.lt_of_le_of_lt (hle sector hsector) hword)
    offset_le := hle
  }

end Layout

/-! ## Disks with the sectors of a layout -/

namespace Disk

/-- The disk has the sectors of a layout. -/
structure Shaped (disk : Disk) (layout : Layout) : Prop where
  sectorSize : disk.sectorSize = layout.sectorSize
  sectorCount : disk.sectorCount = layout.imageLen / layout.sectorSize

variable {disk : Disk} {layout : Layout} {fs : FileSystem}

theorem lt_of_check {sector len : Nat} (h : disk.check sector len = .ok ()) :
    sector < disk.sectorCount := by
  unfold check at h
  split at h
  · cases h
  · omega

/-- A sector that passes the check has an offset. -/
theorem Shaped.offset (h : disk.Shaped layout) (hlayout : layout.Regular) {sector len : Nat}
    (hcheck : disk.check sector len = .ok ()) :
    Word.mul sector disk.sectorSize = .ok (sector * disk.sectorSize) := by
  have hsector := lt_of_check hcheck
  rw [h.sectorCount] at hsector
  rw [h.sectorSize]
  exact hlayout.offset sector (Nat.le_of_lt hsector)

theorem Shaped.read_faultless (h : disk.Shaped layout) (hlayout : layout.Regular) (sector len : Nat)
    (fs : FileSystem) : Faultless (disk.read sector len fs) := by
  refine .bind (.liftM_error _) fun _ hcheck => ?_
  refine .bind (.liftM_fault (h.offset hlayout (ok_of_liftM_error hcheck))) fun offset _ => ?_
  exact .liftM_system _

theorem Shaped.write_faultless (h : disk.Shaped layout) (hlayout : layout.Regular) (sector : Nat)
    (data : List UInt8) (fs : FileSystem) : Faultless (disk.write sector data fs) := by
  refine .bind (.liftM_error _) fun _ hcheck => ?_
  refine .bind (.liftM_fault (h.offset hlayout (ok_of_liftM_error hcheck))) fun offset _ => ?_
  exact .ok _

/-- The comparison cuts the image where it has sectors. -/
theorem Shaped.compareSectors_faultless (h : disk.Shaped layout) (hlayout : layout.Regular)
    {bytes : List UInt8} (hbytes : bytes.length = layout.imageLen) (fs : FileSystem)
    (count sector : Nat) (hcount : sector + count ≤ layout.imageLen / layout.sectorSize) :
    Faultless (disk.compareSectors bytes.toArray fs count sector) := by
  induction count generalizing sector with
  | zero => exact .ok ()
  | succ count ih =>
    have hstart : Word.mul sector disk.sectorSize = .ok (sector * layout.sectorSize) :=
      h.sectorSize ▸ hlayout.offset sector (by omega)
    have hstop : Word.mul (sector + 1) disk.sectorSize = .ok ((sector + 1) * layout.sectorSize) :=
      h.sectorSize ▸ hlayout.offset (sector + 1) (by omega)
    have hslice := Bytes.slice_eq (Nat.mul_le_mul_right layout.sectorSize (Nat.le_succ sector))
      (hbytes ▸ hlayout.offset_le (sector + 1) (by omega))
    rw [compareSectors]
    refine .bind (h.read_faultless hlayout _ _ fs) fun stored _ => ?_
    refine .bind (.liftM_fault hstart) fun start hs => ?_
    obtain rfl := Except.ok.inj (hstart.symm.trans (ok_of_liftM_fault hs))
    refine .bind (.liftM_fault hstop) fun stop hs => ?_
    obtain rfl := Except.ok.inj (hstop.symm.trans (ok_of_liftM_fault hs))
    refine .bind (.liftM_fault hslice) fun expected _ => ?_
    split
    · exact .bind (.error _) fun _ _ => ih (sector + 1) (by omega)
    · exact ih (sector + 1) (by omega)

theorem Shaped.verify_faultless (h : disk.Shaped layout) {image : Image} (hlayout : image.layout.Regular)
    (hsame : image.layout = layout) (hbytes : image.bytes.length = image.layout.imageLen)
    (fs : FileSystem) : Faultless (disk.verify image fs) := by
  subst hsame
  unfold verify
  refine .bind (.liftM_fault hlayout.sectorCount) fun count hcount => ?_
  obtain rfl := Except.ok.inj (hlayout.sectorCount.symm.trans (ok_of_liftM_fault hcount))
  have hcompare := h.compareSectors_faultless hlayout hbytes fs
    (image.layout.imageLen / image.layout.sectorSize) 0 (by omega)
  dsimp only
  split
  · exact .bind (.error _) fun _ _ => hcompare
  · exact hcompare

theorem Shaped.writeSectors_faultless (h : disk.Shaped layout) (hlayout : layout.Regular)
    (sectors : List (List UInt8)) (first : Nat) (fs : FileSystem) (progress : Progress) :
    Faultless (disk.writeSectors sectors first fs progress).1 := by
  induction sectors generalizing first fs progress with
  | nil => exact .ok ()
  | cons data sectors ih =>
    have hdata := h.write_faultless hlayout first data fs
    rw [writeSectors]
    cases hwrite : disk.write first data fs with
    | error failure =>
      rw [hwrite] at hdata
      exact hdata.pass
    | ok written => exact ih (first + 1) written progress.advance

/-- A disk whose length is a word can be refused by the system only. -/
theorem create_faultless {target : Path} {sectorSize sectorCount : Nat} {tag : Uuid} {fs : FileSystem}
    (h : ∃ len, Word.mul sectorSize sectorCount = .ok len) :
    Faultless (create target sectorSize sectorCount tag fs).1 := by
  obtain ⟨len, hlen⟩ := h
  simp only [create, openAt, hlen]
  rcases fs.createFile (target.staging tag) with cause | ⟨file, created⟩
  · exact .error _
  · rcases hsized : created.setLength file len with cause | sized
    · simp only [hsized]
      exact .error _
    · simp only [hsized]
      exact .ok _

theorem shaped_of_create {target : Path} {tag : Uuid} {fs after : FileSystem}
    (h : create target layout.sectorSize (layout.imageLen / layout.sectorSize) tag fs =
      (.ok disk, after)) : disk.Shaped layout := by
  obtain ⟨rfl, -⟩ := create_ok h
  exact ⟨rfl, rfl⟩

end Disk

namespace Image

/-! ## Images as long as their layout says -/

variable {boot : List UInt8} {kernel : Option (List UInt8)} {config : Config} {layout : Layout}
variable {image : Image}

theorem exists_sectors (h : image.layout.Regular) (hbytes : image.bytes.length = image.layout.imageLen) :
    ∃ sectors, image.sectors = .ok sectors := by
  have hcount : Word.div image.bytes.length image.layout.sectorSize =
      .ok (image.layout.imageLen / image.layout.sectorSize) := by
    rw [hbytes]
    exact h.sectorCount
  simp only [sectors, hcount]
  exact ⟨_, rfl⟩

theorem publish_faultless (h : image.layout.Regular)
    (hbytes : image.bytes.length = image.layout.imageLen) (output : Path) (verify : Bool) (tag : Uuid)
    (progress : Progress) (fs : FileSystem) :
    Faultless (image.publish output verify tag progress fs).result := by
  obtain ⟨sectors, hsectors⟩ := exists_sectors h hbytes
  unfold publish publishThrough
  simp only [h.sectorCount]
  have hcreate := @Disk.create_faultless output _ _ tag fs ⟨_, h.diskLength⟩
  rcases hc : Disk.create output image.layout.sectorSize
    (image.layout.imageLen / image.layout.sectorSize) tag fs with ⟨failure | disk, created⟩
  · rw [hc] at hcreate
    exact hcreate.pass
  have hshaped := Disk.shaped_of_create hc
  simp only [hsectors]
  have hwritten := hshaped.writeSectors_faultless h sectors 0 created
    (progress.ofLength (image.layout.imageLen / image.layout.sectorSize))
  rcases hw : disk.writeSectors sectors 0 created
    (progress.ofLength (image.layout.imageLen / image.layout.sectorSize)) with
    ⟨failure | ⟨⟩, written, reached⟩
  · rw [hw] at hwritten
    exact hwritten
  have hverified : Faultless (if verify then disk.verify image written else .ok ()) := by
    cases verify with
    | false => exact .ok ()
    | true => exact hshaped.verify_faultless h rfl hbytes written
  dsimp only
  cases hv : (if verify then disk.verify image written else .ok () : Except (Failure IoError) Unit) with
  | error failure =>
    rw [hv] at hverified
    exact hverified
  | ok done =>
    rcases disk.commit written with ⟨cause | ⟨⟩, after⟩
    · exact .error cause
    · exact .ok ()

/-- With parameters that are words, no layout, image or publication breaks. The computation of a layout is
refused or gives one with which all further numbers can be computed. Its inputs find their room in a buffer
of its length, so an assembly breaks only if there is no such buffer. What is assembled has that length,
and all that has it is cut into sectors, and published or refused, whatever files there are. -/
theorem faultless_of_words (hconfig : config.Words) :
    (∀ bootLen kernelLen, Faultless (Layout.compute bootLen kernelLen config)) ∧
      (∀ bootLen kernelLen layout, Layout.compute bootLen kernelLen config = .ok layout →
        layout.Regular) ∧
      (∀ boot kernel fault, assemble boot kernel config = .error (.fault fault) →
        ∃ layout, Layout.compute boot.length (kernel.map List.length) config = .ok layout ∧
          Bytes.zeros layout.imageLen = .error fault) ∧
      ∀ boot kernel layout,
        Layout.compute boot.length (kernel.map List.length) config = .ok layout →
          (∀ buffer : List UInt8, buffer.length = layout.imageLen →
            ∃ bytes, lay boot kernel layout buffer = .ok bytes ∧ bytes.length = layout.imageLen) ∧
          (∀ image, assemble boot kernel config = .ok image →
            image.layout = layout ∧ image.bytes.length = layout.imageLen) ∧
          ∀ image : Image, image.layout = layout → image.bytes.length = layout.imageLen →
            (∃ sectors, image.sectors = .ok sectors) ∧
              ∀ output verify tag progress fs,
                Faultless (image.publish output verify tag progress fs).result := by
  refine ⟨?_, ?_, ?_, ?_⟩
  · intro bootLen kernelLen
    exact Layout.compute_ne_fault hconfig.maxLoaderSize bootLen kernelLen
  · intro bootLen kernelLen layout h
    exact (Layout.placed_of_compute h).regular
  · intro boot kernel fault h
    obtain ⟨rfl, layout, hlayout, hlong⟩ := (assemble_eq_fault_iff hconfig.maxLoaderSize).1 h
    exact ⟨layout, hlayout, Bytes.zeros_of_le hlong⟩
  · intro boot kernel layout h
    refine ⟨fun buffer hbuffer => exists_lay h hbuffer, ?_, ?_⟩
    · intro image hassembled
      have himage := assembled_of_assemble hassembled
      obtain rfl : image.layout = layout := Except.ok.inj (himage.computed.symm.trans h)
      exact ⟨rfl, himage.length_bytes⟩
    · rintro image rfl hbytes
      have hregular := (Layout.placed_of_compute h).regular
      exact ⟨exists_sectors hregular hbytes, publish_faultless hregular hbytes⟩

/-- A loader of half of all words and one byte more: the image ends a quarter below the last word. -/
theorem faultless_of_words_near_limit :
    ∃ (config : Config) (layout : Layout), config.Words ∧
      Layout.compute (Nat.pow 2 63 + 1) none config = .ok layout ∧
      layout.imageLen = 3 * Nat.pow 2 62 ∧ layout.Regular := by
  let config : Config := ⟨Nat.pow 2 62, 512, wordLimit - 1, wordLimit - 1⟩
  let layout : Layout :=
    ⟨Nat.pow 2 62, 512, Nat.pow 2 63 - 511, 3 * Nat.pow 2 62, none, 3 * Nat.pow 2 62⟩
  have hwords : config.Words := by constructor <;> decide
  have h : Layout.compute (Nat.pow 2 63 + 1) none config = .ok layout := by decide
  exact ⟨config, layout, hwords, h, rfl, (faultless_of_words hwords).2.1 _ _ _ h⟩

end Image

end BootImage
