import BootImage.Program
import BootImage.Proofs.CommandLine.FlagInFront
import BootImage.Proofs.Image.Publishable
/-!
# Comparing makes no difference

What was written to the staging file is read back as the image has it, so a comparison finds nothing and
changes nothing: an assembled image is published in the same way with and without it
(`Image.Assembled.publish_verify`). A build hands the wish to compare on to the publication and does not
look at it otherwise.
-/

namespace BootImage

theorem Image.Assembled.publish_verify {boot : List UInt8} {kernel : Option (List UInt8)}
    {config : Config} {image : Image} (h : Image.Assembled boot kernel config image) (output : Path)
    (verify verify' : Bool) (tag : Uuid) (progress : Progress) (fs : FileSystem) :
    image.publish output verify tag progress fs = image.publish output verify' tag progress fs := by
  rcases hc : Disk.create output image.layout.sectorSize
    (image.layout.imageLen / image.layout.sectorSize) tag fs with ⟨failure | disk, created⟩
  · rw [h.publish_eq_of_not_created verify progress hc, h.publish_eq_of_not_created verify' progress hc]
  · obtain ⟨place, now, -, -, hpublish⟩ := h.publish_eq_of_created progress hc
    rw [hpublish verify, hpublish verify']

namespace Build

theorem assembled_of_prepare {options : Options} {fs : FileSystem} {notices : List Notice} {image : Image}
    (h : prepare options fs = (notices, .ok image)) :
    ∃ boot kernel, Image.assemble boot kernel options.config = .ok image := by
  unfold prepare at h
  cases hboot : fs.readAll options.boot with
  | error cause => simp [hboot] at h
  | ok boot =>
    rcases hkernel : readKernel options fs with ⟨more, failure | kernel⟩
    · simp [hboot, hkernel] at h
    · cases himage : Image.assemble boot kernel options.config with
      | error failure => simp [hboot, hkernel, himage] at h
      | ok made =>
        simp only [hboot, hkernel, himage, Prod.mk.injEq, Except.ok.injEq] at h
        exact ⟨boot, kernel, h.2 ▸ himage⟩

theorem run_verify (options : Options) (verify : Bool) (tag : Uuid) (fs : FileSystem) :
    run { options with verify } tag fs = run options tag fs := by
  have hprepare : prepare { options with verify } fs = prepare options fs := rfl
  unfold run
  rw [hprepare]
  rcases hp : prepare options fs with ⟨notices, failure | image⟩
  · rfl
  · obtain ⟨boot, kernel, himage⟩ := assembled_of_prepare hp
    have hdeliver : ∀ report, deliver { options with verify } image report tag fs =
        deliver options image report tag fs := by
      intro report
      unfold deliver
      simp only
      rw [(Image.assembled_of_assemble himage).publish_verify options.output verify options.verify]
      rfl
    simp only [hdeliver]

theorem execute_verify {arguments others : List String} {options : Options} {verify : Bool}
    (h : CommandLine.parse arguments = .ok (.build options))
    (h' : CommandLine.parse others = .ok (.build { options with verify })) (colour : Bool) (tag : Uuid)
    (fs : FileSystem) :
    Program.execute others colour tag fs = Program.execute arguments colour tag fs := by
  simp only [Program.execute, h, h', run_verify]

/-- Adding the word to a command line without it changes nothing that the program does. -/
theorem execute_verify_cons {arguments : List String}
    (h : CommandLine.parse ("--verify" :: arguments) ≠ .error (.repeated (.flag .verify)))
    (colour : Bool) (tag : Uuid) (fs : FileSystem) :
    Program.execute ("--verify" :: arguments) colour tag fs =
      Program.execute arguments colour tag fs := by
  have hparse : CommandLine.parse ("--verify" :: arguments) =
      (CommandLine.parse arguments).map (CommandLine.Request.after .verify) :=
    (CommandLine.parse_flag_cons .verify arguments).resolve_left h
  rcases ha : CommandLine.parse arguments with error | options | _ | _ <;> rw [ha] at hparse
  · simp only [Program.execute, ha, hparse, Except.map]
  · exact execute_verify ha hparse colour tag fs
  · simp only [Program.execute, ha, hparse, Except.map, CommandLine.Request.after]
  · simp only [Program.execute, ha, hparse, Except.map, CommandLine.Request.after]

/-- Whether it is compared makes no difference: not to the result of publishing an image, the files it
leaves or the progress it has made; not to what a build returns, tells or leaves; and not to anything the
program does, if two command lines ask for the same apart from it, or if the word is put in front of a
command line that does not have it. -/
theorem verification_transparent :
    (∀ boot kernel config image, Image.assemble boot kernel config = .ok image →
      ∀ output tag progress before, image.publish output true tag progress before =
        image.publish output false tag progress before) ∧
    (∀ (options : Options) tag before, run { options with verify := true } tag before =
      run { options with verify := false } tag before) ∧
    (∀ arguments others (options : Options), CommandLine.parse arguments = .ok (.build options) →
      CommandLine.parse others = .ok (.build { options with verify := true }) →
      ∀ colour tag before, Program.execute others colour tag before =
        Program.execute arguments colour tag before) ∧
    ∀ arguments, CommandLine.parse ("--verify" :: arguments) ≠ .error (.repeated (.flag .verify)) →
      ∀ colour tag before, Program.execute ("--verify" :: arguments) colour tag before =
        Program.execute arguments colour tag before := by
  refine ⟨?_, ?_, ?_, ?_⟩
  · intro boot kernel config image himage output tag progress before
    exact (Image.assembled_of_assemble himage).publish_verify output true false tag progress before
  · intro options tag before
    rw [run_verify options true, run_verify options false]
  · intro arguments others options h h'
    exact execute_verify h h'
  · intro arguments h
    exact execute_verify_cons h

/-- An image of two sectors, published over an older file and counted from three, and the same build
asked for on the command line. -/
theorem verification_transparent_two_sectors :
    ∃ image before arguments,
      Image.assemble [1, 2, 3] (some [4]) ⟨4, 4, 32768, 16777216⟩ = .ok image ∧
        CommandLine.parse ("--verify" :: arguments) ≠ .error (.repeated (.flag .verify)) ∧
        image.publish ⟨['o']⟩ true (.ofRandom 0) ⟨3, none⟩ before =
          image.publish ⟨['o']⟩ false (.ofRandom 0) ⟨3, none⟩ before ∧
        (image.publish ⟨['o']⟩ false (.ofRandom 0) ⟨3, none⟩ before).progress = ⟨5, some 2⟩ ∧
        Program.execute ("--verify" :: arguments) false (.ofRandom 0) before =
          Program.execute arguments false (.ofRandom 0) before ∧
        (Program.execute arguments false (.ofRandom 0) before).fs.readAll ⟨['o']⟩ =
          .ok [1, 2, 3, 0, 4, 0, 0, 0] := by
  let image : Image := ⟨[1, 2, 3, 0, 4, 0, 0, 0], ⟨4, 4, 0, 4, some 1, 8⟩⟩
  let before := (((FileSystem.empty []).addFile [['b']] (.ofList [1, 2, 3])).addFile [['k']]
    (.ofList [4])).addFile [['o']] (.ofList [9])
  let arguments := ["-q", "-b", "b", "-k", "k", "-o", "o", "--sector-size=4", "--boot-sector-len=4"]
  have himage : Image.assemble [1, 2, 3] (some [4]) ⟨4, 4, 32768, 16777216⟩ = .ok image := by
    subst image
    decide +kernel
  have honce : CommandLine.parse ("--verify" :: arguments) ≠ .error (.repeated (.flag .verify)) := by
    subst arguments
    decide +kernel
  have hprogress : (image.publish ⟨['o']⟩ false (.ofRandom 0) ⟨3, none⟩ before).progress = ⟨5, some 2⟩ := by
    subst image before
    decide +kernel
  have hread : (Program.execute arguments false (.ofRandom 0) before).fs.readAll ⟨['o']⟩ =
      .ok [1, 2, 3, 0, 4, 0, 0, 0] := by
    subst arguments before
    decide +kernel
  obtain ⟨hpublish, -, -, hexecute⟩ := verification_transparent
  exact ⟨image, before, arguments, himage, honce,
    hpublish _ _ _ _ himage ⟨['o']⟩ (.ofRandom 0) ⟨3, none⟩ before, hprogress,
    hexecute arguments honce false (.ofRandom 0) before, hread⟩

end Build

end BootImage
