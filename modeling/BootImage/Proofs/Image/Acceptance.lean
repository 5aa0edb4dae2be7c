import BootImage.Proofs.Image.Contents
/-!
# Which images are assembled

The layout decides. Where it is refused the assembly is refused for the same reason, and where there is
one the image is assembled, unless it is longer than any buffer may be: that is found only when its
buffer is asked for, and it is a fault (`Image.assemble_eq_fault_iff`). No other fault can happen, for
the computation of a layout has none as long as the ceiling of the loader is a word
(`Layout.compute_ne_fault`).
-/

namespace BootImage

/-- A computation in two parts fails in one of them. -/
theorem bind_eq_error {ε α β : Type} {x : Except ε α} {f : α → Except ε β} {e : ε}
    (h : (x >>= f) = .error e) : x = .error e ∨ ∃ a, x = .ok a ∧ f a = .error e := by
  cases x with
  | error cause =>
    have hcause : cause = e := Except.error.inj h
    exact .inl (by rw [hcause])
  | ok a => exact .inr ⟨a, rfl, h⟩

theorem liftM_ok {ε α : Type} (a : α) :
    (liftM (.ok a : Except Fault α) : Except (Failure ε) α) = .ok a := rfl

theorem liftM_fault {ε α : Type} (fault : Fault) :
    (liftM (.error fault : Except Fault α) : Except (Failure ε) α) = .error (.fault fault) := rfl

theorem liftM_error_ne_fault {ε α : Type} {x : Except ε α} {fault : Fault} :
    (liftM x : Except (Failure ε) α) ≠ .error (.fault fault) := by
  cases x <;> nofun

theorem error_of_liftM_fault {ε α : Type} {x : Except Fault α} {fault : Fault}
    (h : (liftM x : Except (Failure ε) α) = .error (.fault fault)) : x = .error fault := by
  cases x with
  | error cause => exact congrArg Except.error (Failure.fault.inj (Except.error.inj h))
  | ok a => cases h

namespace Layout

variable {bootLen : Nat} {kernelLen : Option Nat} {config : Config}

theorem boundary_ne_fault (hpos : 0 < config.sectorSize) (offset : Nat) (fault : Fault) :
    boundary offset config ≠ .error (.fault fault) := by
  unfold boundary Config.align Word.alignUp
  rw [if_neg (Nat.ne_of_gt hpos)]
  split
  · simp_all
  · nofun
  · nofun

theorem imageEnd_ne_fault (hpos : 0 < config.sectorSize) (payloadOffset : Nat)
    (kernelLen : Option Nat) (fault : Fault) :
    imageEnd payloadOffset kernelLen config ≠ .error (.fault fault) := by
  unfold imageEnd
  split
  · nofun
  · split
    · nofun
    · exact boundary_ne_fault hpos _ fault

/-- The one sum that is not checked is the greater of two lengths, and the checks before it have found
both of them within the loader's ceiling. -/
theorem compute_ne_fault (hword : config.maxLoaderSize < wordLimit) (bootLen : Nat)
    (kernelLen : Option Nat) (fault : Fault) :
    compute bootLen kernelLen config ≠ .error (.fault fault) := by
  intro h
  unfold compute at h
  rcases bind_eq_error h with h | ⟨⟨⟩, hvalid, h⟩
  · exact liftM_error_ne_fault h
  rcases bind_eq_error h with h | ⟨⟨⟩, hloader, h⟩
  · exact liftM_error_ne_fault h
  obtain ⟨hpower, -, hsector⟩ :=
    Config.flaw?_eq_none_iff.1 (Config.validate_eq_ok_iff.1 (ok_of_liftM_error hvalid))
  obtain ⟨-, hboot⟩ := checkLoader_eq_ok_iff.1 (ok_of_liftM_error hloader)
  have hpos := Word.pos_of_isPowerOfTwo hpower
  rcases bind_eq_error h with h | ⟨loaderEnd, -, h⟩
  · have hsum := error_of_liftM_fault h
    rw [Word.add, if_pos (by omega)] at hsum
    cases hsum
  rcases bind_eq_error h with h | ⟨payloadOffset, -, h⟩
  · exact boundary_ne_fault hpos _ fault h
  rcases bind_eq_error h with h | ⟨imageLen, -, h⟩
  · exact imageEnd_ne_fault hpos _ _ fault h
  rcases bind_eq_error h with h | ⟨⟨⟩, -, h⟩
  · exact liftM_error_ne_fault h
  · cases h

end Layout

namespace Bytes

theorem zeros_of_lt {len : Nat} (h : len < lengthLimit) : zeros len = .ok (List.replicate len 0) :=
  if_pos h

theorem zeros_of_le {len : Nat} (h : lengthLimit ≤ len) : zeros len = .error .capacity :=
  if_neg (Nat.not_lt.2 h)

theorem overlay_of_le {bytes data : List UInt8} {start : Nat} (h : start + data.length ≤ bytes.length)
    (hword : start + data.length < wordLimit) :
    overlay bytes start data =
      .ok (bytes.take start ++ data ++ bytes.drop (start + data.length)) := by
  simp only [overlay, Word.add, hword, if_true, bind, Except.bind, h]
  rfl

end Bytes

namespace Image

variable {boot : List UInt8} {kernel : Option (List UInt8)} {config : Config} {layout : Layout}

theorem assemble_of_refused {failure : Failure AssemblyError}
    (h : Layout.compute boot.length (kernel.map List.length) config = .error failure) :
    assemble boot kernel config = .error failure := by
  simp only [assemble, h]
  rfl

/-- Lays loader and kernel over a buffer. -/
def lay (boot : List UInt8) (kernel : Option (List UInt8)) (layout : Layout) (buffer : List UInt8) :
    Except Fault (List UInt8) := do
  let loaded ← Bytes.overlay buffer 0 boot
  match kernel with
  | none => return loaded
  | some payload => Bytes.overlay loaded layout.payloadOffset payload

/-- An image is assembled by laying its inputs over zeros. -/
theorem assemble_eq (boot : List UInt8) (kernel : Option (List UInt8)) (config : Config) :
    assemble boot kernel config = (do
      let layout ← Layout.compute boot.length (kernel.map List.length) config
      let blank ← Bytes.zeros layout.imageLen
      let bytes ← lay boot kernel layout blank
      return { bytes, layout }) := by
  unfold assemble lay
  refine bind_congr fun layout => bind_congr fun blank => ?_
  cases Bytes.overlay blank 0 boot with
  | error fault => rfl
  | ok loaded =>
    cases kernel with
    | none => rfl
    | some payload => simp only [bind, Except.bind, liftM_ok]

/-- Whatever buffer there is, if it is as long as the image, both inputs find their room in it. -/
theorem exists_lay (h : Layout.compute boot.length (kernel.map List.length) config = .ok layout)
    {buffer : List UInt8} (hbuffer : buffer.length = layout.imageLen) :
    ∃ bytes, lay boot kernel layout buffer = .ok bytes ∧ bytes.length = layout.imageLen := by
  have hplaced := Layout.placed_of_compute h
  have hboot : boot.length ≤ layout.payloadOffset :=
    Nat.le_trans (Nat.le_max_left _ _) hplaced.payloadOffset_eq.le
  have hend : layout.payloadOffset + (kernel.map List.length).getD 0 ≤ layout.imageLen :=
    hplaced.imageLen_eq.le
  have hword := hplaced.imageLen_lt
  have hloaded := @Bytes.overlay_of_le buffer boot 0 (by omega) (by omega)
  have hlength : (buffer.take 0 ++ boot ++ buffer.drop (0 + boot.length)).length =
      layout.imageLen := by
    simp only [List.length_append, List.length_take, List.length_drop]
    omega
  simp only [lay, hloaded, bind, Except.bind]
  generalize buffer.take 0 ++ boot ++ buffer.drop (0 + boot.length) = loaded at hlength
  cases kernel with
  | none => exact ⟨loaded, rfl, hlength⟩
  | some payload =>
    have hpayload : layout.payloadOffset + payload.length ≤ layout.imageLen := hend
    refine ⟨_, Bytes.overlay_of_le (by omega) (by omega), ?_⟩
    simp only [List.length_append, List.length_take, List.length_drop]
    omega

/-- The buffer cannot be had. -/
theorem assemble_of_le (h : Layout.compute boot.length (kernel.map List.length) config = .ok layout)
    (hlimit : lengthLimit ≤ layout.imageLen) :
    assemble boot kernel config = .error (.fault .capacity) := by
  simp only [assemble_eq, h, Bytes.zeros_of_le hlimit, liftM_fault, bind, Except.bind]

theorem assemble_of_lt (h : Layout.compute boot.length (kernel.map List.length) config = .ok layout)
    (hlimit : layout.imageLen < lengthLimit) :
    ∃ image, assemble boot kernel config = .ok image ∧ image.layout = layout := by
  obtain ⟨bytes, hlay, -⟩ := exists_lay h (@List.length_replicate _ layout.imageLen (0 : UInt8))
  refine ⟨⟨bytes, layout⟩, ?_, rfl⟩
  simp only [assemble_eq, h, Bytes.zeros_of_lt hlimit, hlay, liftM_ok, bind, Except.bind]
  rfl

/-- An assembly that is refused, and does not fault, is refused by the layout. -/
theorem compute_of_refused {cause : AssemblyError}
    (h : assemble boot kernel config = .error (.error cause)) :
    Layout.compute boot.length (kernel.map List.length) config = .error (.error cause) := by
  cases hlayout : Layout.compute boot.length (kernel.map List.length) config with
  | error failure =>
    rw [assemble_of_refused hlayout] at h
    rw [Except.error.inj h]
  | ok layout =>
    rcases Nat.lt_or_ge layout.imageLen lengthLimit with hlt | hge
    · obtain ⟨image, himage, -⟩ := assemble_of_lt hlayout hlt
      rw [himage] at h
      cases h
    · rw [assemble_of_le hlayout hge] at h
      cases h

/-- The only fault is a buffer that is too long. -/
theorem assemble_eq_fault_iff (hword : config.maxLoaderSize < wordLimit) {fault : Fault} :
    assemble boot kernel config = .error (.fault fault) ↔
      fault = .capacity ∧ ∃ layout,
        Layout.compute boot.length (kernel.map List.length) config = .ok layout ∧
          lengthLimit ≤ layout.imageLen := by
  constructor
  · intro h
    cases hlayout : Layout.compute boot.length (kernel.map List.length) config with
    | error failure =>
      rw [assemble_of_refused hlayout] at h
      rw [Except.error.inj h] at hlayout
      exact absurd hlayout (Layout.compute_ne_fault hword _ _ fault)
    | ok layout =>
      rcases Nat.lt_or_ge layout.imageLen lengthLimit with hlt | hge
      · obtain ⟨image, himage, -⟩ := assemble_of_lt hlayout hlt
        rw [himage] at h
        cases h
      · rw [assemble_of_le hlayout hge] at h
        cases h
        exact ⟨rfl, layout, rfl, hge⟩
  · rintro ⟨rfl, layout, hlayout, hge⟩
    exact assemble_of_le hlayout hge

end Image

end BootImage
