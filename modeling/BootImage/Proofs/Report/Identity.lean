import BootImage.Report
import BootImage.Proofs.Text.Numerals
/-!
# A report tells the layout

The text of a report is numbers in fixed words, and each number ends before words. So the text tells all
numbers in it (`Report.text_eq_iff`), and its last line also tells whether there is a payload. All fields of
a layout are among these numbers, and layouts that differ are reported in different texts
(`Report.text_identifies`).
-/

namespace BootImage

namespace Report

open Text

variable {report other : Report} {layout otherLayout : Layout}

/-! ## What the text tells -/

/-- Behind the same word there is a number or the word that there is none. -/
theorem payloadLine_ne {len : Nat} (h : report.payloadLen = none) (h' : other.payloadLen = some len) :
    report.payloadLine ≠ other.payloadLine := by
  have hwords : "Payload: none (ends at offset " = "Payload: " ++ "none (ends at offset " := by decide
  simp only [payloadLine, h, h', hwords, String.append_assoc, ne_eq, String.append_right_inj]
  exact (toString_append_ne len _ (stops_append (by decide) _)).symm

/-- The last line tells the length of the payload and its offset; and the sector, if there is a payload. -/
theorem payloadLine_eq_iff :
    report.payloadLine = other.payloadLine ↔ report.payloadLen = other.payloadLen ∧
      report.payloadOffset = other.payloadOffset ∧
      (report.payloadLen = none ∨ report.payloadSector = other.payloadSector) := by
  cases hlen : report.payloadLen with
  | none =>
    cases hlen' : other.payloadLen with
    | none =>
      simp (disch := decide) only [payloadLine, hlen, hlen', String.append_assoc, String.append_right_inj,
        toString_append_inj, and_true, true_and, true_or]
    | some len' => simp [payloadLine_ne hlen hlen']
  | some len =>
    cases hlen' : other.payloadLen with
    | none => simp [(payloadLine_ne hlen' hlen).symm]
    | some len' =>
      simp (disch := decide) only [payloadLine, hlen, hlen', String.append_assoc, String.append_right_inj,
        toString_append_append_inj, toString_append_inj, Option.some.injEq, reduceCtorEq, false_or,
        and_true]

/-- The lines before it tell the numbers in them. -/
theorem text_eq_iff :
    report.text = other.text ↔ report.imageSize = other.imageSize ∧
      report.sectorCount = other.sectorCount ∧ report.sectorSize = other.sectorSize ∧
      report.bootSectorLen = other.bootSectorLen ∧ report.extensionLen = other.extensionLen ∧
      report.payloadLine = other.payloadLine := by
  unfold text
  simp (disch := decide) only [String.append_assoc, String.append_right_inj, toString_append_append_inj]

/-! ## Layouts -/

/-- Where sectors have a size, there is a report. -/
theorem ofLayout_of_pos (hpos : 0 < layout.sectorSize) :
    ofLayout layout = .ok {
      imageSize := layout.imageLen
      sectorSize := layout.sectorSize
      sectorCount := layout.imageLen / layout.sectorSize
      bootSectorLen := layout.bootSectorLen
      extensionLen := layout.extensionLen
      payloadOffset := layout.payloadOffset
      payloadSector := layout.payloadOffset / layout.sectorSize
      payloadLen := layout.payloadLen
    } := by
  have hne : layout.sectorSize ≠ 0 := Nat.ne_of_gt hpos
  simp only [ofLayout, Layout.sectorCount, Layout.payloadSector, Word.div, hne, if_false]
  rfl

/-- All layouts with a sector size are reported, and the text of the report tells all six fields: it is the
same for no two of them. Whether there is a payload is told by the last line alone, also if it is empty. -/
theorem text_identifies (hpos : 0 < layout.sectorSize) (hpos' : 0 < otherLayout.sectorSize) :
    ∃ report other, ofLayout layout = .ok report ∧ ofLayout otherLayout = .ok other ∧
      (report.text = other.text → layout = otherLayout) ∧
      (layout.payloadLen = none → ∀ len, otherLayout.payloadLen = some len →
        report.payloadLine ≠ other.payloadLine) := by
  refine ⟨_, _, ofLayout_of_pos hpos, ofLayout_of_pos hpos', ?_, ?_⟩
  · intro htext
    obtain ⟨himage, -, hsize, hboot, hextension, hline⟩ := text_eq_iff.1 htext
    obtain ⟨hpayload, hoffset, -⟩ := payloadLine_eq_iff.1 hline
    cases layout
    cases otherLayout
    rw [Layout.mk.injEq]
    exact ⟨hsize, hboot, hextension, hoffset, hpayload, himage⟩
  · intro hnone len hsome
    exact payloadLine_ne hnone hsome

/-- Without a payload and with an empty one: all numbers are the same, and the texts are not. -/
theorem text_identifies_empty_payload :
    ∃ report other, ofLayout ⟨512, 446, 0, 512, none, 512⟩ = .ok report ∧
      ofLayout ⟨512, 446, 0, 512, some 0, 512⟩ = .ok other ∧
      report.text ≠ other.text ∧ report.payloadLine ≠ other.payloadLine := by
  obtain ⟨report, other, hreport, hother, htext, hline⟩ :=
    @text_identifies ⟨512, 446, 0, 512, none, 512⟩ ⟨512, 446, 0, 512, some 0, 512⟩ (by decide) (by decide)
  refine ⟨report, other, hreport, hother, ?_, hline rfl 0 rfl⟩
  intro hsame
  exact absurd (htext hsame) (by decide)

end Report

end BootImage
