import BootImage.Terminal
import BootImage.Proofs.Text.Numerals
/-!
# Colours can be taken away

A style puts escape sequences around a text and leaves the text as it is. `withoutColours` deletes every
colour sequence it finds, whoever wrote it, so what is printed in colour comes down to what is printed
without (`Reporter.withoutColours_printAll`, `Reporter.withoutColours_error`) only if no message has an
escape character of its own.
-/

namespace BootImage

/-! ## Deleting colour sequences -/

/-- What may stand between the bracket and the `m` of a colour sequence. -/
def isColourCode (c : Char) : Bool :=
  c.isDigit || c = ';'

/-- What is left of a text behind the colour sequence that it begins with, if it begins with one. -/
def afterColour? : List Char → Option (List Char)
  | '\x1b' :: '[' :: cs =>
    match cs.dropWhile isColourCode with
    | 'm' :: rest => some rest
    | _ => none
  | _ => none

theorem length_lt_of_afterColour? {cs rest : List Char} (h : afterColour? cs = some rest) :
    rest.length < cs.length := by
  unfold afterColour? at h
  split at h
  · rename_i cs
    split at h
    · rename_i behind hdrop
      cases h
      have hle := (List.dropWhile_suffix (l := cs) isColourCode).length_le
      rw [hdrop] at hle
      simp only [List.length_cons] at hle ⊢
      omega
    · cases h
  · cases h

/-- The characters that are left when all colour sequences are deleted. -/
def eraseColours : List Char → List Char
  | [] => []
  | c :: cs =>
    match _h : afterColour? (c :: cs) with
    | some rest => eraseColours rest
    | none => c :: eraseColours cs
termination_by cs => cs.length
decreasing_by
  · exact length_lt_of_afterColour? ‹_›
  · exact Nat.lt_succ_self cs.length

/-- A text without its colour sequences. -/
def withoutColours (text : String) : String :=
  String.ofList (eraseColours text.toList)

/-- A text that has no escape character, so nothing in it is a colour sequence. -/
def Plain (text : String) : Prop :=
  '\x1b' ∉ text.toList

instance (text : String) : Decidable (Plain text) :=
  inferInstanceAs (Decidable (_ ∉ _))

theorem eraseColours_of_after {cs rest : List Char} (h : afterColour? cs = some rest) :
    eraseColours cs = eraseColours rest := by
  cases cs with
  | nil => cases h
  | cons c cs =>
    rw [eraseColours]
    split
    · rename_i behind hbehind
      rw [Option.some.inj (h.symm.trans hbehind)]
    · rename_i hnone
      rw [h] at hnone
      cases hnone

theorem eraseColours_cons {c : Char} (h : c ≠ '\x1b') (cs : List Char) :
    eraseColours (c :: cs) = c :: eraseColours cs := by
  rw [eraseColours]
  split
  · rename_i behind hbehind
    unfold afterColour? at hbehind
    split at hbehind
    · rename_i heq
      exact absurd (List.cons.inj heq).1 h
    · cases hbehind
  · rfl

namespace Style

/-- All codes of a style are codes of colour sequences. -/
def Coded (style : Style) : Prop :=
  ∀ code ∈ style.codes, code.toList.all isColourCode = true

instance (style : Style) : Decidable style.Coded :=
  inferInstanceAs (Decidable (∀ _ ∈ _, _))

theorem eraseColours_sequence {code : String} (h : code.toList.all isColourCode = true)
    (rest : List Char) : eraseColours (sequence code ++ rest) = eraseColours rest := by
  apply eraseColours_of_after
  have hdrop : (code.toList ++ 'm' :: rest).dropWhile isColourCode = 'm' :: rest := by
    rw [List.dropWhile_append_of_pos (List.all_eq_true.1 h)]
    rfl
  simp only [sequence, List.cons_append, List.append_assoc, List.nil_append, afterColour?, hdrop]

theorem eraseColours_opening {style : Style} (h : style.Coded) (rest : List Char) :
    eraseColours (style.opening ++ rest) = eraseColours rest := by
  obtain ⟨codes⟩ := style
  unfold opening
  induction codes with
  | nil => rfl
  | cons code codes ih =>
    obtain ⟨hcode, hcodes⟩ := List.forall_mem_cons.1 h
    rw [List.flatMap_cons, List.append_assoc, eraseColours_sequence hcode]
    exact ih hcodes

theorem eraseColours_reset (rest : List Char) : eraseColours (reset ++ rest) = eraseColours rest :=
  @eraseColours_sequence "0" (by decide) rest

/-- Where there is no escape character, there is no reset. -/
theorem reopen_of_plain {opening cs : List Char} (h : '\x1b' ∉ cs) : reopen opening cs = cs := by
  induction cs with
  | nil => rfl
  | cons c cs ih =>
    rw [List.mem_cons, not_or] at h
    rw [reopen, ih h.2]
    rintro rest rfl
    exact absurd rfl h.1

end Style

/-! ## Text that fades -/

/-- Without its colour sequences, the one text is the other, whatever comes behind it. -/
def Fades (coloured plain : String) : Prop :=
  ∀ rest, eraseColours (coloured.toList ++ rest) = plain.toList ++ eraseColours rest

namespace Fades

variable {coloured coloured' plain plain' : String}

theorem eq (h : Fades coloured plain) : withoutColours coloured = plain := by
  have hall := h []
  rw [List.append_nil, eraseColours, List.append_nil] at hall
  rw [withoutColours, hall, String.ofList_toList]

theorem append (h : Fades coloured plain) (h' : Fades coloured' plain') :
    Fades (coloured ++ coloured') (plain ++ plain') := by
  intro rest
  rw [String.toList_append, String.toList_append, List.append_assoc, h, h', List.append_assoc]

/-- A text without colours stays as it is. -/
theorem of_plain (h : Plain plain) : Fades plain plain := by
  intro rest
  unfold Plain at h
  generalize plain.toList = cs at h ⊢
  induction cs with
  | nil => rfl
  | cons c cs ih =>
    rw [List.mem_cons, not_or] at h
    rw [List.cons_append, eraseColours_cons (Ne.symm h.1), ih h.2, List.cons_append]

theorem paint {style : Style} (hstyle : style.Coded) (h : Plain plain) :
    Fades (style.paint true plain) (style.paint false plain) := by
  intro rest
  have htext := of_plain h (Style.reset ++ rest)
  simp only [Style.paint, if_true, String.toList_ofList, Style.reopen_of_plain h, List.append_assoc]
  rw [Style.eraseColours_opening hstyle, htext, Style.eraseColours_reset]
  rfl

end Fades

/-! ## What is printed -/

theorem plain_append {first second : String} :
    Plain (first ++ second) ↔ Plain first ∧ Plain second := by
  rw [Plain, Plain, Plain, String.toList_append, List.mem_append, not_or]

/-- Parts in a row, with a colon between them. -/
theorem plain_intercalate {parts : List String} (h : ∀ part ∈ parts, Plain part) :
    Plain (": ".intercalate parts) := by
  induction parts with
  | nil => exact (by decide : Plain "")
  | cons part parts ih =>
    obtain ⟨hpart, hparts⟩ := List.forall_mem_cons.1 h
    cases parts with
    | nil => rwa [String.intercalate_singleton]
    | cons next parts =>
      rw [String.intercalate_cons_cons, plain_append, plain_append]
      exact ⟨⟨hpart, by decide⟩, ih hparts⟩

theorem plain_toString (n : Nat) : Plain (toString n) :=
  Text.not_mem_toString (by decide) n

theorem Report.plain_payloadLine (report : Report) : Plain report.payloadLine := by
  unfold payloadLine
  split
  · simp only [plain_append, plain_toString, and_true]
    decide
  · simp only [plain_append, plain_toString, and_true]
    decide

theorem Report.plain_text (report : Report) : Plain report.text := by
  have hline := report.plain_payloadLine
  unfold text
  simp only [plain_append, plain_toString, hline, and_true]
  decide

/-- The message of a notice, if it is one that may be anything. A report is numbers in fixed words. -/
def Notice.message? : Notice → Option String
  | .step message => some message
  | .success message => some message
  | .report _ => none

theorem Notice.fades {notice : Notice} (h : ∀ message, notice.message? = some message → Plain message) :
    Fades (notice.text true) (notice.text false) := by
  have hend : Fades "\n" "\n" := .of_plain (by decide)
  cases notice with
  | step message => exact (Fades.paint (by decide) (h message rfl)).append hend
  | success message =>
    have hmark : Fades (Style.mark.paint true "✅") (Style.mark.paint false "✅") :=
      .paint (by decide) (by decide)
    have hblank : Fades " " " " := .of_plain (by decide)
    exact ((hmark.append hblank).append (.paint (by decide) (h message rfl))).append hend
  | report summary => exact (Fades.of_plain summary.plain_text).append hend

namespace Reporter

/-- The messages that are printed of some notices. -/
def messages (quiet : Bool) (notices : List Notice) : List String :=
  if quiet then [] else notices.filterMap Notice.message?

theorem printAll_of_quiet {reporter : Reporter} (h : reporter.quiet = true) (notices : List Notice) :
    reporter.printAll notices = "" := by
  unfold printAll
  induction notices with
  | nil => rfl
  | cons notice notices ih =>
    rw [List.map_cons, String.join_cons, ih, print, if_pos h, String.append_empty]

theorem withoutColours_printAll {quiet : Bool} {notices : List Notice}
    (h : ∀ message ∈ messages quiet notices, Plain message) :
    withoutColours (printAll ⟨quiet, true⟩ notices) = printAll ⟨quiet, false⟩ notices := by
  apply Fades.eq
  cases quiet with
  | true =>
    rw [printAll_of_quiet rfl, printAll_of_quiet rfl]
    exact .of_plain (by decide)
  | false =>
    have hnotice : ∀ notice ∈ notices, Fades (notice.text true) (notice.text false) := by
      intro notice hmem
      exact Notice.fades fun message hmessage =>
        h message (List.mem_filterMap.2 ⟨notice, hmem, hmessage⟩)
    unfold printAll
    clear h
    induction notices with
    | nil => exact .of_plain (by decide)
    | cons notice notices ih =>
      obtain ⟨hfirst, hrest⟩ := List.forall_mem_cons.1 hnotice
      rw [List.map_cons, List.map_cons, String.join_cons, String.join_cons]
      exact hfirst.append (ih hrest)

theorem withoutColours_error {quiet : Bool} {chain : List String} (h : ∀ part ∈ chain, Plain part) :
    withoutColours (error ⟨quiet, true⟩ chain) = error ⟨quiet, false⟩ chain := by
  have hmark : Fades (Style.failure.paint true "❌ Error:") (Style.failure.paint false "❌ Error:") :=
    .paint (by decide) (by decide)
  have hblank : Fades " " " " := .of_plain (by decide)
  have hend : Fades "\n" "\n" := .of_plain (by decide)
  exact (((hmark.append hblank).append (.of_plain (plain_intercalate h))).append hend).eq

end Reporter

end BootImage
