/-!
# Numbers in a text

A number that stands in a text is known from it if what follows does not begin with a digit: its digits end
there. So two texts that begin with numbers agree just if the numbers do and what follows them does
(`Text.toString_append_inj`).
-/

namespace BootImage

namespace Text

variable {n m : Nat} {rest rest' text : String}

/-- The text begins with a character that is no digit, so a number in front of it ends. -/
def stops (text : String) : Bool :=
  text.toList.head?.any fun c => !c.isDigit

theorem stops_append (h : stops text = true) (more : String) : stops (text ++ more) = true := by
  unfold stops at h ⊢
  rw [String.toList_append]
  cases hcs : text.toList with
  | nil =>
    rw [hcs] at h
    cases h
  | cons c cs =>
    rw [hcs] at h
    exact h

theorem eq_of_toList_toString (h : (toString n).toList = (toString m).toList) : n = m := by
  rw [Nat.toString_eq_repr, Nat.toString_eq_repr, Nat.toList_repr, Nat.toList_repr] at h
  calc
    n = Nat.ofDigitChars 10 (Nat.toDigits 10 n) 0 :=
      (Nat.ofDigitChars_toDigits (by decide) (by decide)).symm
    _ = Nat.ofDigitChars 10 (Nat.toDigits 10 m) 0 := by rw [h]
    _ = m := Nat.ofDigitChars_toDigits (by decide) (by decide)

theorem isDigit_of_mem_toString {c : Char} (h : c ∈ (toString n).toList) : c.isDigit = true := by
  rw [Nat.toString_eq_repr, Nat.toList_repr] at h
  exact Nat.isDigit_of_mem_toDigits (by decide) (by decide) h

theorem not_mem_toString {c : Char} (h : c.isDigit = false) (n : Nat) : c ∉ (toString n).toList := by
  intro hmem
  rw [isDigit_of_mem_toString hmem] at h
  cases h

/-- The digits in front are those of the number. -/
theorem takeWhile_toString_append (n : Nat) (h : stops rest = true) :
    (toString n ++ rest).toList.takeWhile Char.isDigit = (toString n).toList := by
  have hrest : rest.toList.takeWhile Char.isDigit = [] := by
    unfold stops at h
    cases hcs : rest.toList with
    | nil => rfl
    | cons c cs =>
      rw [hcs] at h
      have hc : c.isDigit = false := by simpa using h
      rw [List.takeWhile_cons_of_neg (by simp [hc])]
  rw [String.toList_append, List.takeWhile_append_of_pos fun c => isDigit_of_mem_toString, hrest,
    List.append_nil]

/-- A number is told from what follows it. -/
theorem toString_append_inj (h : stops rest = true) (h' : stops rest' = true) :
    toString n ++ rest = toString m ++ rest' ↔ n = m ∧ rest = rest' := by
  constructor
  · intro heq
    have hdigits : (toString n).toList = (toString m).toList := by
      rw [← takeWhile_toString_append n h, heq, takeWhile_toString_append m h']
    obtain rfl := eq_of_toList_toString hdigits
    exact ⟨rfl, (String.append_right_inj _).1 heq⟩
  · rintro ⟨rfl, rfl⟩
    rfl

/-- Two numbers that the same words follow. -/
theorem toString_append_append_inj (h : stops text = true) :
    toString n ++ (text ++ rest) = toString m ++ (text ++ rest') ↔ n = m ∧ rest = rest' := by
  rw [toString_append_inj (stops_append h rest) (stops_append h rest'), String.append_right_inj]

/-- Two numbers in the same words. -/
theorem two_toString_inj {first middle last : String} (hmiddle : stops middle = true)
    (hlast : stops last = true) {n m n' m' : Nat} :
    first ++ toString n ++ middle ++ toString m ++ last =
      first ++ toString n' ++ middle ++ toString m' ++ last ↔ n = n' ∧ m = m' := by
  simp only [String.append_assoc, String.append_right_inj, toString_append_append_inj hmiddle,
    toString_append_inj hlast hlast, and_true]

/-- What begins with a number is not what begins with anything else. -/
theorem toString_append_ne (n : Nat) (rest : String) (h : stops text = true) :
    toString n ++ rest ≠ text := by
  rintro rfl
  unfold stops at h
  rw [String.toList_append] at h
  cases hcs : (toString n).toList with
  | nil => exact absurd (Nat.toList_repr.symm.trans hcs) Nat.toDigits_ne_nil
  | cons c cs =>
    have hc : c.isDigit = true := isDigit_of_mem_toString (hcs ▸ List.mem_cons_self)
    rw [hcs] at h
    simp [hc] at h

end Text

end BootImage
