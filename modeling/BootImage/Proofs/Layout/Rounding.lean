import BootImage.Proofs.Layout.Monotone
/-!
# Rounding on words

A machine rounds up in two steps: it divides, counting one more where something remains, and multiplies
again. The first step never leaves the words, since there are no more multiples below a length than the
length itself, and the second is checked. `Word.alignUp_exact` says that this finds the least multiple up
to the last word, where adding before dividing would overflow although the answer is a word.
-/

namespace BootImage

namespace Word

variable {align len n : Nat}

/-! ## The two steps -/

/-- How many times `align` it takes to reach `len`. -/
def divUp (len align : Nat) : Nat :=
  if len % align = 0 then len / align else len / align + 1

theorem divUp_le (len align : Nat) : divUp len align ≤ len := by
  unfold divUp
  split
  · exact Nat.div_le_self len align
  · rename_i hrest
    have hdiv := Nat.div_add_mod len align
    rcases Nat.eq_zero_or_pos align with rfl | hpos
    · rw [Nat.div_zero]
      omega
    · -- What remains is not counted by the quotient, so there is room for one more.
      have hmul := Nat.le_mul_of_pos_left (len / align) hpos
      omega

theorem isAlignUp_divUp_mul (hpos : 0 < align) (len : Nat) :
    IsAlignUp align len (divUp len align * align) := by
  have hdiv := Nat.div_add_mod len align
  have hmod := Nat.mod_lt len hpos
  rw [Nat.mul_comm] at hdiv
  refine ⟨Nat.dvd_mul_left _ _, ?_, ?_⟩
  all_goals
    unfold divUp
    split
    · omega
    · rw [Nat.add_mul, Nat.one_mul]
      omega

/-- Rounding up is a division followed by a checked multiplication. -/
theorem alignUp_eq_mul (hpos : 0 < align) (len : Nat) :
    alignUp len align = .ok (mul (divUp len align) align).toOption := by
  rw [alignUp_of_isLeast hpos (isAlignUp_divUp_mul hpos len).isLeast, mul]
  split <;> rfl

/-! ## What is found -/

theorem alignUp_eq_some_iff (hpos : 0 < align) :
    alignUp len align = .ok (some n) ↔ IsLeast (multiplesFrom align len) n ∧ n < wordLimit := by
  constructor
  · intro h
    obtain ⟨hup, hlt⟩ := isAlignUp_of_alignUp h
    exact ⟨hup.isLeast, hlt⟩
  · rintro ⟨hleast, hlt⟩
    rw [alignUp_of_isLeast hpos hleast, if_pos hlt]

theorem alignUp_eq_none_iff (hpos : 0 < align) :
    alignUp len align = .ok none ↔ ∀ n, len ≤ n → n < wordLimit → ¬ align ∣ n := by
  obtain ⟨least, hleast⟩ := exists_isLeast_multiplesFrom hpos len
  rw [alignUp_of_isLeast hpos hleast]
  constructor
  · intro h n hle hlt hdvd
    have hfirst : least ≤ n := hleast.2 ⟨hdvd, hle⟩
    rw [if_pos (Nat.lt_of_le_of_lt hfirst hlt)] at h
    cases h
  · intro hnone
    have hlarge : ¬ least < wordLimit := fun hlt => hnone least hleast.1.2 hlt hleast.1.1
    rw [if_neg hlarge]

/-- A multiple is not rounded any further. -/
theorem alignUp_idempotent (hpos : 0 < align) (h : alignUp len align = .ok (some n)) :
    alignUp n align = .ok (some n) := by
  obtain ⟨hup, hlt⟩ := isAlignUp_of_alignUp h
  exact (alignUp_eq_some_iff hpos).2 ⟨(isAlignUp_self hpos hup.dvd).isLeast, hlt⟩

/-- Where a length can be rounded up, so can all shorter ones, to no more. -/
theorem alignUp_mono {shorter : Nat} (hpos : 0 < align) (hle : shorter ≤ len)
    (h : alignUp len align = .ok (some n)) :
    ∃ m, m ≤ n ∧ alignUp shorter align = .ok (some m) := by
  obtain ⟨hup, hlt⟩ := isAlignUp_of_alignUp h
  obtain ⟨m, hleast⟩ := exists_isLeast_multiplesFrom hpos shorter
  have hmn : m ≤ n := hleast.2 ⟨hup.dvd, Nat.le_trans hle hup.le⟩
  exact ⟨m, hmn, (alignUp_eq_some_iff hpos).2 ⟨hleast, Nat.lt_of_le_of_lt hmn hlt⟩⟩

/-- For every alignment but zero, powers of two or not, the quotient rounded up is a word if the length is,
and rounding up is the checked product of it and the alignment. What it finds is the least multiple that is
not below the length, if that is a word; it finds nothing just if no multiple lies between the length and
the last word. What is found is rounded up to itself, and a shorter length is rounded up to no more. -/
theorem alignUp_exact (hpos : 0 < align) (len : Nat) :
    divUp len align ≤ len ∧
      alignUp len align = .ok (mul (divUp len align) align).toOption ∧
      (∀ n, alignUp len align = .ok (some n) ↔
        IsLeast (multiplesFrom align len) n ∧ n < wordLimit) ∧
      (alignUp len align = .ok none ↔ ∀ n, len ≤ n → n < wordLimit → ¬ align ∣ n) ∧
      (∀ n, alignUp len align = .ok (some n) → alignUp n align = .ok (some n)) ∧
      ∀ n shorter, shorter ≤ len → alignUp len align = .ok (some n) →
        ∃ m, m ≤ n ∧ alignUp shorter align = .ok (some m) := by
  refine ⟨divUp_le len align, alignUp_eq_mul hpos len, fun n => alignUp_eq_some_iff hpos,
    alignUp_eq_none_iff hpos, fun n => alignUp_idempotent hpos, ?_⟩
  intro n shorter hle h
  exact alignUp_mono hpos hle h

/-- Three divides the last word, and the word before it is rounded up to it, although their sum overflows.
Seven does not divide it, and nothing is found. -/
theorem alignUp_exact_at_last_word :
    alignUp (wordLimit - 2) 3 = .ok (some (wordLimit - 1)) ∧
      IsLeast (multiplesFrom 3 (wordLimit - 2)) (wordLimit - 1) ∧
      alignUp (wordLimit - 1) 3 = .ok (some (wordLimit - 1)) ∧
      ∀ n, wordLimit - 1 ≤ n → n < wordLimit → ¬ 7 ∣ n := by
  have hthree : alignUp (wordLimit - 2) 3 = .ok (some (wordLimit - 1)) := by rfl
  have hseven : alignUp (wordLimit - 1) 7 = .ok none := by rfl
  obtain ⟨-, -, hsome, -, hagain, -⟩ := alignUp_exact (by decide : 0 < 3) (wordLimit - 2)
  obtain ⟨-, -, -, hnone, -, -⟩ := alignUp_exact (by decide : 0 < 7) (wordLimit - 1)
  exact ⟨hthree, ((hsome _).1 hthree).1, hagain _ hthree, hnone.1 hseven⟩

end Word

end BootImage
