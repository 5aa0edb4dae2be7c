import BootImage.CommandLine.Parse
import Mathlib.Data.Nat.Digits.Defs
/-!
# How options are spelled

An option of a command line is given in one of many ways: under one of its names or letters, with its
value attached or in the next word, alone in a word or behind other letters. `Spells` relates what is given
to the words that give it, and `Line` does so for a whole command line, without looking at how words are
read. When they are read, they come to what they spell (`State.words_of_line`): each option is met once,
with its value, and taken in before the next.
-/

namespace BootImage

namespace CommandLine

/-! ## What is given -/

/-- An option and its value. -/
inductive Given
  | path (option : PathOption) (path : Path)
  | size (option : SizeOption) (size : Nat)
  | flag (flag : Flag)
deriving DecidableEq, Repr

/-- The option that is given. -/
def Given.switch : Given → Switch
  | .path option _ => .value (.path option)
  | .size option _ => .value (.size option)
  | .flag given => .flag given

/-- Takes in what is given, if its option has not been given before. -/
def Draft.take (draft : Draft) : Given → Except UsageError Draft
  | .path option path =>
    if (draft.path? option).isSome then .error (.repeated (.value (.path option)))
    else .ok { draft with paths := (option, path) :: draft.paths }
  | .size option size =>
    if (draft.size? option).isSome then .error (.repeated (.value (.size option)))
    else .ok { draft with sizes := (option, size) :: draft.sizes }
  | .flag flag => draft.raise flag

/-! ## Values -/

/-- The number that some decimal digits stand for. -/
def decimal (digits : List Char) : Nat :=
  Nat.ofDigits 10 (digits.reverse.map fun c => c.toNat - '0'.toNat)

/-- How a size is written: at least one digit, with a plus sign in front or not, and not too large for a
word. -/
inductive Numeral : Argument → Nat → Prop
  | unsigned {digits : List Char} (hne : digits ≠ []) (hdigits : ∀ c ∈ digits, c.isDigit = true)
    (hfits : decimal digits < wordLimit) : Numeral digits (decimal digits)
  | signed {digits : List Char} (hne : digits ≠ []) (hdigits : ∀ c ∈ digits, c.isDigit = true)
    (hfits : decimal digits < wordLimit) : Numeral ('+' :: digits) (decimal digits)

/-- What an option with the given text as its value gives. -/
inductive Gives : ValueOption → Argument → Given → Prop
  | path {option : PathOption} {text : Argument} (hne : text ≠ []) :
    Gives (.path option) text (.path option ⟨text⟩)
  | size {option : SizeOption} {text : Argument} {size : Nat} (h : Numeral text size) :
    Gives (.size option) text (.size option size)

theorem decimal_cons (c : Char) (digits : List Char) :
    decimal (c :: digits) = (c.toNat - '0'.toNat) * 10 ^ digits.length + decimal digits := by
  rw [decimal, List.reverse_cons, List.map_append, Nat.ofDigits_append, List.length_map,
    List.length_reverse, ← decimal]
  simp [Nat.mul_comm, Nat.add_comm]

/-- Digits continue a number, as long as the whole fits. -/
theorem readDigits_eq {digits : List Char} (hdigits : ∀ c ∈ digits, c.isDigit = true) (n : Nat)
    (hfits : n * 10 ^ digits.length + decimal digits < wordLimit) :
    readDigits n digits = .ok (n * 10 ^ digits.length + decimal digits) := by
  induction digits generalizing n with
  | nil => simp [readDigits, decimal]
  | cons c digits ih =>
    obtain ⟨hc, hrest⟩ := List.forall_mem_cons.1 hdigits
    have hrange : '0' ≤ c ∧ c ≤ '9' := by
      simpa [Char.isDigit, Char.le_def, UInt32.le_iff_toNat_le] using hc
    have hsum : (n * 10 + (c.toNat - '0'.toNat)) * 10 ^ digits.length + decimal digits =
        n * 10 ^ (c :: digits).length + decimal (c :: digits) := by
      rw [decimal_cons, List.length_cons, Nat.pow_succ]
      ring
    rw [← hsum] at hfits ⊢
    have hnext : n * 10 + (c.toNat - '0'.toNat) < wordLimit :=
      Nat.lt_of_le_of_lt (Nat.le_trans (Nat.le_mul_of_pos_right _ (by positivity))
        (Nat.le_add_right _ _)) hfits
    rw [readDigits, if_pos hrange]
    simp only [hnext, if_true]
    exact ih hrest _ hfits

theorem readDigits_decimal {digits : List Char} (hdigits : ∀ c ∈ digits, c.isDigit = true)
    (hfits : decimal digits < wordLimit) : readDigits 0 digits = .ok (decimal digits) := by
  have hread := @readDigits_eq digits hdigits 0
  rw [Nat.zero_mul, Nat.zero_add] at hread
  exact hread hfits

theorem readSize_of_numeral {text : Argument} {size : Nat} (h : Numeral text size) :
    readSize text = .ok size := by
  cases h with
  | unsigned hne hdigits hfits =>
    have hread := readDigits_decimal hdigits hfits
    unfold readSize
    split
    · exact absurd rfl hne
    · exact absurd (hdigits '+' List.mem_cons_self) (by decide)
    · exact absurd (hdigits '+' List.mem_cons_self) (by decide)
    · exact hread
  | @signed digits hne hdigits hfits =>
    obtain ⟨c, cs, rfl⟩ := List.exists_cons_of_ne_nil hne
    exact readDigits_decimal hdigits hfits

theorem Gives.text_ne_nil {option : ValueOption} {text : Argument} {given : Given}
    (h : Gives option text given) : text ≠ [] := by
  cases h with
  | path hne => exact hne
  | size h =>
    cases h with
    | unsigned hne _ _ => exact hne
    | signed _ _ _ => exact List.cons_ne_nil _ _

/-- The text of a value is stored as what it gives. -/
theorem Gives.store_eq {option : ValueOption} {text : Argument} {given : Given}
    (h : Gives option text given) (draft : Draft) : draft.store option text = draft.take given := by
  cases h with
  | path hne => simp only [Draft.store, Draft.take, hne, if_false]
  | size h => simp only [Draft.store, Draft.take, readSize_of_numeral h]

/-! ## Names -/

/-- The names of an option, as they are written after two dashes. -/
def ValueOption.names : ValueOption → List String
  | .path .boot => ["boot"]
  | .path .kernel => ["kernel", "source"]
  | .path .output => ["output"]
  | .path .layout => ["layout"]
  | .size .sectorSize => ["sector-size"]
  | .size .bootSectorLen => ["boot-sector-len"]
  | .size .maxLoaderSize => ["max-loader-size"]
  | .size .maxImageSize => ["max-image-size"]

/-- The letters of an option, as they are written after one dash. -/
def ValueOption.letters : ValueOption → List Char
  | .path .boot => ['b']
  | .path .kernel => ['k', 's']
  | .path .output => ['o']
  | _ => []

/-- The name of a flag. -/
def Flag.name : Flag → String
  | .verify => "verify"
  | .quiet => "quiet"

theorem long?_of_mem_names (option : ValueOption) : ∀ name ∈ option.names,
    long? name.toList = some (.value option) ∧ '=' ∉ name.toList ∧ name.toList ≠ [] := by
  rcases option with (_ | _ | _ | _) | (_ | _ | _ | _) <;> decide

theorem short?_of_mem_letters (option : ValueOption) : ∀ letter ∈ option.letters,
    short? letter = some (.value option) ∧ letter ≠ '-' := by
  rcases option with (_ | _ | _ | _) | (_ | _ | _ | _) <;> simp [ValueOption.letters, short?, shortNames]

theorem long?_name (flag : Flag) :
    long? flag.name.toList = some (.flag flag) ∧ '=' ∉ flag.name.toList ∧ flag.name.toList ≠ [] := by
  cases flag <;> decide

/-! ## Spellings -/

/-- What follows the dash in a word of letters, and the words behind it. The flag with a letter may stand
in front of another option. -/
inductive Letters : List Given → Argument → List Argument → Prop
  | quiet : Letters [.flag .quiet] ['q'] []
  | cluster {givens : List Given} {letters : Argument} {behind : List Argument}
    (h : Letters givens letters behind) : Letters (.flag .quiet :: givens) ('q' :: letters) behind
  | detached {option : ValueOption} {letter : Char} {text : Argument} {given : Given}
    (hletter : letter ∈ option.letters) (h : Gives option text given)
    (hdash : text.head? ≠ some '-') : Letters [given] [letter] [text]
  | equals {option : ValueOption} {letter : Char} {text : Argument} {given : Given}
    (hletter : letter ∈ option.letters) (h : Gives option text given) :
    Letters [given] (letter :: '=' :: text) []
  | glued {option : ValueOption} {letter : Char} {text : Argument} {given : Given}
    (hletter : letter ∈ option.letters) (h : Gives option text given)
    (hequals : text.head? ≠ some '=') : Letters [given] (letter :: text) []

theorem Letters.exists_cons {givens : List Given} {word : Argument} {behind : List Argument}
    (h : Letters givens word behind) : ∃ c rest, word = c :: rest ∧ c ≠ '-' := by
  cases h with
  | quiet => exact ⟨'q', _, rfl, by decide⟩
  | cluster _ => exact ⟨'q', _, rfl, by decide⟩
  | detached hletter _ _ => exact ⟨_, _, rfl, (short?_of_mem_letters _ _ hletter).2⟩
  | equals hletter _ => exact ⟨_, _, rfl, (short?_of_mem_letters _ _ hletter).2⟩
  | glued hletter _ _ => exact ⟨_, _, rfl, (short?_of_mem_letters _ _ hletter).2⟩

/-- The words that give one option, or, if the flag with a letter stands in front of it, both. -/
inductive Spells : List Given → List Argument → Prop
  | attached {option : ValueOption} {name : String} {text : Argument} {given : Given}
    (hname : name ∈ option.names) (h : Gives option text given) :
    Spells [given] ['-' :: '-' :: (name.toList ++ '=' :: text)]
  | detached {option : ValueOption} {name : String} {text : Argument} {given : Given}
    (hname : name ∈ option.names) (h : Gives option text given) (hdash : text.head? ≠ some '-') :
    Spells [given] ['-' :: '-' :: name.toList, text]
  | flag (flag : Flag) : Spells [.flag flag] ['-' :: '-' :: flag.name.toList]
  | letters {givens : List Given} {letters : Argument} {behind : List Argument}
    (h : Letters givens letters behind) : Spells givens (('-' :: letters) :: behind)

/-- The words of a whole command line. -/
inductive Line : List Given → List Argument → Prop
  | nil : Line [] []
  | cons {givens more : List Given} {words others : List Argument} (h : Spells givens words)
    (hmore : Line more others) : Line (givens ++ more) (words ++ others)

theorem Line.append {givens more : List Given} {words others : List Argument} (h : Line givens words)
    (hmore : Line more others) : Line (givens ++ more) (words ++ others) := by
  induction h with
  | nil => exact hmore
  | cons hspells _ ih =>
    rw [List.append_assoc, List.append_assoc]
    exact .cons hspells ih

/-! ## Reading what is spelled -/

theorem take_singleton (given : Given) (draft : Draft) :
    [given].foldlM Draft.take draft = draft.take given := by
  rw [List.foldlM_cons]
  exact bind_pure _

/-- Goes on with the words that are left. -/
def Reading.go (words : List Argument) : Reading → Except UsageError Request
  | .more state => state.words words
  | .finished request => .ok request

namespace State

variable {option : ValueOption} {text : Argument} {given : Given} {words : List Argument}
variable {next : Draft → Except UsageError Request}

/-- From every state, some words come to the same as `next`, once the pending option has been taken in. -/
def Continues (words : List Argument) (next : Draft → Except UsageError Request) : Prop :=
  ∀ state : State, state.words words = state.settle >>= next

theorem words_cons (state : State) {word : Argument} (h : word ≠ ['-', '-']) (words : List Argument) :
    state.words (word :: words) = state.word word >>= Reading.go words := by
  rw [State.words]
  · apply bind_congr
    rintro (next | request) <;> rfl
  · exact fun e _ => h e
  · exact fun _ _ e => absurd e h

theorem continues_nil : Continues [] fun draft => .ok (.build draft.options) := by
  intro state
  rfl

theorem option_attached (hnext : Continues words next) (h : Gives option text given) (state : State) :
    (state.option option (some text) >>= Reading.go words) =
      state.settle >>= fun draft => draft.take given >>= next := by
  have hoption : state.option option (some text) = state.settle >>= fun draft =>
      draft.store option text >>= fun stored => pure (.more ⟨stored, none⟩) := rfl
  rw [hoption, bind_assoc]
  apply bind_congr
  intro draft
  rw [h.store_eq, bind_assoc]
  apply bind_congr
  intro stored
  exact hnext ⟨stored, none⟩

/-- A detached value is taken in when the words behind it are read. -/
theorem option_detached (hnext : Continues words next) (h : Gives option text given)
    (hdash : text.head? ≠ some '-') (state : State) :
    (state.option option none >>= Reading.go (text :: words)) =
      state.settle >>= fun draft => draft.take given >>= next := by
  have hoption : state.option option none = state.settle >>= fun draft =>
      pure (.more ⟨draft, some (option, none)⟩) := rfl
  rw [hoption, bind_assoc]
  apply bind_congr
  intro draft
  have hword : ∀ waiting : State, waiting.word text = waiting.value text := by
    intro waiting
    unfold word
    split
    · exact absurd rfl hdash
    · exact absurd rfl hdash
    · rfl
  have htext : text ≠ ['-', '-'] := by
    rintro rfl
    exact hdash rfl
  rw [pure_bind, Reading.go, words_cons _ htext, hword, ← h.store_eq]
  exact hnext ⟨draft, some (option, some text)⟩

/-- A flag is taken in, and whatever follows goes on from there. -/
theorem flag_bind {after : State → Except UsageError Request}
    (hafter : ∀ draft : Draft, after ⟨draft, none⟩ = next draft) (flag : Flag) (state : State) :
    state.flag flag >>= after = state.settle >>= fun draft => draft.take (.flag flag) >>= next := by
  have hflag : state.flag flag = state.settle >>= fun draft =>
      draft.raise flag >>= fun raised => pure ⟨raised, none⟩ := rfl
  rw [hflag, bind_assoc]
  apply bind_congr
  intro draft
  rw [bind_assoc]
  apply bind_congr
  intro raised
  exact hafter raised

/-! ### Words -/

/-- A name ends at the first equals sign. -/
theorem cut_name {name : Argument} (h : '=' ∉ name) (rest : Argument) :
    (name ++ rest).takeWhile (· ≠ '=') = name ++ rest.takeWhile (· ≠ '=') ∧
      (name ++ rest).dropWhile (· ≠ '=') = rest.dropWhile (· ≠ '=') := by
  have hname : ∀ c ∈ name, decide (c ≠ '=') = true := by
    intro c hc
    rw [decide_eq_true_eq]
    rintro rfl
    exact h hc
  exact ⟨List.takeWhile_append_of_pos hname, List.dropWhile_append_of_pos hname⟩

theorem long_attached {name : String} (hname : name ∈ option.names) (text : Argument) (state : State) :
    state.word ('-' :: '-' :: (name.toList ++ '=' :: text)) = state.option option (some text) := by
  obtain ⟨hlong, hequals, -⟩ := long?_of_mem_names option name hname
  obtain ⟨htake, hdrop⟩ := cut_name hequals ('=' :: text)
  have hnone : ('=' :: text).takeWhile (· ≠ '=') = [] := rfl
  have hall : ('=' :: text).dropWhile (· ≠ '=') = '=' :: text := rfl
  simp only [word, long, htake, hdrop, hnone, hall, List.append_nil, hlong, List.tail?]

/-- A name alone in its word. -/
theorem long_name {name : Argument} (h : '=' ∉ name) (state : State) :
    state.word ('-' :: '-' :: name) =
      match long? name with
      | none => .error (.unexpectedArgument ("--" ++ String.ofList name))
      | some (.value option) => state.option option none
      | some (.flag flag) => state.flag flag >>= fun raised => pure (.more raised)
      | some .help => state.finish .help
      | some .version => state.finish .version := by
  obtain ⟨htake, hdrop⟩ := cut_name h []
  rw [List.append_nil] at htake hdrop
  simp only [word, long, htake, hdrop, List.takeWhile_nil, List.dropWhile_nil, List.append_nil, List.tail?]
  rcases long? name with _ | (option | flag | _ | _) <;> rfl

theorem word_letters {c : Char} (hc : c ≠ '-') (rest : Argument) (state : State) :
    state.word ('-' :: c :: rest) = state.letters (c :: rest) := by
  unfold word
  split
  · rename_i e
    exact absurd (List.cons.inj (List.cons.inj e).2).1 hc
  · rename_i e
    rw [(List.cons.inj e).2]
  · rename_i hother
    exact absurd rfl (hother c rest)

theorem letters_quiet (letters : Argument) (state : State) :
    state.letters ('q' :: letters) = state.flag .quiet >>= fun raised => raised.letters letters := by
  have hquiet : short? 'q' = some (.flag .quiet) := by decide
  rw [State.letters, hquiet]
  simp only
  cases state.flag .quiet <;> rfl

theorem letters_go {givens : List Given} {letters : Argument} {behind : List Argument}
    (h : Letters givens letters behind) (hnext : Continues words next) (state : State) :
    (state.letters letters >>= Reading.go (behind ++ words)) =
      state.settle >>= fun draft => givens.foldlM Draft.take draft >>= next := by
  induction h generalizing state with
  | quiet =>
    rw [letters_quiet, bind_assoc]
    simp only [take_singleton]
    exact flag_bind (fun draft => hnext ⟨draft, none⟩) .quiet state
  | @cluster givens letters behind h ih =>
    rw [letters_quiet, bind_assoc]
    simp only [List.foldlM_cons, bind_assoc]
    exact flag_bind (fun draft => ih ⟨draft, none⟩) .quiet state
  | detached hletter h hdash =>
    obtain ⟨hshort, -⟩ := short?_of_mem_letters _ _ hletter
    simp only [State.letters, hshort, take_singleton]
    exact option_detached hnext h hdash state
  | equals hletter h =>
    obtain ⟨hshort, -⟩ := short?_of_mem_letters _ _ hletter
    simp only [State.letters, hshort, take_singleton]
    exact option_attached hnext h state
  | @glued option letter text given hletter h hequals =>
    obtain ⟨hshort, -⟩ := short?_of_mem_letters _ _ hletter
    obtain ⟨c, cs, rfl⟩ := List.exists_cons_of_ne_nil h.text_ne_nil
    have hc : c ≠ '=' := by
      rintro rfl
      exact hequals rfl
    have hread : state.letters (letter :: c :: cs) = state.option option (some (c :: cs)) := by
      rw [State.letters, hshort]
      simp only
      split
      · rename_i e
        cases e
      · rename_i e
        exact absurd (List.cons.inj e).1 hc
      · rfl
    simp only [hread, take_singleton]
    exact option_attached hnext h state

/-- What is given in some words is taken in, and reading goes on behind them. -/
theorem Continues.spells {givens : List Given} {others : List Argument} (h : Spells givens others)
    (hnext : Continues words next) :
    Continues (others ++ words) fun draft => givens.foldlM Draft.take draft >>= next := by
  intro state
  cases h with
  | @attached option name text given hname h =>
    have hword : '-' :: '-' :: (name.toList ++ '=' :: text) ≠ ['-', '-'] := by simp
    simp only [List.cons_append, List.nil_append, take_singleton]
    rw [words_cons _ hword, long_attached hname]
    exact option_attached hnext h state
  | @detached option name text given hname h hdash =>
    obtain ⟨hlong, hequals, hne⟩ := long?_of_mem_names option name hname
    have hword : '-' :: '-' :: name.toList ≠ ['-', '-'] := by simpa using hne
    simp only [List.cons_append, List.nil_append, take_singleton]
    rw [words_cons _ hword, long_name hequals, hlong]
    exact option_detached hnext h hdash state
  | flag flag =>
    obtain ⟨hlong, hequals, hne⟩ := long?_name flag
    have hword : '-' :: '-' :: flag.name.toList ≠ ['-', '-'] := by simpa using hne
    simp only [List.cons_append, List.nil_append, take_singleton]
    rw [words_cons _ hword, long_name hequals, hlong]
    simp only [bind_assoc]
    exact flag_bind (fun draft => hnext ⟨draft, none⟩) flag state
  | letters h =>
    obtain ⟨c, rest, rfl, hc⟩ := h.exists_cons
    have hword : '-' :: c :: rest ≠ ['-', '-'] := by simp [hc]
    rw [List.cons_append, words_cons _ hword, word_letters hc]
    exact letters_go h hnext state

/-- The words of a command line take in what is given, in this order. -/
theorem words_of_line {givens : List Given} {line : List Argument} (h : Line givens line) :
    Continues line fun draft =>
      givens.foldlM Draft.take draft >>= fun final => .ok (.build final.options) := by
  induction h with
  | nil => exact continues_nil
  | cons hspells _ ih =>
    intro state
    rw [ih.spells hspells state]
    apply bind_congr
    intro draft
    rw [List.foldlM_append, bind_assoc]

end State

end CommandLine

end BootImage
