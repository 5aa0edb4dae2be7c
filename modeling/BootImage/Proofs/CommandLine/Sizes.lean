import BootImage.CommandLine.Parse
import BootImage.Proofs.Layout.Regions
/-!
# Sizes from the command line are words

A number is read digit by digit and refused as soon as it does not fit a word. So whatever a command line
asks to build, its sizes are words (`CommandLine.words_of_parse`): reading a word of the command line
keeps the sizes that have been taken in so far, and adds none but such a number.
-/

namespace BootImage

namespace CommandLine

/-! ## Numbers -/

theorem readDigits_lt {digits : Argument} {n size : Nat} (hn : n < wordLimit)
    (h : readDigits n digits = .ok size) : size < wordLimit := by
  induction digits generalizing n with
  | nil =>
    cases h
    exact hn
  | cons c digits ih =>
    rw [readDigits] at h
    split at h
    · simp only at h
      split at h
      · rename_i hnext
        exact ih hnext h
      · cases h
    · cases h

theorem readSize_lt {value : Argument} {size : Nat} (h : readSize value = .ok size) :
    size < wordLimit := by
  have hzero : 0 < wordLimit := by decide
  unfold readSize at h
  split at h
  · cases h
  · cases h
  · exact readDigits_lt hzero h
  · exact readDigits_lt hzero h

/-! ## What has been given -/

/-- All sizes that have been given fit words. -/
def Draft.Words (draft : Draft) : Prop :=
  ∀ given ∈ draft.sizes, given.2 < wordLimit

/-- The sizes of what is asked for fit words. -/
def Request.Words : Request → Prop
  | .build options => options.config.Words
  | .help => True
  | .version => True

/-- All sizes fit words, as far as has been read. -/
def Reading.Words : Reading → Prop
  | .more state => state.draft.Words
  | .finished request => request.Words

namespace Draft

variable {draft next : Draft}

theorem Words.store (h : draft.Words) {option : ValueOption} {value : Argument}
    (hstore : draft.store option value = .ok next) : next.Words := by
  unfold Draft.store at hstore
  cases option with
  | path option =>
    simp only at hstore
    split at hstore
    · cases hstore
    · split at hstore
      · cases hstore
      · cases hstore
        exact h
  | size option =>
    simp only at hstore
    split at hstore
    · cases hstore
    · split at hstore
      · cases hstore
      · rename_i size hsize
        cases hstore
        intro given hgiven
        rcases List.mem_cons.1 hgiven with rfl | hgiven
        · exact readSize_lt hsize
        · exact h given hgiven

theorem Words.raise (h : draft.Words) {flag : Flag} (hraise : draft.raise flag = .ok next) :
    next.Words := by
  unfold Draft.raise at hraise
  split at hraise
  · cases hraise
  · cases hraise
    exact h

theorem Words.size? (h : draft.Words) {option : SizeOption} {default : Nat}
    (hdefault : default < wordLimit) : (draft.size? option).getD default < wordLimit := by
  unfold Draft.size?
  cases hfound : draft.sizes.find? (·.1 = option) with
  | none => exact hdefault
  | some given => exact h given (List.mem_of_find?_eq_some hfound)

/-- Neither does a default exceed a word. -/
theorem Words.options (h : draft.Words) : draft.options.config.Words where
  sectorSize := h.size? (by decide)
  bootSectorLen := h.size? (by decide)
  maxLoaderSize := h.size? (by decide)
  maxImageSize := h.size? (by decide)

end Draft

/-! ## Reading on -/

namespace State

variable {state : State} {reading : Reading}

theorem words_settle (h : state.draft.Words) {draft : Draft} (hsettle : state.settle = .ok draft) :
    draft.Words := by
  unfold settle at hsettle
  split at hsettle
  · cases hsettle
    exact h
  · cases hsettle
  · exact h.store hsettle

theorem words_option (h : state.draft.Words) {option : ValueOption} {attached : Option Argument}
    (hread : state.option option attached = .ok reading) : reading.Words := by
  obtain ⟨draft, hsettle, hread⟩ := bind_eq_ok hread
  have hdraft := words_settle h hsettle
  cases attached with
  | none =>
    cases hread
    exact hdraft
  | some value =>
    obtain ⟨next, hstore, hread⟩ := bind_eq_ok hread
    cases hread
    exact hdraft.store hstore

theorem words_flag (h : state.draft.Words) {flag : Flag} {next : State}
    (hflag : state.flag flag = .ok next) : next.draft.Words := by
  obtain ⟨draft, hsettle, hflag⟩ := bind_eq_ok hflag
  obtain ⟨raised, hraise, hflag⟩ := bind_eq_ok hflag
  cases hflag
  exact (words_settle h hsettle).raise hraise

theorem words_finish (request : Request) (hrequest : request.Words)
    (hread : state.finish request = .ok reading) : reading.Words := by
  obtain ⟨draft, -, hread⟩ := bind_eq_ok hread
  cases hread
  exact hrequest

theorem words_long (h : state.draft.Words) {body : Argument}
    (hread : state.long body = .ok reading) : reading.Words := by
  unfold long at hread
  simp only at hread
  split at hread
  · cases hread
  · exact words_option h hread
  · cases hread
  · obtain ⟨next, hflag, hread⟩ := bind_eq_ok hread
    cases hread
    exact words_flag h hflag
  · exact words_finish .help trivial hread
  · exact words_finish .version trivial hread

theorem words_letters (h : state.draft.Words) {letters : Argument}
    (hread : state.letters letters = .ok reading) : reading.Words := by
  induction letters generalizing state with
  | nil =>
    cases hread
    exact h
  | cons c rest ih =>
    rw [State.letters] at hread
    split at hread
    · cases hread
    · split at hread
      · cases hread
      · rename_i next hflag
        exact ih (words_flag h hflag) hread
    · exact words_finish .help trivial hread
    · exact words_finish .version trivial hread
    · split at hread
      · exact words_option h hread
      · exact words_option h hread
      · exact words_option h hread

theorem words_value (h : state.draft.Words) {word : Argument}
    (hread : state.value word = .ok reading) : reading.Words := by
  unfold value at hread
  split at hread
  · cases hread
    exact h
  · cases hread

theorem words_word (h : state.draft.Words) {word : Argument}
    (hread : state.word word = .ok reading) : reading.Words := by
  unfold State.word at hread
  split at hread
  · exact words_long h hread
  · exact words_letters h hread
  · exact words_value h hread

theorem words_words (h : state.draft.Words) {words : List Argument} {request : Request}
    (hread : state.words words = .ok request) : request.Words := by
  induction words generalizing state with
  | nil =>
    obtain ⟨draft, hsettle, hread⟩ := bind_eq_ok hread
    cases hread
    exact (words_settle h hsettle).options
  | cons word words ih =>
    by_cases hdashes : word = ['-', '-']
    · subst hdashes
      cases words with
      | nil =>
        obtain ⟨draft, hsettle, hread⟩ := bind_eq_ok hread
        cases hread
        exact (words_settle h hsettle).options
      | cons extra rest => cases hread
    · rw [State.words] at hread
      · obtain ⟨reading, hword, hread⟩ := bind_eq_ok hread
        have hreading := words_word h hword
        cases reading with
        | more next => exact ih hreading hread
        | finished request =>
          cases hread
          exact hreading
      · exact fun e _ => hdashes e
      · exact fun _ _ e => absurd e hdashes

end State

theorem words_of_parse {arguments : List String} {options : Options}
    (h : parse arguments = .ok (.build options)) : options.config.Words := by
  have hempty : (⟨.empty, none⟩ : State).draft.Words := nofun
  exact State.words_words hempty h

end CommandLine

end BootImage
