import BootImage.Proofs.CommandLine.Spelling
/-!
# A flag in front of a command line

Reading a command line with one flag raised already goes as reading it from nothing: word by word the
same is taken in or refused (`CommandLine.Follows`), until the flag is met, which is then given twice. So a
flag in front of a command line is refused as a repetition, or it adds itself to what is asked for and
changes nothing else (`CommandLine.parse_flag_cons`).
-/

namespace BootImage

namespace CommandLine

/-! ## Raised flags -/

/-- A build with one more flag. -/
def Flag.addTo (options : Options) : Flag → Options
  | .verify => { options with verify := true }
  | .quiet => { options with quiet := true }

variable (flag : Flag)

/-- The draft as it would be had the flag been raised before anything else. -/
def Draft.after (draft : Draft) : Draft :=
  { draft with flags := draft.flags ++ [flag] }

def State.after (state : State) : State :=
  { state with draft := state.draft.after flag }

def Request.after : Request → Request
  | .build options => .build (flag.addTo options)
  | .help => .help
  | .version => .version

def Reading.after : Reading → Reading
  | .more state => .more (state.after flag)
  | .finished request => .finished (request.after flag)

/-- The second reading finds the flag given again, or it goes as the first one. -/
def Follows {α β : Type} (f : α → β) (first : Except UsageError α) (second : Except UsageError β) : Prop :=
  second = .error (.repeated (.flag flag)) ∨ second = first.map f

variable {flag}

theorem Follows.bind {α β γ δ : Type} {f : α → β} {g : γ → δ} {first : Except UsageError α}
    {second : Except UsageError β} {next : α → Except UsageError γ} {next' : β → Except UsageError δ}
    (h : Follows flag f first second) (hnext : ∀ value, Follows flag g (next value) (next' (f value))) :
    Follows flag g (first >>= next) (second >>= next') := by
  obtain rfl | rfl := h
  · exact .inl rfl
  · cases first with
    | error error => exact .inr rfl
    | ok value => exact hnext value

theorem Follows.error {α β : Type} {f : α → β} (error : UsageError) :
    Follows flag f (.error error) (.error error) :=
  .inr rfl

theorem Follows.ok {α β : Type} {f : α → β} (value : α) : Follows flag f (.ok value) (.ok (f value)) :=
  .inr rfl

/-! ## What is taken in -/

theorem options_after (draft : Draft) : (draft.after flag).options = flag.addTo draft.options := by
  cases flag <;> simp [Draft.options, Draft.after, Draft.path?, Draft.size?, Flag.addTo]

theorem follows_store (draft : Draft) (option : ValueOption) (value : Argument) :
    Follows flag (Draft.after flag) (draft.store option value) ((draft.after flag).store option value) := by
  cases option with
  | path option =>
    by_cases hagain : (draft.path? option).isSome
    · simp only [Draft.store, Draft.after, Draft.path?] at hagain ⊢
      simp only [hagain, if_true]
      exact .error _
    · simp only [Draft.store, Draft.after, Draft.path?] at hagain ⊢
      simp only [hagain]
      by_cases hempty : value = []
      · simp only [hempty, if_true]
        exact .error _
      · simp only [hempty, if_false]
        exact .inr rfl
  | size option =>
    by_cases hagain : (draft.size? option).isSome
    · simp only [Draft.store, Draft.after, Draft.size?] at hagain ⊢
      simp only [hagain, if_true]
      exact .error _
    · simp only [Draft.store, Draft.after, Draft.size?] at hagain ⊢
      simp only [hagain]
      cases readSize value <;> exact .inr rfl

theorem follows_raise (draft : Draft) (other : Flag) :
    Follows flag (Draft.after flag) (draft.raise other) ((draft.after flag).raise other) := by
  unfold Draft.raise Draft.after
  by_cases hsame : other = flag
  · rw [hsame]
    exact .inl (if_pos (by simp))
  · by_cases hagain : other ∈ draft.flags
    · simp only [List.mem_append, hagain, true_or, if_true]
      exact .error _
    · simp only [List.mem_append, hagain, List.mem_singleton, hsame, or_self, if_false]
      exact .inr rfl

/-! ## Words -/

namespace State

theorem follows_settle (state : State) :
    Follows flag (Draft.after flag) state.settle (state.after flag).settle := by
  obtain ⟨draft, _ | ⟨option, _ | value⟩⟩ := state
  · exact .ok draft
  · exact .error _
  · exact follows_store draft option value

theorem follows_option (state : State) (option : ValueOption) (attached : Option Argument) :
    Follows flag (Reading.after flag) (state.option option attached)
      ((state.after flag).option option attached) := by
  refine (follows_settle state).bind fun draft => ?_
  cases attached with
  | none => exact .inr rfl
  | some value => exact (follows_store draft option value).bind fun next => .inr rfl

theorem follows_flag (state : State) (other : Flag) :
    Follows flag (State.after flag) (state.flag other) ((state.after flag).flag other) :=
  (follows_settle state).bind fun draft => (follows_raise draft other).bind fun _ => .inr rfl

theorem follows_finish (state : State) {request : Request} (h : request.after flag = request) :
    Follows flag (Reading.after flag) (state.finish request) ((state.after flag).finish request) := by
  have hsame : Reading.after flag (.finished request) = .finished request := congrArg Reading.finished h
  exact (follows_settle state).bind fun _ => .inr (congrArg Except.ok hsame.symm)

theorem follows_long (state : State) (body : Argument) :
    Follows flag (Reading.after flag) (state.long body) ((state.after flag).long body) := by
  unfold long
  generalize body.takeWhile (· ≠ '=') = name
  generalize (body.dropWhile (· ≠ '=')).tail? = attached
  dsimp only
  rcases long? name with _ | option | other | _ | _
  · exact .inr rfl
  · exact follows_option state option attached
  · cases attached with
    | none => exact (follows_flag state other).bind fun _ => .inr rfl
    | some value => exact .inr rfl
  · cases attached with
    | none => exact follows_finish state rfl
    | some value => exact .inr rfl
  · cases attached with
    | none => exact follows_finish state rfl
    | some value => exact .inr rfl

theorem follows_letters (state : State) (letters : Argument) :
    Follows flag (Reading.after flag) (state.letters letters) ((state.after flag).letters letters) := by
  induction letters generalizing state with
  | nil => exact .inr rfl
  | cons c rest ih =>
    simp only [State.letters]
    rcases short? c with _ | option | other | _ | _ <;> dsimp only
    · exact .inr rfl
    · split
      · exact follows_option state option none
      · exact follows_option state option (some _)
      · exact follows_option state option (some rest)
    · rcases @follows_flag flag state other with hagain | hsame
      · rw [hagain]
        exact .inl rfl
      · rw [hsame]
        cases state.flag other with
        | error error => exact .inr rfl
        | ok next => exact ih next
    · exact follows_finish state rfl
    · exact follows_finish state rfl

theorem follows_value (state : State) (word : Argument) :
    Follows flag (Reading.after flag) (state.value word) ((state.after flag).value word) := by
  obtain ⟨draft, _ | ⟨option, _ | value⟩⟩ := state
  · exact .inr rfl
  · exact .inr rfl
  · exact .inr rfl

theorem follows_word (state : State) (word : Argument) :
    Follows flag (Reading.after flag) (state.word word) ((state.after flag).word word) := by
  unfold State.word
  split
  · exact follows_long state _
  · exact follows_letters state _
  · exact follows_value state word

theorem follows_words (state : State) (words : List Argument) :
    Follows flag (Request.after flag) (state.words words) ((state.after flag).words words) := by
  have hend : ∀ state : State, Follows flag (Request.after flag)
      (state.settle >>= fun draft => pure (.build draft.options))
      ((state.after flag).settle >>= fun draft => pure (.build draft.options)) := by
    intro state
    refine (follows_settle state).bind fun draft => .inr ?_
    rw [options_after]
    rfl
  induction words generalizing state with
  | nil => exact hend state
  | cons word words ih =>
    by_cases hdashes : word = ['-', '-']
    · subst hdashes
      cases words with
      | nil => exact hend state
      | cons extra words => exact .error _
    · rw [words_cons state hdashes, words_cons (state.after flag) hdashes]
      refine (follows_word state word).bind fun reading => ?_
      cases reading with
      | more next => exact ih next
      | finished request => exact .ok request

end State

/-- The word that gives a flag. -/
def Flag.word (flag : Flag) : String :=
  "--" ++ flag.name

/-- A flag in front of a command line is given twice then, or it is added to what is asked for. -/
theorem parse_flag_cons (flag : Flag) (arguments : List String) :
    parse (flag.word :: arguments) = .error (.repeated (.flag flag)) ∨
      parse (flag.word :: arguments) = (parse arguments).map (Request.after flag) := by
  have hfirst : parse (flag.word :: arguments) =
      ((⟨.empty, none⟩ : State).after flag).words (arguments.map String.toList) := by
    unfold parse
    cases flag <;> rfl
  rw [hfirst]
  exact State.follows_words _ _

end CommandLine

end BootImage
