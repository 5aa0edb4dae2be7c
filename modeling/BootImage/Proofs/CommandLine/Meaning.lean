import BootImage.Proofs.CommandLine.Spelling
/-!
# What a command line means

A command line means what is given in it, and the defaults for the rest. It does not matter in which
order the options stand or how they are spelled (`CommandLine.parse_line`), as long as each of them is given
once: the first that is given again is refused, wherever it stands.
-/

namespace BootImage

namespace CommandLine

/-! ## Options by name -/

/-- The path of a build that an option stands for. -/
def PathOption.of (options : Options) : PathOption → Option Path
  | .boot => some options.boot
  | .kernel => options.kernel
  | .output => some options.output
  | .layout => options.layout

/-- The path where none is given. -/
def PathOption.default : PathOption → Option Path
  | .boot => some (.ofString "build/boot.bin")
  | .kernel => none
  | .output => some (.ofString "build/image.bin")
  | .layout => none

/-- The parameter of the layout that an option stands for. -/
def SizeOption.of (config : Config) : SizeOption → Nat
  | .sectorSize => config.sectorSize
  | .bootSectorLen => config.bootSectorLen
  | .maxLoaderSize => config.maxLoaderSize
  | .maxImageSize => config.maxImageSize

/-- The size where none is given. -/
def SizeOption.default : SizeOption → Nat
  | .sectorSize => 512
  | .bootSectorLen => 512
  | .maxLoaderSize => 32768
  | .maxImageSize => 16777216

/-- Whether a build is asked for what a flag stands for. -/
def Flag.of (options : Options) : Flag → Bool
  | .verify => options.verify
  | .quiet => options.quiet

/-- A build is asked for all that is given, and for the defaults of the options that are not given. -/
structure Meant (givens : List Given) (options : Options) : Prop where
  path : ∀ option path, .path option path ∈ givens → option.of options = some path
  default_path : ∀ option : PathOption, .value (.path option) ∉ givens.map Given.switch →
    option.of options = option.default
  size : ∀ option size, .size option size ∈ givens → option.of options.config = size
  default_size : ∀ option : SizeOption, .value (.size option) ∉ givens.map Given.switch →
    option.of options.config = option.default
  flag : ∀ flag : Flag, flag.of options = true ↔ .flag flag ∈ givens

section

variable {givens : List Given}

theorem mem_switches_path {option : PathOption} :
    .value (.path option) ∈ givens.map Given.switch ↔ ∃ path, .path option path ∈ givens := by
  rw [List.mem_map]
  constructor
  · rintro ⟨_ | _ | _, hm, e⟩ <;> cases e
    exact ⟨_, hm⟩
  · rintro ⟨path, hm⟩
    exact ⟨_, hm, rfl⟩

theorem mem_switches_size {option : SizeOption} :
    .value (.size option) ∈ givens.map Given.switch ↔ ∃ size, .size option size ∈ givens := by
  rw [List.mem_map]
  constructor
  · rintro ⟨_ | _ | _, hm, e⟩ <;> cases e
    exact ⟨_, hm⟩
  · rintro ⟨size, hm⟩
    exact ⟨_, hm, rfl⟩

theorem mem_switches_flag {flag : Flag} :
    .flag flag ∈ givens.map Given.switch ↔ .flag flag ∈ givens := by
  rw [List.mem_map]
  constructor
  · rintro ⟨_ | _ | _, hm, e⟩ <;> cases e
    exact hm
  · intro hm
    exact ⟨_, hm, rfl⟩

end

/-! ## Drafts -/

namespace Draft

variable {draft : Draft} {givens : List Given} {given : Given}

/-- What has been given so far. -/
structure Holds (draft : Draft) (givens : List Given) : Prop where
  path : ∀ option path, draft.path? option = some path ↔ .path option path ∈ givens
  size : ∀ option size, draft.size? option = some size ↔ .size option size ∈ givens
  flag : ∀ flag, flag ∈ draft.flags ↔ .flag flag ∈ givens

theorem holds_empty : Draft.empty.Holds [] where
  path option path := by simp [empty, path?]
  size option size := by simp [empty, size?]
  flag flag := by simp [empty]

/-- A key that had no value has the one that is put in front. -/
theorem find?_cons_iff {κ ν : Type} [DecidableEq κ] {entries : List (κ × ν)} {key : κ}
    (hfree : (entries.find? (·.1 = key)).map Prod.snd = none) (value : ν) (other : κ) (found : ν) :
    (((key, value) :: entries).find? (·.1 = other)).map Prod.snd = some found ↔
      (entries.find? (·.1 = other)).map Prod.snd = some found ∨ other = key ∧ found = value := by
  by_cases h : key = other
  · subst h
    rw [List.find?_cons_of_pos (by simp), hfree, Option.map_some, Option.some.injEq]
    constructor
    · rintro rfl
      exact .inr ⟨rfl, rfl⟩
    · rintro (hnone | ⟨-, rfl⟩)
      · cases hnone
      · rfl
  · rw [List.find?_cons_of_neg (by simpa using h)]
    simp [Ne.symm h]

theorem Holds.isSome_path? (h : draft.Holds givens) (option : PathOption) :
    (draft.path? option).isSome = true ↔ .value (.path option) ∈ givens.map Given.switch := by
  rw [Option.isSome_iff_exists, mem_switches_path]
  exact exists_congr fun path => h.path option path

theorem Holds.isSome_size? (h : draft.Holds givens) (option : SizeOption) :
    (draft.size? option).isSome = true ↔ .value (.size option) ∈ givens.map Given.switch := by
  rw [Option.isSome_iff_exists, mem_switches_size]
  exact exists_congr fun size => h.size option size

theorem Holds.mem_flags (h : draft.Holds givens) (flag : Flag) :
    flag ∈ draft.flags ↔ .flag flag ∈ givens.map Given.switch := by
  rw [h.flag, mem_switches_flag]

/-- An option that has not been given yet is taken in. -/
theorem Holds.take (h : draft.Holds givens) (hnew : given.switch ∉ givens.map Given.switch) :
    ∃ next, draft.take given = .ok next ∧ next.Holds (givens ++ [given]) := by
  cases given with
  | path option path =>
    have hfree : ¬ (draft.path? option).isSome = true := fun e => hnew ((h.isSome_path? option).1 e)
    refine ⟨_, if_neg hfree, ?_, ?_, ?_⟩ <;>
      simp only [List.mem_append, List.mem_singleton, reduceCtorEq, or_false]
    · intro other found
      rw [← h.path, Given.path.injEq]
      exact find?_cons_iff (Option.not_isSome_iff_eq_none.1 hfree) path other found
    · exact h.size
    · exact h.flag
  | size option size =>
    have hfree : ¬ (draft.size? option).isSome = true := fun e => hnew ((h.isSome_size? option).1 e)
    refine ⟨_, if_neg hfree, ?_, ?_, ?_⟩ <;>
      simp only [List.mem_append, List.mem_singleton, reduceCtorEq, or_false]
    · exact h.path
    · intro other found
      rw [← h.size, Given.size.injEq]
      exact find?_cons_iff (Option.not_isSome_iff_eq_none.1 hfree) size other found
    · exact h.flag
  | flag flag =>
    have hfree : flag ∉ draft.flags := fun e => hnew ((h.mem_flags flag).1 e)
    refine ⟨_, if_neg hfree, ?_, ?_, ?_⟩ <;>
      simp only [List.mem_append, List.mem_singleton, reduceCtorEq, or_false]
    · exact h.path
    · exact h.size
    · intro other
      rw [← h.flag, Given.flag.injEq, List.mem_cons, or_comm]

/-- An option that has been given is refused, whatever its value. -/
theorem Holds.take_again (h : draft.Holds givens) (hagain : given.switch ∈ givens.map Given.switch) :
    draft.take given = .error (.repeated given.switch) := by
  cases given with
  | path option path => exact if_pos ((h.isSome_path? option).2 hagain)
  | size option size => exact if_pos ((h.isSome_size? option).2 hagain)
  | flag flag => exact if_pos ((h.mem_flags flag).2 hagain)

/-- Options that are all different are taken in one after the other. -/
theorem Holds.foldlM {more : List Given} (h : draft.Holds givens)
    (hdistinct : ((givens ++ more).map Given.switch).Nodup) :
    ∃ final, more.foldlM Draft.take draft = .ok final ∧ final.Holds (givens ++ more) := by
  induction more generalizing draft givens with
  | nil =>
    rw [List.append_nil]
    exact ⟨draft, rfl, h⟩
  | cons given more ih =>
    have hsplit : givens ++ given :: more = (givens ++ [given]) ++ more := by
      rw [List.append_assoc, List.singleton_append]
    have hnew : given.switch ∉ givens.map Given.switch := by
      intro hm
      rw [List.map_append, List.map_cons, List.nodup_append] at hdistinct
      exact hdistinct.2.2 _ hm _ List.mem_cons_self rfl
    obtain ⟨next, htake, hnext⟩ := h.take hnew
    rw [hsplit] at hdistinct ⊢
    rw [List.foldlM_cons, htake]
    exact ih hnext hdistinct

/-- What has been given decides, and the defaults where nothing has. -/
theorem Holds.meant (h : draft.Holds givens) : Meant givens draft.options where
  path option path hm := by
    have hpath := (h.path option path).2 hm
    cases option <;> simp only [PathOption.of, options, hpath, Option.getD_some]
  default_path option hnew := by
    have hnone : draft.path? option = none :=
      Option.not_isSome_iff_eq_none.1 fun e => hnew ((h.isSome_path? option).1 e)
    cases option <;> simp only [PathOption.of, PathOption.default, options, hnone, Option.getD_none]
  size option size hm := by
    have hsize := (h.size option size).2 hm
    cases option <;> simp only [SizeOption.of, options, hsize, Option.getD_some]
  default_size option hnew := by
    have hnone : draft.size? option = none :=
      Option.not_isSome_iff_eq_none.1 fun e => hnew ((h.isSome_size? option).1 e)
    cases option <;> simp only [SizeOption.of, SizeOption.default, options, hnone, Option.getD_none]
  flag flag := by
    rw [← h.flag]
    cases flag <;> simp only [Flag.of, options, decide_eq_true_eq]

end Draft

/-- There is one meaning only, whatever the order. -/
theorem Meant.unique {givens others : List Given} {options options' : Options} (h : Meant givens options)
    (h' : Meant others options') (hsame : ∀ given, given ∈ others ↔ given ∈ givens) :
    options' = options := by
  have hswitch : ∀ switch, switch ∈ others.map Given.switch ↔ switch ∈ givens.map Given.switch := by
    intro switch
    simp only [List.mem_map, hsame]
  have hpath : ∀ option : PathOption, option.of options' = option.of options := by
    intro option
    by_cases hgiven : .value (.path option) ∈ givens.map Given.switch
    · obtain ⟨path, hm⟩ := mem_switches_path.1 hgiven
      rw [h.path _ _ hm, h'.path _ _ ((hsame _).2 hm)]
    · rw [h.default_path option hgiven, h'.default_path option fun e => hgiven ((hswitch _).1 e)]
  have hsize : ∀ option : SizeOption, option.of options'.config = option.of options.config := by
    intro option
    by_cases hgiven : .value (.size option) ∈ givens.map Given.switch
    · obtain ⟨size, hm⟩ := mem_switches_size.1 hgiven
      rw [h.size _ _ hm, h'.size _ _ ((hsame _).2 hm)]
    · rw [h.default_size option hgiven, h'.default_size option fun e => hgiven ((hswitch _).1 e)]
  have hflag : ∀ flag : Flag, flag.of options' = flag.of options := by
    intro flag
    rw [Bool.eq_iff_iff, h.flag, h'.flag, hsame]
  obtain ⟨boot, kernel, output, layout, verify, quiet, config⟩ := options
  obtain ⟨boot', kernel', output', layout', verify', quiet', config'⟩ := options'
  obtain rfl : boot' = boot := Option.some.inj (hpath .boot)
  obtain rfl : kernel' = kernel := hpath .kernel
  obtain rfl : output' = output := Option.some.inj (hpath .output)
  obtain rfl : layout' = layout := hpath .layout
  obtain rfl : verify' = verify := hflag .verify
  obtain rfl : quiet' = quiet := hflag .quiet
  have hconfig : config' = config := by
    obtain ⟨sectorSize, bootSectorLen, maxLoaderSize, maxImageSize⟩ := config
    obtain ⟨sectorSize', bootSectorLen', maxLoaderSize', maxImageSize'⟩ := config'
    obtain rfl : sectorSize' = sectorSize := hsize .sectorSize
    obtain rfl : bootSectorLen' = bootSectorLen := hsize .bootSectorLen
    obtain rfl : maxLoaderSize' = maxLoaderSize := hsize .maxLoaderSize
    obtain rfl : maxImageSize' = maxImageSize := hsize .maxImageSize
    rfl
  rw [hconfig]

/-! ## Whole command lines -/

/-- A command line is read by taking in what is given. -/
theorem parse_eq_of_line {givens : List Given} {arguments : List String}
    (h : Line givens (arguments.map String.toList)) :
    parse arguments =
      givens.foldlM Draft.take .empty >>= fun final => .ok (.build final.options) :=
  State.words_of_line h ⟨.empty, none⟩

theorem exists_meant {givens : List Given} {arguments : List String}
    (h : Line givens (arguments.map String.toList)) (hdistinct : (givens.map Given.switch).Nodup) :
    ∃ options, parse arguments = .ok (.build options) ∧ Meant givens options := by
  obtain ⟨final, htake, hfinal⟩ := Draft.holds_empty.foldlM hdistinct
  rw [List.nil_append] at hfinal
  refine ⟨final.options, ?_, hfinal.meant⟩
  rw [parse_eq_of_line h, htake]
  rfl

/-- The first option that is given again is refused, whatever stands behind it. -/
theorem parse_again {givens rest : List Given} {again : Given} {arguments : List String}
    (h : Line (givens ++ again :: rest) (arguments.map String.toList))
    (hdistinct : (givens.map Given.switch).Nodup) (hagain : again.switch ∈ givens.map Given.switch) :
    parse arguments = .error (.repeated again.switch) := by
  obtain ⟨draft, htake, hdraft⟩ := Draft.holds_empty.foldlM hdistinct
  rw [List.nil_append] at hdraft
  rw [parse_eq_of_line h, List.foldlM_append, htake]
  simp only [bind, Except.bind, List.foldlM_cons, hdraft.take_again hagain]

/-- A command line that gives each option at most once is accepted, in every order and spelling: what is
given holds, and for all else the defaults, so the order and the spelling make no difference. When words
are appended, the first option that has been given before is refused. -/
theorem parse_line {givens : List Given} {arguments : List String}
    (h : Line givens (arguments.map String.toList)) (hdistinct : (givens.map Given.switch).Nodup) :
    ∃ options, parse arguments = .ok (.build options) ∧ Meant givens options ∧
      (∀ others spelled, others.Perm givens → Line others (spelled.map String.toList) →
        parse spelled = .ok (.build options)) ∧
      ∀ fresh again rest more, ((givens ++ fresh).map Given.switch).Nodup →
        again.switch ∈ (givens ++ fresh).map Given.switch →
        Line (fresh ++ again :: rest) (more.map String.toList) →
          parse (arguments ++ more) = .error (.repeated again.switch) := by
  obtain ⟨options, hparse, hmeant⟩ := exists_meant h hdistinct
  refine ⟨options, hparse, hmeant, ?_, ?_⟩
  · intro others spelled hperm hothers
    obtain ⟨options', hparse', hmeant'⟩ :=
      exists_meant hothers ((hperm.map Given.switch).nodup_iff.2 hdistinct)
    rw [hparse', hmeant.unique hmeant' fun given => hperm.mem_iff]
  · intro fresh again rest more hfresh hagain hmore
    have hline := h.append hmore
    rw [← List.map_append, ← List.append_assoc] at hline
    exact parse_again hline hfresh hagain

/-- Five words for five options, with the kernel under its other name, then in another order and spelling. -/
example : parse ["-qbx", "--sector-size", "+007", "--source=k", "--verify"] =
    parse ["-s", "k", "--verify", "--sector-size=7", "-b=x", "--quiet"] := by decide

end CommandLine

end BootImage
