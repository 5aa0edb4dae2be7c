import BootImage.Proofs.Workbench.Reached
/-!
# Staging files come and go with their disks

After any steps the files at reserved places are those that were there at the start and one for each
open disk. Other entries differ from the start only where something was published or a directory
was made (`Workbench.Accounted`), and a disk that is given up takes exactly its staging file with it
(`Workbench.staging_discipline`).
-/

namespace BootImage

open FileSystem

namespace Moment

/-- The step published there: a disk by committing it, or an image. -/
def PublishedTo (moment : Moment) (place : Location) : Prop :=
  match moment.step, moment.answer with
  | .commit slot, .done =>
    ∃ disk, moment.bench.disk? slot = some disk ∧
      moment.bench.fs.locate? disk.target = some place
  | .publish output _ _, .published _ => moment.bench.fs.locate? output = some place
  | _, _ => False

/-- The step made a directory there. -/
def MadeDirectory (moment : Moment) (place : Location) : Prop :=
  ∃ path, moment.step = .makeDirectories path ∧
    place ∈ added path.ways moment.bench.fs (moment.bench.fs.makeDirectories path).2

end Moment

namespace Workbench

/-- An open disk is staged there. -/
def StagedAt (bench : Workbench) (place : Location) : Prop :=
  ∃ slot, place ∈ bench.stagedIn slot

theorem StagedAt.entry? {bench : Workbench} {place : Location} (h : bench.StagedAt place) :
    ∃ bytes, bench.fs.entry? place = some (.file bytes) := by
  obtain ⟨slot, disk, -, hs⟩ := h
  exact ⟨_, entry?_of_file hs.node⟩

section

variable {reserved : Set Location} {start : FileSystem} {history : List Moment}
  {bench after : Workbench} {tag : Uuid} {step : Step} {answer : Answer} {slot : Slot} {disk : Disk}
  {place : Location}

theorem Sound.mem_of_stagedAt (h : Sound reserved bench) (hs : bench.StagedAt place) :
    place ∈ reserved := by
  obtain ⟨slot, disk, hopen, hstaged⟩ := hs
  obtain ⟨other, hmem, hother⟩ := h.staged hopen
  exact hstaged.place_eq hother ▸ hmem

/-! ## One step -/

/-- What a step can do to an entry where no disk is staged before or after it. -/
theorem Effect.entry?_cases (he : Effect bench tag step answer after) (h : Sound reserved bench)
    (hbefore : ¬ bench.StagedAt place) (hafter : ¬ after.StagedAt place) :
    after.fs.entry? place = bench.fs.entry? place ∨
      (Moment.PublishedTo ⟨bench, step, answer⟩ place ∧
        ∃ bytes, after.fs.entry? place = some (.file bytes)) ∨
      (Moment.MadeDirectory ⟨bench, step, answer⟩ place ∧
        after.fs.entry? place = some .directory) := by
  cases he with
  | quiet _ _ _ hframe => exact .inl (hframe.sameOutside.entry?_eq place (Set.notMem_empty _))
  | @opened slot _ _ _ disk new _ _ _ _ hdisks hs _ hframe _ =>
    refine .inl (hframe.sameOutside.entry?_eq place ?_)
    rintro (rfl | hgiven)
    · exact hafter ⟨slot, disk, by rw [hdisks, if_pos rfl], hs⟩
    · exact hbefore ⟨slot, hgiven⟩
  | @wrote slot _ _ disk _ hopen _ _ hframe =>
    -- Only the entry of the written file shows the write, and that is where the disk is staged.
    refine .inl (hframe.entry?_eq (Set.notMem_empty _) ?_)
    rintro id rfl hnode
    obtain ⟨other, -, hs⟩ := h.staged hopen
    rw [← node?_inj hnode hs.node] at hs
    exact hbefore ⟨slot, disk, hopen, hs⟩
  | @closed slot _ _ disk gone _ _ hopen hs _ hfs =>
    refine .inl ((hfs ▸ frame_erase hs.node).sameOutside.entry?_eq place ?_)
    rintro rfl
    exact hbefore ⟨slot, disk, hopen, hs⟩
  | @committed slot disk gone goal _ hopen hs hgoal hallowed _ hfs =>
    by_cases hplace : place = goal
    · subst hplace
      refine .inr (.inl ⟨⟨disk, hopen, hgoal⟩, (bench.fs.content disk.file).toList, ?_⟩)
      have hnode : after.fs.node? place = some (.file disk.file) := by
        rw [hfs, node?_move_of_file hs.node hallowed, if_pos rfl]
      rw [entry?_of_file hnode, hfs]
      rfl
    · refine .inl ((hfs ▸ frame_move hs.node hallowed).sameOutside.entry?_eq place ?_)
      rintro (rfl | rfl)
      · exact hbefore ⟨slot, disk, hopen, hs⟩
      · exact hplace rfl
  | @published _ _ _ _ goal bytes _ hgoal _ hframe hentry =>
    by_cases hplace : place = goal
    · subst hplace
      exact .inr (.inl ⟨hgoal, bytes, hentry⟩)
    · exact .inl (hframe.sameOutside.entry?_eq place hplace)
  | @madeDirectories path _ _ _ hfs hgrows =>
    by_cases hplace : place ∈ added path.ways bench.fs after.fs
    · exact .inr (.inr ⟨⟨path, rfl, hfs ▸ hplace⟩, entry?_of_directory hplace.2.1⟩)
    · exact .inl (hgrows.sameOutside.entry?_eq place hplace)

/-- A staging file goes on belonging to its disk, or it is gone. -/
theorem Effect.staged_or_gone (he : Effect bench tag step answer after) (h : Sound reserved bench)
    (hk : step.KeepsOff reserved bench tag) (hs : bench.StagedAt place) :
    after.StagedAt place ∨ after.fs.entry? place = none := by
  have hmem := h.mem_of_stagedAt hs
  obtain ⟨slot, disk, hopen, hstaged⟩ := hs
  have hstays : after.disk? slot = some disk → after.StagedAt place := fun hafter =>
    ⟨slot, disk, hafter, he.staged h hk hopen hafter hmem hstaged⟩
  rw [entry?_eq_none_iff]
  cases he with
  | quiet _ _ hdisks _ => exact .inl (hstays ((hdisks slot).trans hopen))
  | @opened created _ _ _ _ _ _ _ _ _ hdisks _ _ _ hgone =>
    by_cases hslot : slot = created
    · exact .inr (hgone place ⟨disk, hslot ▸ hopen, hstaged⟩)
    · exact .inl (hstays (by rw [hdisks, if_neg hslot, hopen]))
  | wrote _ _ hdisks _ => exact .inl (hstays ((hdisks slot).trans hopen))
  | @closed emptied _ _ disk' gone _ _ hopen' hs' hdisks hfs =>
    by_cases hslot : slot = emptied
    · subst hslot
      rw [hopen] at hopen'
      cases hopen'
      have hplace := hstaged.place_eq hs'
      rw [hfs, node?_erase_of_file hs'.node, if_pos hplace]
      exact .inr rfl
    · exact .inl (hstays (by rw [hdisks, if_neg hslot, hopen]))
  | @committed emptied disk' gone goal _ hopen' hs' hgoal hallowed hdisks hfs =>
    by_cases hslot : slot = emptied
    · subst hslot
      rw [hopen] at hopen'
      cases hopen'
      have hplace := hstaged.place_eq hs'
      -- The place is reserved, so it is not where the disk was published.
      have hne : place ≠ goal := by
        rintro rfl
        exact hk _ _ hopen hgoal hmem
      rw [hfs, node?_move_of_file hs'.node hallowed, if_neg hne, if_pos hplace]
      exact .inr rfl
    · exact .inl (hstays (by rw [hdisks, if_neg hslot, hopen]))
  | published _ hdisks _ _ => exact .inl (hstays ((hdisks slot).trans hopen))
  | madeDirectories hdisks _ _ => exact .inl (hstays ((hdisks slot).trans hopen))

/-! ## A whole run -/

/-- Why an entry is what it is: it was so at the start, it is the staging file of an open disk,
something was published there, or a directory was made there. -/
inductive Accounted (reserved : Set Location) (start : FileSystem) (history : List Moment)
    (bench : Workbench) (place : Location) : Prop
  | same (h : bench.fs.entry? place = start.entry? place)
  | staged (h : bench.StagedAt place)
  | published (hout : place ∉ reserved)
      (hfile : ∃ bytes, bench.fs.entry? place = some (.file bytes))
      (h : ∃ moment ∈ history, moment.PublishedTo place)
  | directory (hstart : start.entry? place = none)
      (hnow : bench.fs.entry? place = some .directory)
      (h : ∃ moment ∈ history, moment.MadeDirectory place)

theorem not_mem_of_publishedTo (hk : step.KeepsOff reserved bench tag)
    (hp : Moment.PublishedTo ⟨bench, step, answer⟩ place) : place ∉ reserved := by
  unfold Moment.PublishedTo at hp
  split at hp
  · rename_i slot hs _
    obtain ⟨disk, hopen, hgoal⟩ := hp
    cases hs
    exact hk disk place hopen hgoal
  · rename_i output _ _ _ hs _
    cases hs
    exact hk place hp
  · exact hp.elim

/-- No file or directory that was there at the start is ever gone. -/
theorem Accounted.vacant (h : Accounted reserved start history bench place)
    (hnone : bench.fs.entry? place = none) : start.entry? place = none := by
  cases h with
  | same h => exact h ▸ hnone
  | staged h =>
    obtain ⟨bytes, hfile⟩ := h.entry?
    rw [hnone] at hfile
    cases hfile
  | published _ hfile _ =>
    obtain ⟨bytes, hfile⟩ := hfile
    rw [hnone] at hfile
    cases hfile
  | directory hstart _ _ => exact hstart

/-- A step keeps every entry accounted for, and staging files in places that were empty. -/
theorem Effect.accounted (he : Effect bench tag step answer after) (h : Sound reserved bench)
    (hk : step.KeepsOff reserved bench tag)
    (ha : ∀ place, Accounted reserved start history bench place)
    (hv : ∀ place, bench.StagedAt place → start.entry? place = none) (place : Location) :
    Accounted reserved start (⟨bench, step, answer⟩ :: history) after place ∧
      (after.StagedAt place → start.entry? place = none) := by
  constructor
  · by_cases hafter : after.StagedAt place
    · exact .staged hafter
    by_cases hbefore : bench.StagedAt place
    · have hgone := (he.staged_or_gone h hk hbefore).resolve_left hafter
      exact .same (hgone.trans (hv place hbefore).symm)
    rcases he.entry?_cases h hbefore hafter with hsame | ⟨hp, hfile⟩ | ⟨hm, hnow⟩
    · cases ha place with
      | same hstart => exact .same (hsame.trans hstart)
      | staged hs => exact absurd hs hbefore
      | published hout hfile hp =>
        obtain ⟨moment, hmem, hp⟩ := hp
        exact .published hout (hsame ▸ hfile) ⟨moment, List.mem_cons_of_mem _ hmem, hp⟩
      | directory hstart hnow hm =>
        obtain ⟨moment, hmem, hm⟩ := hm
        exact .directory hstart (hsame ▸ hnow) ⟨moment, List.mem_cons_of_mem _ hmem, hm⟩
    · exact .published (not_mem_of_publishedTo hk hp) hfile ⟨_, List.mem_cons_self, hp⟩
    · have hnone : bench.fs.entry? place = none := by
        obtain ⟨path, -, hvacant, -⟩ := hm
        exact entry?_eq_none_iff.2 hvacant
      exact .directory ((ha place).vacant hnone) hnow ⟨_, List.mem_cons_self, hm⟩
  · -- A new disk needs an empty entry, and an entry that is empty now was empty at the start.
    rintro ⟨slot, disk, hopen, hs⟩
    rcases he.open_cases hopen with hopened | ⟨new, ho⟩
    · obtain ⟨other, hmem, hother⟩ := h.staged hopened
      have hplace := hs.place_eq (he.staged h hk hopened hopen hmem hother)
      exact hv place ⟨slot, disk, hopened, hplace ▸ hother⟩
    · have hplace := hs.place_eq ho.staged
      exact (ha place).vacant (entry?_eq_none_iff.2 (hplace ▸ ho.vacant))

theorem Reached.accounted (h : Reached reserved start history bench) :
    ∀ place, Accounted reserved start history bench place ∧
      (bench.StagedAt place → start.entry? place = none) := by
  induction h with
  | start =>
    intro place
    refine ⟨.same rfl, ?_⟩
    rintro ⟨slot, disk, hopen, -⟩
    cases hopen
  | step h tag step hk hstep ih =>
    exact (effect_of_step h.sound hstep).accounted h.sound hk (fun place => (ih place).1)
      fun place => (ih place).2

/-- What opening, committing and giving up the disk in a slot leave behind. -/
structure Tidy (bench : Workbench) (slot : Slot) : Prop where
  create_refused : ∀ tag target sectorSize sectorCount failure after,
    bench.step tag (.create slot target sectorSize sectorCount) = (.refused failure, after) →
      SameOutside ∅ bench.fs after.fs ∧ ∀ other, after.disk? other = bench.disk? other
  /-- The disk that was in the slot is given up. -/
  create_done : ∀ tag target sectorSize sectorCount after,
    bench.step tag (.create slot target sectorSize sectorCount) = (.done, after) →
      ∃ place, bench.fs.locate? (target.staging tag) = some place ∧
        SameOutside (insert place (bench.stagedIn slot)) bench.fs after.fs ∧
        (∀ old ∈ bench.stagedIn slot, after.fs.entry? old = none) ∧
        ∀ other, other ≠ slot → after.disk? other = bench.disk? other
  given_up : ∀ tag step answer after, step = .discard slot ∨ step = .commit slot ∧ answer ≠ .done →
    bench.step tag step = (answer, after) →
      SameOutside (bench.stagedIn slot) bench.fs after.fs ∧
        ∀ old ∈ bench.stagedIn slot, after.fs.entry? old = none
  closed : ∀ tag step answer after, step = .discard slot ∨ step = .commit slot →
    bench.step tag step = (answer, after) →
      ∀ other, after.disk? other = if other = slot then none else bench.disk? other

theorem slot_eq (h : step = .discard slot ∨ step = .commit slot)
    {other : Slot} (h' : step = .discard other ∨ step = .commit other) : slot = other := by
  rcases h with rfl | rfl <;> rcases h' with h' | h' <;> cases h' <;> rfl

theorem Sound.tidy (h : Sound reserved bench) (slot : Slot) : Tidy bench slot where
  create_refused := by
    intro tag target sectorSize sectorCount failure after hstep
    cases effect_of_create h hstep with
    | quiet _ _ hdisks hframe => exact ⟨hframe.sameOutside, hdisks⟩
    | closed hasked => rcases hasked with hs | ⟨hs, -⟩ <;> cases hs
  create_done := by
    intro tag target sectorSize sectorCount after hstep
    cases effect_of_create h hstep with
    | quiet hdone =>
      obtain ⟨_, _, hs⟩ := hdone rfl
      cases hs
    | opened _ hlocate _ hdisks _ _ hframe hgone =>
      refine ⟨_, hlocate, hframe.sameOutside, fun old hold => entry?_eq_none_iff.2 (hgone old hold),
        fun other hother => ?_⟩
      rw [hdisks, if_neg hother]
    | closed hasked => rcases hasked with hs | ⟨hs, -⟩ <;> cases hs
  given_up := by
    intro tag step answer after hasked hstep
    have hslot : step = .discard slot ∨ step = .commit slot := hasked.imp_right And.left
    cases effect_of_step h hstep with
    | quiet _ hempty _ hframe =>
      rw [stagedIn_eq_empty (hempty slot hslot)]
      exact ⟨hframe.sameOutside, by simp⟩
    | closed hclosed hopen hs _ hfs =>
      have heq := slot_eq hslot (hclosed.imp_right And.left)
      rw [heq, stagedIn_eq hopen hs, hfs]
      refine ⟨(frame_erase hs.node).sameOutside, ?_⟩
      rintro old rfl
      rw [entry?_eq_none_iff, node?_erase_of_file hs.node, if_pos rfl]
    | committed =>
      rcases hasked with hs | ⟨-, hne⟩
      · cases hs
      · exact absurd rfl hne
    | opened => simp at hslot
    | wrote => simp at hslot
    | published => simp at hslot
    | madeDirectories => simp at hslot
  closed := by
    intro tag step answer after hslot hstep
    cases effect_of_step h hstep with
    | quiet _ hempty hdisks _ =>
      intro other
      rw [hdisks]
      by_cases hother : other = slot
      · rw [if_pos hother, hother, hempty slot hslot]
      · rw [if_neg hother]
    | closed hclosed _ _ hdisks _ =>
      rw [slot_eq hslot (hclosed.imp_right And.left)]
      exact hdisks
    | committed _ _ _ _ hdisks _ =>
      rw [slot_eq hslot (.inr rfl)]
      exact hdisks
    | opened => simp at hslot
    | wrote => simp at hslot
    | published => simp at hslot
    | madeDirectories => simp at hslot

/-! ## What follows -/

theorem Reached.stagedAt_iff (h : Reached reserved start history bench) (hmem : place ∈ reserved) :
    bench.StagedAt place ↔
      start.entry? place = none ∧ ∃ bytes, bench.fs.entry? place = some (.file bytes) := by
  constructor
  · intro hs
    exact ⟨(h.accounted place).2 hs, hs.entry?⟩
  · rintro ⟨hstart, bytes, hfile⟩
    cases (h.accounted place).1 with
    | same hsame =>
      rw [hsame, hstart] at hfile
      cases hfile
    | staged hs => exact hs
    | published hout _ _ => exact absurd hmem hout
    | directory _ hnow _ =>
      rw [hnow] at hfile
      cases hfile

/-- The staging file of an open disk has the disk's own staging path and is no other disk's. -/
theorem Sound.own_staging (h : Sound reserved bench) (hopen : bench.disk? slot = some disk) :
    ∃ tag place, disk.staging = disk.target.staging tag ∧
      bench.fs.locate? disk.staging = some place ∧ place ∈ reserved ∧
      ∀ other, place ∈ bench.stagedIn other ↔ other = slot := by
  obtain ⟨tag, htag⟩ := h.named hopen
  obtain ⟨place, hmem, hs⟩ := h.staged hopen
  refine ⟨tag, place, htag, hs.locate, hmem, fun other => ⟨?_, ?_⟩⟩
  · rintro ⟨disk', hopen', hs'⟩
    exact h.place_inj hopen' hopen hs' hs
  · rintro rfl
    exact ⟨disk, hopen, hs⟩

/-- Away from the reserved places a step changes only what it publishes and the directories it
makes. -/
theorem Effect.entry?_outside (he : Effect bench tag step answer after) (h : Sound reserved bench)
    (hk : step.KeepsOff reserved bench tag) (hout : place ∉ reserved) :
    after.fs.entry? place = bench.fs.entry? place ∨
      Moment.PublishedTo ⟨bench, step, answer⟩ place ∨
      Moment.MadeDirectory ⟨bench, step, answer⟩ place := by
  have hbefore : ¬ bench.StagedAt place := fun hs => hout (h.mem_of_stagedAt hs)
  have hafter : ¬ after.StagedAt place := fun hs => hout ((h.effect hk he).mem_of_stagedAt hs)
  rcases he.entry?_cases h hbefore hafter with hsame | ⟨hp, -⟩ | ⟨hm, -⟩
  · exact .inl hsame
  · exact .inr (.inl hp)
  · exact .inr (.inr hm)

theorem Reached.entry?_of_closed (h : Reached reserved start history bench)
    (hclosed : ∀ slot, bench.disk? slot = none) (hmem : place ∈ reserved) {bytes : List UInt8}
    (hfile : bench.fs.entry? place = some (.file bytes)) :
    start.entry? place = some (.file bytes) := by
  cases (h.accounted place).1 with
  | same hsame => exact hsame ▸ hfile
  | staged hs =>
    obtain ⟨slot, disk, hopen, -⟩ := hs
    rw [hclosed slot] at hopen
    cases hopen
  | published hout _ _ => exact absurd hmem hout
  | directory _ hnow _ =>
    rw [hnow] at hfile
    cases hfile

theorem Reached.entry?_of_untouched (h : Reached reserved start history bench)
    (hout : place ∉ reserved)
    (hnever : ∀ moment ∈ history, ¬ moment.PublishedTo place ∧ ¬ moment.MadeDirectory place) :
    bench.fs.entry? place = start.entry? place := by
  cases (h.accounted place).1 with
  | same hsame => exact hsame
  | staged hs => exact absurd (h.sound.mem_of_stagedAt hs) hout
  | published _ _ hp =>
    obtain ⟨moment, hmem, hp⟩ := hp
    exact absurd hp (hnever moment hmem).1
  | directory _ _ hm =>
    obtain ⟨moment, hmem, hm⟩ := hm
    exact absurd hm (hnever moment hmem).2

/-- After any steps: the files at reserved places that were not there at the start are the staging
files of the open disks, one for each, under its own staging path. Every other entry is as it was at
the start, or something was published there, or a directory was made there, and no step changes an
entry in another way. A disk that cannot be opened leaves nothing, one that is given up or whose
commit is refused takes its staging file with it and nothing else, and a commit always empties its
slot; so without open disks no staging file is left, and what was never published to is untouched. -/
theorem staging_discipline (h : Reached reserved start history bench) :
    (∀ place ∈ reserved, bench.StagedAt place ↔
      start.entry? place = none ∧ ∃ bytes, bench.fs.entry? place = some (.file bytes)) ∧
    (∀ slot disk, bench.disk? slot = some disk → ∃ tag place,
      disk.staging = disk.target.staging tag ∧ bench.fs.locate? disk.staging = some place ∧
        place ∈ reserved ∧ ∀ other, place ∈ bench.stagedIn other ↔ other = slot) ∧
    (∀ place, Accounted reserved start history bench place) ∧
    (∀ tag step answer after place, step.KeepsOff reserved bench tag →
      bench.step tag step = (answer, after) → place ∉ reserved →
        after.fs.entry? place = bench.fs.entry? place ∨
          Moment.PublishedTo ⟨bench, step, answer⟩ place ∨
          Moment.MadeDirectory ⟨bench, step, answer⟩ place) ∧
    (∀ slot, Tidy bench slot) ∧
    ((∀ slot, bench.disk? slot = none) → ∀ place ∈ reserved, ∀ bytes,
      bench.fs.entry? place = some (.file bytes) → start.entry? place = some (.file bytes)) ∧
    (∀ place ∉ reserved,
      (∀ moment ∈ history, ¬ moment.PublishedTo place ∧ ¬ moment.MadeDirectory place) →
        bench.fs.entry? place = start.entry? place) := by
  have hsound := h.sound
  refine ⟨fun place hmem => h.stagedAt_iff hmem, fun slot disk hopen => hsound.own_staging hopen,
    fun place => (h.accounted place).1, ?_, hsound.tidy, ?_, ?_⟩
  · intro tag step answer after place hk hstep hout
    exact (effect_of_step hsound hstep).entry?_outside hsound hk hout
  · intro hclosed place hmem bytes hfile
    exact h.entry?_of_closed hclosed hmem hfile
  · intro place hout hnever
    exact h.entry?_of_untouched hout hnever

/-- Two disks for one target, of which the first is committed: its staging file has become the
target, and the other's is still there. -/
theorem staging_discipline_one_committed :
    ∃ (reserved : Set Location) (history : List Moment) (bench : Workbench) (place : Location),
      Reached reserved (.empty []) history bench ∧ bench.disk? "a" = none ∧
        bench.fs.readAll ⟨['t']⟩ = .ok [0, 0, 5, 6] ∧ place ∈ bench.stagedIn "b" ∧
        FileSystem.entry? (.empty []) place = none ∧
        (∃ bytes, bench.fs.entry? place = some (.file bytes)) ∧ Tidy bench "b" := by
  have h1 := (@Reached.start {place | place ≠ [['t']]} (.empty [])).step (.ofRandom 0)
    (.create "a" ⟨['t']⟩ 2 2) (by rintro place h; cases h; decide) rfl
  have h2 := h1.step (.ofRandom 1) (.create "b" ⟨['t']⟩ 2 3) (by rintro place h; cases h; decide) rfl
  have h3 := h2.step (.ofRandom 2) (.write "a" 1 [5, 6]) trivial rfl
  have h4 := h3.step (.ofRandom 2) (.commit "a")
    (by rintro disk goal hdisk hgoal hne; cases hdisk; cases hgoal; exact hne rfl) rfl
  obtain ⟨hfiles, howned, -, -, htidy, -⟩ := staging_discipline h4
  obtain ⟨tag, place, -, -, hmem, hown⟩ := howned "b" _ rfl
  have hin := (hown "b").2 rfl
  obtain ⟨hstart, hfile⟩ := (hfiles place hmem).1 ⟨"b", hin⟩
  exact ⟨_, _, _, place, h4, rfl, rfl, hin, hstart, hfile, htidy "b"⟩

end

end Workbench

end BootImage
