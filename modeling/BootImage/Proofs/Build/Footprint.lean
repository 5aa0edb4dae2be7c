import BootImage.Proofs.Build.Failure
import BootImage.Proofs.Build.Promise
/-!
# The footprint of a build

A build may change two entries, the ones where its output and its record lead, whether it succeeds or not.
Its staging file is gone when it ends. The output is never half an image.
-/

namespace BootImage

open FileSystem

namespace Build

variable {options : Options} {tag : Uuid} {before : FileSystem}
variable {boot : List UInt8} {kernel : Option (List UInt8)} {image : Image}

/-- Where the record goes. -/
def recordPlaces (options : Options) (before : FileSystem) : Set Location :=
  {place | ∃ path, options.layout = some path ∧ before.locate? path = some place}

/-- Whatever comes of a build, it has changed nothing but the output and the record. No staging file is
left, and if the record goes elsewhere, the output is as it was or holds the whole image. -/
structure Footprint (options : Options) (tag : Uuid) (before after : FileSystem) : Prop where
  elsewhere : SameOutside
    ({place | before.locate? options.output = some place} ∪ recordPlaces options before) before after
  staging : ∀ staged, before.locate? (options.output.staging tag) = some staged →
    staged ∉ recordPlaces options before → after.entry? staged = before.entry? staged
  output : ∀ goal, before.locate? options.output = some goal →
    goal ∉ recordPlaces options before →
      after.entry? goal = before.entry? goal ∨ ∃ boot kernel image,
        Prepared options before boot kernel image ∧ after.entry? goal = some (.file image.bytes)

theorem footprint_of_sameOutside {after : FileSystem} (h : SameOutside ∅ before after) :
    Footprint options tag before after where
  elsewhere := h.mono (Set.empty_subset _)
  staging staged _ _ := h.entry?_eq staged (Set.notMem_empty _)
  output goal _ _ := .inl (h.entry?_eq goal (Set.notMem_empty _))

theorem Prepared.footprint {goal : Location} {after : FileSystem}
    (h : Prepared options before boot kernel image)
    (hgoal : before.locate? options.output = some goal)
    (hreplaced : Replaced goal image.bytes before after) : Footprint options tag before after where
  elsewhere := hreplaced.sameOutside.mono (Set.singleton_subset_iff.2 (.inl hgoal))
  staging staged hstaged _ := hreplaced.sameOutside.entry?_eq staged (staging_ne_target hstaged hgoal)
  output other hother _ := by
    obtain rfl : goal = other := Option.some.inj (hgoal.symm.trans hother)
    exact .inr ⟨boot, kernel, image, h, hreplaced.holds⟩

theorem Footprint.record {published after : FileSystem} {place : Location}
    (h : Footprint options tag before published) (hplace : place ∈ recordPlaces options before)
    (hrecord : SameOutside {place} published after) : Footprint options tag before after := by
  have hsame : ∀ other, other ∉ recordPlaces options before →
      after.entry? other = published.entry? other := by
    intro other hother
    refine hrecord.entry?_eq other fun e => hother ?_
    rw [Set.mem_singleton_iff.1 e]
    exact hplace
  exact {
    elsewhere := {
      home := hrecord.home.trans h.elsewhere.home
      entry?_eq := fun other hother =>
        (hsame other fun e => hother (.inr e)).trans (h.elsewhere.entry?_eq other hother)
    }
    staging := fun staged hstaged hother =>
      (hsame staged hother).trans (h.staging staged hstaged hother)
    output := fun goal hgoal hother => by
      rw [hsame goal hother]
      exact h.output goal hgoal hother
  }

theorem footprint_of_run (options : Options) (tag : Uuid) (before : FileSystem) :
    Footprint options tag before (run options tag before).fs := by
  cases hresult : (run options tag before).result with
  | error failure =>
    rcases unchanged_or_unrecorded hresult with ⟨-, hsame⟩ | ⟨image, goal, hu, hgoal, hreplaced⟩
    · exact footprint_of_sameOutside hsame
    · obtain ⟨boot, kernel, hprepared⟩ := hu.prepared
      exact hprepared.footprint hgoal hreplaced
  | ok report =>
    obtain ⟨boot, kernel, image, goal, published, hprepared, hgoal, hreplaced, hlast⟩ :=
      replaced_of_ok hresult
    have hpublished : Footprint options tag before published := hprepared.footprint hgoal hreplaced
    rcases hlast with ⟨-, hfs⟩ | ⟨path, place, hpath, hplace, hrecord⟩
    · exact hfs ▸ hpublished
    · exact hpublished.record ⟨path, hpath, hplace⟩ hrecord.sameOutside

end Build

end BootImage
