import Mathlib.Tactic.Common

/-! A list of owners kept beside the places that they hold. The list mirrors the places when it
has exactly the owners who hold some place. Three changes are considered, with what is needed
that the list still does so: a place passes to another owner, a place is released, and holders
lapse. -/

namespace Holders

universe u v

variable {Place : Type u} {Owner : Type v} {listed listed' : Owner → Prop} {holds holds' : Place → Owner → Prop}
  {place : Place} {owner : Owner}

def Mirrors (listed : Owner → Prop) (holds : Place → Owner → Prop) : Prop :=
  ∀ owner, listed owner ↔ ∃ place, holds place owner

theorem Mirrors.congr (mirrors : Mirrors listed holds) (same : ∀ owner, listed' owner ↔ listed owner)
    (same' : ∀ place owner, holds' place owner ↔ holds place owner) : Mirrors listed' holds' := by
  intro owner
  simp only [same, same', mirrors owner]

/-- The former owner of the place must hold another. -/
theorem Mirrors.assign_iff (mirrors : Mirrors listed holds) (added : ∀ other, listed' other ↔ other = owner ∨ listed other)
    (assigned : ∀ elsewhere other,
      holds' elsewhere other ↔ elsewhere = place ∧ other = owner ∨ elsewhere ≠ place ∧ holds elsewhere other) :
    Mirrors listed' holds' ↔
      ∀ other, other ≠ owner → holds place other → ∃ elsewhere, elsewhere ≠ place ∧ holds elsewhere other := by
  constructor
  · intro mirrors' other different former
    obtain ⟨elsewhere, there⟩ := (mirrors' other).mp ((added other).mpr (.inr ((mirrors other).mpr ⟨place, former⟩)))
    rcases (assigned elsewhere other).mp there with ⟨_, same⟩ | kept
    · exact absurd same different
    · exact ⟨elsewhere, kept⟩
  · intro another other
    rw [added]
    constructor
    · intro listing
      by_cases same : other = owner
      · exact ⟨place, (assigned place other).mpr (.inl ⟨rfl, same⟩)⟩
      · obtain ⟨elsewhere, there⟩ := (mirrors other).mp (listing.resolve_left same)
        by_cases moved : elsewhere = place
        · subst moved
          obtain ⟨elsewhere', kept⟩ := another other same there
          exact ⟨elsewhere', (assigned elsewhere' other).mpr (.inr kept)⟩
        · exact ⟨elsewhere, (assigned elsewhere other).mpr (.inr ⟨moved, there⟩)⟩
    · rintro ⟨elsewhere, there⟩
      rcases (assigned elsewhere other).mp there with ⟨_, same⟩ | ⟨_, there⟩
      · exact .inl same
      · exact .inr ((mirrors other).mpr ⟨elsewhere, there⟩)

/-- The owner must be listed afterwards exactly when there is another place. -/
theorem Mirrors.release_iff (mirrors : Mirrors listed holds) (only : ∀ other, holds place other → other = owner)
    (kept : ∀ other, other ≠ owner → (listed' other ↔ listed other))
    (released : ∀ elsewhere other, holds' elsewhere other ↔ elsewhere ≠ place ∧ holds elsewhere other) :
    Mirrors listed' holds' ↔ (listed' owner ↔ ∃ elsewhere, elsewhere ≠ place ∧ holds elsewhere owner) := by
  have places (other : Owner) :
      (∃ elsewhere, holds' elsewhere other) ↔ ∃ elsewhere, elsewhere ≠ place ∧ holds elsewhere other := by
    simp only [released]
  constructor
  · intro mirrors'
    rw [mirrors' owner, places]
  · intro right other
    rw [places]
    by_cases same : other = owner
    · subst same
      exact right
    · rw [kept other same, mirrors other]
      constructor
      · rintro ⟨elsewhere, there⟩
        refine ⟨elsewhere, ?_, there⟩
        rintro rfl
        exact same (only other there)
      · rintro ⟨elsewhere, _, there⟩
        exact ⟨elsewhere, there⟩

theorem Mirrors.lapse_iff (mirrors : Mirrors listed holds) (fewer : ∀ place owner, holds' place owner → holds place owner) :
    Mirrors listed holds' ↔ ∀ owner, (∃ place, holds place owner) → ∃ place, holds' place owner := by
  constructor
  · intro mirrors' owner held
    exact (mirrors' owner).mp ((mirrors owner).mpr held)
  · intro still owner
    rw [mirrors owner]
    refine ⟨still owner, ?_⟩
    rintro ⟨place, there⟩
    exact ⟨place, fewer place owner there⟩

end Holders
