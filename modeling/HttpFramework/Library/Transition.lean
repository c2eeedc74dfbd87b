import Mathlib.Tactic.Common

/-! Runs of a partial step function. An action that is not enabled has no step.
The rule for exact conditions: when each step is good exactly if a condition on the
state before it holds, a run is good throughout exactly if all of its steps meet the
condition. -/

namespace Transition

universe u v

variable {σ : Type u} {α : Type v} {step : σ → α → Option σ}

/-- A finite run, with the actions taken in order. -/
inductive Run (step : σ → α → Option σ) : σ → List α → σ → Prop where
  | nil (state) : Run step state [] state
  | cons {state next final action actions} (taken : step state action = some next)
      (rest : Run step next actions final) : Run step state (action :: actions) final

/-- A property of every step a run takes, given the state before and after it. -/
inductive Throughout (step : σ → α → Option σ) (property : σ → α → σ → Prop) : σ → List α → Prop where
  | nil (state) : Throughout step property state []
  | cons {state next action actions} (taken : step state action = some next)
      (holds : property state action next) (rest : Throughout step property next actions) :
      Throughout step property state (action :: actions)

variable {property condition : σ → α → σ → Prop}

theorem run_of_progress (invariant : σ → Prop)
    (progress : ∀ state action, invariant state → ∃ next, step state action = some next ∧ invariant next)
    {state : σ} (initial : invariant state) (actions : List α) :
    ∃ final, Run step state actions final ∧ invariant final := by
  induction actions generalizing state with
  | nil => exact ⟨state, .nil state, initial⟩
  | cons action actions ih =>
    obtain ⟨next, taken, kept⟩ := progress state action initial
    obtain ⟨final, rest, holds⟩ := ih kept
    exact ⟨final, .cons taken rest, holds⟩

theorem run_of_foldlM {state final : σ} {actions : List α} (ran : actions.foldlM step state = some final) :
    Run step state actions final := by
  induction actions generalizing state with
  | nil =>
    cases ran
    exact .nil _
  | cons action actions ih =>
    rw [List.foldlM_cons] at ran
    obtain ⟨next, taken, rest⟩ := Option.bind_eq_some_iff.mp ran
    exact .cons taken (ih rest)

/-- A run can be computed, and what it ends in can be checked. -/
theorem run_of_check {check : σ → Bool} {state : σ} {actions : List α}
    (checked : (actions.foldlM step state).any check = true) :
    ∃ final, Run step state actions final ∧ check final = true := by
  cases ran : actions.foldlM step state with
  | none =>
    rw [ran] at checked
    cases checked
  | some final =>
    rw [ran] at checked
    exact ⟨final, run_of_foldlM ran, checked⟩

theorem Run.append {state middle final : σ} {first second : List α} (ran : Run step state first middle)
    (rest : Run step middle second final) : Run step state (first ++ second) final := by
  induction ran with
  | nil => exact rest
  | cons taken _ ih => exact .cons taken (ih rest)

/-- The rule for the state that a run ends in. -/
theorem Run.invariant {holds : σ → Prop}
    (preserves : ∀ state action next, holds state → step state action = some next → holds next)
    {state final : σ} {actions : List α} (initial : holds state) (ran : Run step state actions final) : holds final := by
  induction ran with
  | nil => exact initial
  | cons taken _ ih => exact ih (preserves _ _ _ initial taken)

/-- The rule for runs that come to an end: what is measured bounds their length. -/
theorem Run.length_le {invariant : σ → Prop} {measure : σ → Nat}
    (falls : ∀ state action next, invariant state → step state action = some next →
      invariant next ∧ measure next < measure state)
    {state final : σ} {actions : List α} (initial : invariant state) (ran : Run step state actions final) :
    invariant final ∧ actions.length + measure final ≤ measure state := by
  induction ran with
  | nil state => exact ⟨initial, by simp⟩
  | cons taken _ ih =>
    obtain ⟨kept, less⟩ := falls _ _ _ initial taken
    obtain ⟨holds, most⟩ := ih kept
    refine ⟨holds, ?_⟩
    rw [List.length_cons]
    omega

/-- The rule for the steps that a run takes. -/
theorem Run.throughout {invariant : σ → Prop}
    (preserves : ∀ state action next, invariant state → step state action = some next →
      property state action next ∧ invariant next)
    {state final : σ} {actions : List α} (initial : invariant state) (ran : Run step state actions final) :
    Throughout step property state actions := by
  induction ran with
  | nil state => exact .nil state
  | cons taken _ ih =>
    obtain ⟨holds, kept⟩ := preserves _ _ _ initial taken
    exact .cons taken holds (ih kept)

theorem throughout_cons {state next : σ} {action : α} {actions : List α} (taken : step state action = some next) :
    Throughout step property state (action :: actions) ↔
      property state action next ∧ Throughout step property next actions := by
  refine ⟨fun holds => ?_, fun both => .cons taken both.1 both.2⟩
  cases holds with
  | cons taken' holds rest =>
    cases taken.symm.trans taken'
    exact ⟨holds, rest⟩

/-- The rule for runs that cannot get stuck. -/
theorem throughout_of_progress (invariant : σ → Prop)
    (progress : ∀ state action, invariant state →
      ∃ next, step state action = some next ∧ property state action next ∧ invariant next)
    {state : σ} (initial : invariant state) (actions : List α) : Throughout step property state actions := by
  induction actions generalizing state with
  | nil => exact .nil state
  | cons action actions ih =>
    obtain ⟨next, taken, holds, kept⟩ := progress state action initial
    exact .cons taken holds (ih kept)

/-- The rule for sufficient conditions: the invariant needs to be kept only by steps that
meet the condition. -/
theorem throughout_of_condition (invariant : σ → Prop)
    (preserves : ∀ state action next, invariant state → step state action = some next →
      condition state action next → invariant next)
    (enough : ∀ state action next, invariant state → step state action = some next →
      condition state action next → property state action next)
    {state : σ} {actions : List α} (initial : invariant state) (meets : Throughout step condition state actions) :
    Throughout step property state actions := by
  induction meets with
  | nil state => exact .nil state
  | cons taken holds _ ih =>
    exact .cons taken (enough _ _ _ initial taken holds) (ih (preserves _ _ _ initial taken holds))

/-- The rule for exact conditions. -/
theorem throughout_iff (invariant : σ → Prop)
    (preserves : ∀ state action next, invariant state → step state action = some next →
      condition state action next → invariant next)
    (exact : ∀ state action next, invariant state → step state action = some next →
      (property state action next ↔ condition state action next))
    {state : σ} {actions : List α} (initial : invariant state) :
    Throughout step property state actions ↔ Throughout step condition state actions := by
  constructor
  · apply throughout_of_condition invariant _ _ initial
    · intro state action next holds taken good
      exact preserves _ _ _ holds taken ((exact _ _ _ holds taken).mp good)
    · intro state action next holds taken
      exact (exact _ _ _ holds taken).mp
  · apply throughout_of_condition invariant preserves _ initial
    intro state action next holds taken
    exact (exact _ _ _ holds taken).mpr

end Transition
