import HttpFramework.Library.Transition

/-! Runs of a system beside runs of a simpler one. A step of the one is some steps of the other, or
none, and both show the same from outside. -/

namespace Transition

universe u v u' v' w

variable {σ : Type u} {α : Type v} {σ' : Type u'} {α' : Type v'} {β : Type w} {step : σ → α → Option σ} {step' : σ' → α' → Option σ'}

/-- The rule for runs that are runs of something simpler, as long as the system lives. -/
theorem Run.simulated {relation : σ → σ' → Prop} {alive : σ → Prop} {observe : α → List β} {observe' : α' → List β}
    (living : ∀ state action next, step state action = some next → alive state)
    (simulates : ∀ state action next view, relation state view → alive next → step state action = some next →
      ∃ actions' view', Run step' view actions' view' ∧ actions'.flatMap observe' = observe action ∧ relation next view')
    {state final : σ} {actions : List α} {view : σ'} (initial : relation state view) (ran : Run step state actions final)
    (ends : alive final) :
    ∃ actions' view', Run step' view actions' view' ∧ actions'.flatMap observe' = actions.flatMap observe ∧ relation final view' := by
  induction ran generalizing view with
  | nil state => exact ⟨[], view, .nil view, rfl, initial⟩
  | @cons state next final action actions taken rest ih =>
    have lives : alive next := by
      cases rest with
      | nil => exact ends
      | cons taken' _ => exact living _ _ _ taken'
    obtain ⟨first, between, ran', same, related⟩ := simulates _ _ _ _ initial lives taken
    obtain ⟨rest', view', ran'', same', related'⟩ := ih related ends
    refine ⟨first ++ rest', view', ran'.append ran'', ?_, related'⟩
    rw [List.flatMap_append, List.flatMap_cons, same, same']

/-- The rule for the state that a run of allowed actions ends in. -/
theorem Run.invariant_of_allowed {holds : σ → Prop} {allowed : α → Prop}
    (preserves : ∀ state action next, holds state → allowed action → step state action = some next → holds next)
    {state final : σ} {actions : List α} (initial : holds state) (within : ∀ action ∈ actions, allowed action)
    (ran : Run step state actions final) : holds final := by
  induction ran with
  | nil => exact initial
  | cons taken _ ih =>
    exact ih (preserves _ _ _ initial (within _ List.mem_cons_self) taken) fun action member =>
      within action (List.mem_cons_of_mem _ member)

end Transition
