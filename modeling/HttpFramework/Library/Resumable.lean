import HttpFramework.Library.Loop

/-! Loops that consume a queue and may pause for more input. A body is resumable
when none of its decisions changes once more input has arrived, except the
decision to pause. Such a loop cannot tell how its input was cut into pieces. -/

namespace Loop

universe u v w

variable {σ : Type u} {β : Type v} {ρ : Type w}

/-- `paused` gives the place at which a result waits for more input, and `extend`
adds input that arrived after the loop was left to what the result did not use. -/
structure Resumable (body : σ × List β → Pass (σ × List β) ρ)
    (paused : ρ → Option (σ × List β)) (extend : ρ → List β → ρ) : Prop where
  again : ∀ {state next : σ} {input rest : List β} (more : List β),
    body (state, input) = .again (next, rest) → body (state, input ++ more) = .again (next, rest ++ more)
  leave : ∀ {state : σ} {input : List β} {result : ρ} (more : List β),
    body (state, input) = .leave result → paused result = none →
      body (state, input ++ more) = .leave (extend result more)
  pause : ∀ {state : σ} {input : List β} {result : ρ} {place : σ × List β},
    body (state, input) = .leave result → paused result = some place → place = (state, input)

variable {body : σ × List β → Pass (σ × List β) ρ} {paused : ρ → Option (σ × List β)}
  {extend : ρ → List β → ρ}

/-- Input that arrives after the loop has decided is left unread. -/
theorem Resumable.exits_extend (stable : Resumable body paused extend) {place : σ × List β} {result : ρ}
    (exits : Exits body place result) (decided : paused result = none) (more : List β) :
    Exits body (place.1, place.2 ++ more) (extend result more) := by
  induction exits with
  | leave left => exact .leave (stable.leave more left decided)
  | again repeated _ ih => exact .again (stable.again more repeated) (ih decided)

/-- Two places in the input from which every continuation has the same result. -/
def SameFrom (body : σ × List β → Pass (σ × List β) ρ) (first second : σ × List β) : Prop :=
  ∀ more result, Exits body (first.1, first.2 ++ more) result ↔ Exits body (second.1, second.2 ++ more) result

/-- Resuming a paused loop is the same as having had the input at the start. -/
theorem Resumable.sameFrom (stable : Resumable body paused extend) {place waiting : σ × List β}
    {first : ρ} (exits : Exits body place first) (pauses : paused first = some waiting) :
    SameFrom body place waiting := by
  induction exits with
  | leave left =>
    cases stable.pause left pauses
    exact fun _ _ => Iff.rfl
  | again repeated _ ih =>
    intro more result
    refine ⟨fun whole => ?_, fun rest => .again (stable.again more repeated) ((ih pauses more result).mpr rest)⟩
    cases whole with
    | leave left => rw [stable.again more repeated] at left; cases left
    | again repeated' rest =>
      rw [stable.again more repeated] at repeated'
      cases repeated'
      exact (ih pauses more result).mp rest

end Loop
