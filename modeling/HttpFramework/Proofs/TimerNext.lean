import HttpFramework.Proofs.TimerTick

/-! The value of `getNextTick`. Its test of the heap is the wrong way round: with a timer left it
is always -1, and without one the front of an empty heap is read. -/

namespace HttpFramework.Code.Timer
open Transition

variable {β : Type}

/-- Each pass of `tick` but the last removes a node. -/
theorem tickLoop_returns (now : Nat → Int) {passes : Nat} (reading : Nat) {timer : Timer β}
    (enough : timer.heap.length ≤ passes) : ∃ fired left, tickLoop now passes reading timer = some (fired, left) := by
  induction passes generalizing reading timer with
  | zero =>
    have empty : timer.heap = [] := List.eq_nil_of_length_eq_zero (Nat.le_zero.mp enough)
    exact ⟨[], timer, by rw [tickLoop.eq_def]; simp [empty]⟩
  | succ passes ih =>
    cases heap : timer.heap with
    | nil => exact ⟨[], timer, by rw [tickLoop.eq_def]; simp [heap]⟩
    | cons node rest =>
      by_cases waiting : 0 < node.remaining (now reading)
      · exact ⟨[], timer, by rw [tickLoop.eq_def]; simp [heap, waiting]⟩
      · obtain ⟨victim, popped, _, deleted, perm, _⟩ := @del_spec _ timer 0 (by rw [heap]; exact Nat.succ_pos _)
        have length := perm.length_eq
        rw [List.length_cons] at length
        obtain ⟨fired, left, looped⟩ := @ih (reading + 1) popped (by omega)
        exact ⟨node :: fired, left, by rw [tickLoop.eq_def]; simp [heap, waiting, pop, deleted, looped]⟩

theorem tick_returns (now : Nat → Int) (timer : Timer β) : ∃ fired left, timer.tick now = some (fired, left) :=
  tickLoop_returns now 0 (Nat.le_refl _)

/-- What `getNextTick` does once the expired timers are fired. -/
theorem getNextTick_of_tick {now : Nat → Int} {timer left : Timer β} {fired : List (TimerNode β)}
    (ticked : timer.tick now = some (fired, left)) (later : Int) :
    timer.getNextTick now later = if left.heap = [] then none else some (-1, fired, left) := by
  by_cases empty : left.heap = []
  · simp [getNextTick, ticked, empty]
  · simp [getNextTick, ticked, empty]

/-- It returns -1 exactly when no timer is left, and otherwise the whole milliseconds to the
earliest expiry. -/
def TellsNext (timer : Timer β) (now : Nat → Int) (later : Int) : Prop :=
  ∃ value fired left, timer.getNextTick now later = some (value, fired, left) ∧ (value = -1 ↔ left.heap = []) ∧
    ∀ node ∈ left.heap, (∀ other ∈ left.heap, node.expires ≤ other.expires) → value = max 0 (node.remaining later)

/-- No timer in any state tells the time to its next expiry, whatever the clock shows. -/
theorem getNextTick_never_tells (timer : Timer β) (now : Nat → Int) (later : Int) : ¬ timer.TellsNext now later := by
  obtain ⟨fired, left, ticked⟩ := timer.tick_returns now
  rintro ⟨value, fired', left', told, tells, _⟩
  rw [getNextTick_of_tick ticked] at told
  split at told
  next empty => cases told
  next waiting =>
    obtain ⟨rfl, rfl, rfl⟩ := Option.some_inj.mp told
    exact waiting (tells.mp rfl)

/-- With one timer of 10 ms that has not expired -1 is returned, and with none the front of an
empty heap is read. -/
theorem getNextTick_inverted :
    ¬ ∀ (calls : List (Call Unit)) (timer : Timer Unit), Run step {} calls timer → ∀ now later, timer.TellsNext now later := by
  intro holds
  have added : Run step ({} : Timer Unit) [.add 1 10 () 0] ⟨[⟨1, 10000000, ()⟩], Function.update (fun _ => none) 1 (some 0)⟩ :=
    .cons (by rfl) (.nil _)
  obtain ⟨value, fired, left, told, tells, _⟩ := holds _ _ added (fun _ => 0) 0
  have minus : some (value, fired, left) = some (-1, [], _) := told.symm.trans (by rfl)
  cases minus
  cases tells.mp rfl

end HttpFramework.Code.Timer
