import HttpFramework.Code.BlockDeque
import HttpFramework.Library.Ledger
import HttpFramework.Library.Transition

/-! The items of `BlockDeque`. What happens to the deque at a step is one event or none, and the
events are those of a queue with two ends that keeps account of its items. -/

namespace HttpFramework.Code
open Transition

universe u

variable {α : Type u}

namespace BlockDeque

variable {deque next : BlockDeque α} {action : Action α} {thread capacity : Nat} {phase : Phase α}

/-- The thread is in the section of `clear` or of `Close` that empties the deque. -/
def Empties (deque : BlockDeque α) (thread : Nat) : Prop :=
  deque.threads[thread]? = some .clear ∨ deque.threads[thread]? = some .close

/-- What a step does to the deque. -/
inductive Move (deque next : BlockDeque α) : Prop where
  | stay (same : next.deq = deque.deq) (quiet : next.history = deque.history)
  | push (front : Bool) (item : α) (room : deque.deq.length < deque.capacity)
      (put : next.deq = if front then item :: deque.deq else deque.deq ++ [item])
      (told : next.history = deque.history ++ [.pushed front item])
  | pop (item : α) (front : deque.deq = item :: next.deq) (told : next.history = deque.history ++ [.popped item])
  | empty (thread : Nat) (own : deque.Empties thread) (none : next.deq = []) (told : next.history = deque.history ++ [.cleared])

theorem popLoop_move {timed : Bool} {chosen : Option Nat} (taken : deque.popLoop thread timed chosen = some next) :
    Move deque next ∧ next.capacity = deque.capacity := by
  unfold popLoop at taken
  split at taken
  next =>
    cases taken
    exact ⟨.stay rfl rfl, rfl⟩
  next item rest front =>
    obtain ⟨threads, -, same⟩ := Option.bind_eq_some_iff.mp taken
    cases same
    exact ⟨.pop item front rfl, rfl⟩

theorem pushLoop_move {front : Bool} {item : α} {chosen : Option Nat} (taken : deque.pushLoop thread front item chosen = some next) :
    Move deque next ∧ next.capacity = deque.capacity := by
  unfold pushLoop at taken
  split at taken
  next =>
    cases taken
    exact ⟨.stay rfl rfl, rfl⟩
  next room =>
    obtain ⟨threads, -, same⟩ := Option.bind_eq_some_iff.mp taken
    cases same
    exact ⟨.push front item (Nat.not_le.mp room) rfl rfl, rfl⟩

theorem run_move {chosen : Option Nat} (there : deque.threads[thread]? = some phase)
    (taken : deque.run thread chosen phase = some next) : Move deque next ∧ next.capacity = deque.capacity := by
  cases phase with
  | idle | popWaiting timed | pushWaiting front item => cases taken
  | pop timed => exact popLoop_move taken
  | popWoken timed timedOut =>
    rw [run] at taken
    split at taken
    · cases taken
      exact ⟨.stay rfl rfl, rfl⟩
    · exact popLoop_move taken
  | push front item => exact pushLoop_move taken
  | clear =>
    cases taken
    exact ⟨.empty thread (.inl there) rfl rfl, rfl⟩
  | flush =>
    obtain ⟨threads, -, same⟩ := Option.bind_eq_some_iff.mp taken
    cases same
    exact ⟨.stay rfl rfl, rfl⟩
  | close =>
    cases taken
    exact ⟨.empty thread (.inr there) rfl rfl, rfl⟩
  | closeProducers | closeConsumers =>
    cases taken
    exact ⟨.stay rfl rfl, rfl⟩

theorem step_move (taken : deque.step action = some next) : Move deque next ∧ next.capacity = deque.capacity := by
  cases action with
  | call thread op =>
    rw [step] at taken
    split at taken
    · cases taken
      exact ⟨.stay rfl rfl, rfl⟩
    · cases taken
  | run thread chosen =>
    obtain ⟨phase, there, taken⟩ := Option.bind_eq_some_iff.mp taken
    exact run_move there taken
  | wake thread =>
    obtain ⟨phase, there, taken⟩ := Option.bind_eq_some_iff.mp taken
    split at taken
    · cases taken
      exact ⟨.stay rfl rfl, rfl⟩
    · cases taken
  | timeout thread =>
    rw [step] at taken
    split at taken
    · cases taken
      exact ⟨.stay rfl rfl, rfl⟩
    · cases taken

end BlockDeque

/-- The account of the items that the events leave. What is popped is at the front then. -/
inductive Follows : List (Event α) → Ledger α → Prop where
  | nil : Follows [] {}
  | pushed {history ledger} (front : Bool) (item : α) (rest : Follows history ledger) :
      Follows (history ++ [.pushed front item]) (ledger.put front item)
  | popped {history ledger number item later} (rest : Follows history ledger) (front : ledger.queue = (number, item) :: later) :
      Follows (history ++ [.popped item]) ledger.take
  | cleared {history ledger} (rest : Follows history ledger) : Follows (history ++ [.cleared]) ledger.drop

theorem Follows.accounted {history : List (Event α)} {ledger : Ledger α} (follows : Follows history ledger) : ledger.Accounted := by
  induction follows with
  | nil => exact Ledger.accounted_empty
  | pushed front item _ ih => exact ih.put front item
  | popped _ _ ih => exact ih.take
  | cleared _ ih => exact ih.drop

namespace BlockDeque

/-- The deque has what the account of its events has, and never more than its capacity. -/
structure Kept (capacity : Nat) (deque : BlockDeque α) : Prop where
  same : deque.capacity = capacity
  bounded : deque.deq.length ≤ capacity
  ledger : ∃ ledger, Follows deque.history ledger ∧ ledger.items = deque.deq

theorem kept_new (capacity threads : Nat) : Kept capacity (new capacity threads : BlockDeque α) :=
  ⟨rfl, Nat.zero_le _, {}, .nil, rfl⟩

variable {deque next : BlockDeque α} {action : Action α} {capacity : Nat}

theorem Kept.step (kept : Kept capacity deque) (taken : deque.step action = some next) : Kept capacity next := by
  obtain ⟨move, unchanged⟩ := step_move taken
  have same := unchanged.trans kept.same
  obtain ⟨ledger, follows, items⟩ := kept.ledger
  have bounded := kept.bounded
  cases move with
  | stay stays quiet => exact ⟨same, stays ▸ bounded, ledger, quiet ▸ follows, items.trans stays.symm⟩
  | push front item room put told =>
    rw [kept.same] at room
    refine ⟨same, ?_, ledger.put front item, told ▸ follows.pushed front item, ?_⟩
    · rw [put]
      cases front <;> simp <;> omega
    · rw [put, ← items]
      cases front <;> simp
  | pop item front told =>
    obtain ⟨⟨number, first⟩, later, queue, shown, rest⟩ := List.map_eq_cons_iff.mp (items.trans front)
    cases shown
    rw [front, List.length_cons] at bounded
    refine ⟨same, Nat.le_of_succ_le bounded, ledger.take, told ▸ follows.popped queue, ?_⟩
    rw [Ledger.take_eq queue]
    exact rest
  | empty thread _ none told =>
    refine ⟨same, ?_, ledger.drop, told ▸ follows.cleared, none.symm⟩
    rw [none]
    exact Nat.zero_le _

/-- In every run each item that has been put in is in the deque still, has been popped once, or has
been dropped by `clear` or `Close`. -/
theorem deque_accounted {threads : Nat} {actions : List (Action α)} {final : BlockDeque α}
    (ran : Run step (new capacity threads) actions final) :
    Throughout step (fun deque _ next => Move deque next) (new capacity threads) actions ∧ final.deq.length ≤ capacity ∧
      ∃ ledger : Ledger α, Follows final.history ledger ∧ ledger.items = final.deq ∧ ledger.Accounted ∧
        (ledger.taken.map Prod.fst).Nodup := by
  have moves : Throughout step (fun deque _ next => Move deque next) (new capacity threads) actions :=
    ran.throughout (fun _ _ _ (kept : Kept capacity _) taken => ⟨(step_move taken).1, kept.step taken⟩) (kept_new capacity threads)
  have kept : Kept capacity final := ran.invariant (fun _ _ _ kept taken => kept.step taken) (kept_new capacity threads)
  obtain ⟨ledger, follows, items⟩ := kept.ledger
  exact ⟨moves, kept.bounded, ledger, follows, items, follows.accounted, follows.accounted.taken_once⟩

/-- Of two items put in at different ends the one in front is popped, and the other is dropped. -/
def sampleRun : List (Action Nat) :=
  [.call 0 (.pushBack 7), .run 0 none, .call 1 (.pushFront 8), .run 1 none, .call 2 (.pop false), .run 2 none, .call 0 .clear,
    .run 0 none]

theorem deque_accounted_sample : ∃ final : BlockDeque Nat, Run step (new 2 3) sampleRun final ∧
    final.history = [.pushed false 7, .pushed true 8, .popped 8, .cleared] ∧
    Throughout step (fun deque _ next => Move deque next) (new 2 3) sampleRun ∧ final.deq.length ≤ 2 ∧
      ∃ ledger : Ledger Nat, Follows final.history ledger ∧ ledger.items = final.deq ∧ ledger.Accounted ∧
        (ledger.taken.map Prod.fst).Nodup := by
  obtain ⟨final, ran, checked⟩ := run_of_check
    (show (sampleRun.foldlM step (new 2 3)).any fun final =>
      final.history = [.pushed false 7, .pushed true 8, .popped 8, .cleared] by decide)
  exact ⟨final, ran, of_decide_eq_true checked, deque_accounted ran⟩

end BlockDeque

end HttpFramework.Code
