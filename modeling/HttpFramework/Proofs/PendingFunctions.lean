import HttpFramework.Code.EventLoop
import HttpFramework.Library.Transition
import Mathlib.Data.List.Nodup

/-! What becomes of the functions that are queued in `eventLoop`. They are called under the mutex
that `queueInLoop` needs, from a vector that an exception throws away. -/

namespace HttpFramework.Code
open Transition

namespace EventLoop

variable {loop next : EventLoop}

/-- The functions that have been taken from the queue and not been called yet. -/
def taken (loop : EventLoop) : List Nat := loop.funcs.getD []

/-- The mutex is not locked twice, and every function of the queue has been called, once and in its
turn, or still waits. -/
structure Orderly (loop : EventLoop) : Prop where
  unlocked : loop.relocked = false
  inOrder : loop.executed ++ loop.taken ++ loop.pendingFunctions = loop.queued
  once : loop.executed.Nodup

/-- A function from the queue queues another one, or lets an exception out while others of those
that were taken with it still wait. -/
def Reenters (loop : EventLoop) : Action → Prop
  | .queueInLoop true => loop.funcs ≠ none
  | .throw => (∃ func, loop.stack = [some func]) ∧ loop.taken ≠ []
  | _ => False

structure Sound (loop : EventLoop) : Prop where
  unlocked : loop.relocked = false
  inOrder : loop.executed ++ loop.taken ++ loop.pendingFunctions = loop.queued
  numbered : loop.queued = List.range loop.queued.length

theorem Sound.orderly (sound : loop.Sound) : loop.Orderly where
  unlocked := sound.unlocked
  inOrder := sound.inOrder
  once := by
    have distinct : loop.queued.Nodup := by
      rw [sound.numbered]
      exact List.nodup_range
    rw [← sound.inOrder] at distinct
    exact distinct.of_append_left.of_append_left

theorem Sound.queueInLoop {inLoopThread : Bool} (sound : loop.Sound) (free : inLoopThread = true → loop.funcs = none)
    (queued : loop.queueInLoop inLoopThread = some next) : next.Sound := by
  unfold EventLoop.queueInLoop at queued
  split at queued
  next unlocked =>
    cases queued
    refine ⟨sound.unlocked, ?_, ?_⟩
    · show loop.executed ++ loop.taken ++ (loop.pendingFunctions ++ [loop.queued.length]) = _
      rw [← List.append_assoc, sound.inOrder]
    · show loop.queued ++ [loop.queued.length] = List.range (loop.queued ++ [loop.queued.length]).length
      rw [List.length_append, List.length_singleton, List.range_succ, ← sound.numbered]
  next locked =>
    split at queued
    next own => exact absurd (free own) locked
    next => cases queued

theorem Sound.throw (sound : loop.Sound) (kept : ¬ loop.Reenters .throw) (thrown : loop.throw = some next) : next.Sound := by
  unfold EventLoop.throw at thrown
  split at thrown
  next => cases thrown
  next func stack =>
    cases thrown
    have nothing : loop.taken = [] := by
      by_contra left
      exact kept ⟨⟨func, stack⟩, left⟩
    have inOrder := sound.inOrder
    rw [nothing] at inOrder
    exact ⟨sound.unlocked, inOrder, sound.numbered⟩
  next =>
    cases thrown
    exact ⟨sound.unlocked, sound.inOrder, sound.numbered⟩

private theorem ite_eq_some {condition : Prop} [Decidable condition] {result : Option EventLoop}
    (taken : (if condition then result else none) = some next) : condition ∧ result = some next := by
  split at taken
  next holds => exact ⟨holds, taken⟩
  next => cases taken

theorem Sound.step {action : Action} (sound : loop.Sound) (kept : ¬ loop.Reenters action)
    (stepped : loop.step action = some next) : next.Sound := by
  unfold EventLoop.step at stepped
  rw [if_neg (by rw [sound.unlocked]; decide)] at stepped
  cases action with
  | runInLoop inLoopThread =>
    have ran := (ite_eq_some stepped).2
    cases inLoopThread with
    | true =>
      cases ran
      exact ⟨sound.unlocked, sound.inOrder, sound.numbered⟩
    | false => exact sound.queueInLoop (by simp) ran
  | queueInLoop inLoopThread =>
    apply sound.queueInLoop _ (ite_eq_some stepped).2
    intro own
    subst own
    exact not_not.mp kept
  | perform =>
    dsimp only at stepped
    split at stepped
    next free =>
      cases stepped
      have inOrder := sound.inOrder
      rw [taken, free.1] at inOrder
      refine ⟨sound.unlocked, ?_, sound.numbered⟩
      show loop.executed ++ loop.pendingFunctions ++ [] = loop.queued
      rw [List.append_nil, ← inOrder]
      simp
    next => cases stepped
  | callNext =>
    dsimp only at stepped
    split at stepped
    next func funcs held _ =>
      cases stepped
      have inOrder := sound.inOrder
      rw [taken, held] at inOrder
      refine ⟨sound.unlocked, ?_, sound.numbered⟩
      show loop.executed ++ [func] ++ funcs ++ loop.pendingFunctions = loop.queued
      rw [← inOrder]
      simp
    next => cases stepped
  | leave =>
    dsimp only at stepped
    split at stepped
    next => cases stepped
    next =>
      cases stepped
      exact ⟨sound.unlocked, sound.inOrder, sound.numbered⟩
  | throw => exact sound.throw kept stepped
  | finish =>
    dsimp only at stepped
    split at stepped
    next done =>
      cases stepped
      have inOrder := sound.inOrder
      rw [taken, done.1] at inOrder
      exact ⟨sound.unlocked, inOrder, sound.numbered⟩
    next => cases stepped

/-- The mutex is locked twice, or functions are gone. -/
theorem Reenters.not_orderly {action : Action} (sound : loop.Sound) (reenters : loop.Reenters action)
    (stepped : loop.step action = some next) : ¬ next.Orderly := by
  intro orderly
  unfold EventLoop.step at stepped
  rw [if_neg (by rw [sound.unlocked]; decide)] at stepped
  cases action with
  | runInLoop _ | perform | callNext | leave | finish => cases reenters
  | queueInLoop inLoopThread =>
    cases inLoopThread with
    | false => cases reenters
    | true =>
      have locked : loop.queueInLoop true = some { loop with relocked := true } := by
        rw [EventLoop.queueInLoop, if_neg reenters, if_pos rfl]
      cases locked.symm.trans (ite_eq_some stepped).2
      cases orderly.unlocked
  | throw =>
    obtain ⟨⟨func, stack⟩, left⟩ := reenters
    have thrown : loop.throw = some { loop with stack := [], funcs := none } := by
      rw [EventLoop.throw, stack]
    cases thrown.symm.trans stepped
    have lengths := congrArg List.length (sound.inOrder.trans orderly.inOrder.symm)
    have some_left := List.length_pos_iff.mpr left
    simp only [taken, Option.getD_none, List.append_nil, List.length_append] at lengths some_left
    omega

theorem sound_new : ({} : EventLoop).Sound := ⟨rfl, rfl, rfl⟩

/-- The functions are called in order, once each, as long as none of them queues another one or
throws others away, and only then. -/
theorem orderly_throughout_iff (actions : List Action) :
    Throughout step (fun _ _ next => next.Orderly) {} actions ↔
      Throughout step (fun loop action _ => ¬ loop.Reenters action) {} actions := by
  apply throughout_iff Sound _ _ sound_new
  · intro loop action next sound stepped kept
    exact sound.step kept stepped
  · intro loop action next sound stepped
    constructor
    · exact fun orderly reenters => reenters.not_orderly sound stepped orderly
    · exact fun kept => (sound.step kept stepped).orderly

/-- A function that another thread has queued queues a function itself. -/
theorem queued_again_under_lock :
    ¬ ∀ (actions : List Action) (final : EventLoop), Run step {} actions final → final.Orderly := by
  intro orderly
  have ran : Run step {} [.queueInLoop false, .perform, .callNext, .queueInLoop true]
      { funcs := some [], stack := [some 0], queued := [0], executed := [0], relocked := true } :=
    .cons rfl (.cons rfl (.cons rfl (.cons rfl (.nil _))))
  cases (orderly _ _ ran).unlocked

end EventLoop

end HttpFramework.Code
