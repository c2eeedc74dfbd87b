import HttpFramework.Library.Slots
import HttpFramework.Library.Transition
import HttpFramework.Mylog.ThreadPool
import Mathlib.Data.List.Nodup

/-! What becomes of the tasks of `ThreadPool`. A worker that exits has seen `stop` set and the queue
empty, and from then on nothing comes into the queue, so that the first worker to be joined already
vouches for all tasks having been taken. -/

namespace HttpFramework.Mylog
open Transition

namespace ThreadPool

variable {pool next : ThreadPool} {threads call worker : Nat}

/-- The destructor has joined all workers. -/
def Joined (pool : ThreadPool) : Prop := pool.destructor = .joining pool.workers.length

/-- No task is executed twice, the tasks are taken in the order of the queue, and once the workers
are joined each task whose call has returned is executed. -/
structure Sound (pool : ThreadPool) : Prop where
  once : pool.executed.Nodup
  distinct : pool.enqueued.Nodup
  inOrder : pool.taken ++ pool.tasks = pool.enqueued
  emptied : pool.Joined → pool.tasks = []
  executed : pool.Joined → ∀ call : Nat, pool.calls[call]? = some .returned → pool.executed.count call = 1

/-- A call that finds `stop` set throws and leaves the queue as it is. -/
def Refuses (pool : ThreadPool) : Action → ThreadPool → Prop
  | .advance call, next => pool.stop = true → pool.calls[call]? = some .packed →
      next.calls[call]? = some .threw ∧ next.tasks = pool.tasks
  | _, _ => True

/-- The tasks that workers are executing. -/
def executing (pool : ThreadPool) : List Nat := pool.workers.filterMap Worker.task?

structure Valid (pool : ThreadPool) : Prop where
  staffed : pool.workers ≠ []
  inOrder : pool.taken ++ pool.tasks = pool.enqueued
  distinct : pool.enqueued.Nodup
  /-- The calls that have put their task into the queue. -/
  calls : ∀ call : Nat, call ∈ pool.enqueued ↔ pool.calls[call]? = some .queued ∨ pool.calls[call]? = some .returned
  conserved : (pool.executed ++ pool.executing).Perm pool.taken
  exited : Worker.exited ∈ pool.workers → pool.stop = true ∧ pool.tasks = []
  joined : ∀ joined, pool.destructor = .joining joined →
    joined ≤ pool.workers.length ∧ ∀ worker, worker < joined → pool.workers[worker]? = some .exited

theorem valid_new (positive : 0 < threads) : (new threads).Valid where
  staffed := by
    intro none
    have length := congrArg List.length none
    simp [new] at length
    omega
  inOrder := rfl
  distinct := List.nodup_nil
  calls := by simp [new]
  conserved := by
    have idle : ∀ item ∈ (new threads).workers, item.task? = none := by
      intro item member
      rw [List.eq_of_mem_replicate member]
      rfl
    show ([] ++ (new threads).workers.filterMap Worker.task?).Perm []
    rw [List.filterMap_eq_nil_iff.mpr idle]
    exact .refl _
  exited := by
    intro member
    cases List.eq_of_mem_replicate member
  joined := by
    intro joined joining
    cases joining

/-- Once the workers are joined, all of them have exited. -/
theorem Valid.all_exited (valid : pool.Valid) (joined : pool.Joined) : ∀ item ∈ pool.workers, item = .exited := by
  intro item member
  obtain ⟨worker, inside, rfl⟩ := List.mem_iff_getElem.mp member
  have exited := (valid.joined _ joined).2 worker inside
  rw [List.getElem?_eq_getElem inside] at exited
  exact Option.some.inj exited

theorem Valid.sound (valid : pool.Valid) : pool.Sound := by
  have taken : pool.taken.Nodup := by
    have distinct := valid.distinct
    rw [← valid.inOrder] at distinct
    exact distinct.of_append_left
  have once : pool.executed.Nodup := (valid.conserved.nodup_iff.mpr taken).of_append_left
  have emptied (joined : pool.Joined) : pool.tasks = [] := by
    obtain ⟨item, member⟩ := List.exists_mem_of_ne_nil _ valid.staffed
    have exited := valid.all_exited joined item member
    exact (valid.exited (exited ▸ member)).2
  refine ⟨once, valid.distinct, valid.inOrder, emptied, ?_⟩
  intro joined call returned
  have idle : pool.executing = [] := by
    apply List.filterMap_eq_nil_iff.mpr
    intro item member
    rw [valid.all_exited joined item member]
    rfl
  have all := valid.conserved
  have order := valid.inOrder
  rw [idle, List.append_nil] at all
  rw [emptied joined, List.append_nil] at order
  apply List.count_eq_one_of_mem once
  rw [all.mem_iff, order]
  exact (valid.calls call).mpr (.inr returned)

theorem Valid.enqueue (valid : pool.Valid) : Valid { pool with calls := pool.calls ++ [.packed] } := by
  refine { valid with calls := ?_ }
  intro call
  rw [valid.calls call]
  dsimp only
  by_cases inside : call < pool.calls.length
  · rw [List.getElem?_append_left inside]
  · have outside : pool.calls[call]? = none := List.getElem?_eq_none (by omega)
    rw [outside, List.getElem?_append_right (by omega)]
    cases call - pool.calls.length <;> simp

/-- A call goes on without touching the queue. -/
theorem Valid.set_call (valid : pool.Valid) {before after : Enqueue} (there : pool.calls[call]? = some before)
    (same : before = .queued ∨ before = .returned ↔ after = .queued ∨ after = .returned) :
    Valid { pool with calls := pool.calls.set call after } := by
  refine { valid with calls := ?_ }
  intro other
  rw [valid.calls other]
  dsimp only
  by_cases own : call = other
  · subst own
    rw [List.getElem?_set_self (List.getElem?_eq_some_iff.mp there).1, there]
    simpa using same
  · rw [List.getElem?_set_ne own]

theorem Valid.push (valid : pool.Valid) (running : pool.stop = false) (there : pool.calls[call]? = some .packed) :
    Valid { pool with
      tasks := pool.tasks ++ [call], enqueued := pool.enqueued ++ [call], calls := pool.calls.set call .queued } := by
  have new : call ∉ pool.enqueued := by
    rw [valid.calls call, there]
    simp
  have inside : call < pool.calls.length := (List.getElem?_eq_some_iff.mp there).1
  refine { valid with inOrder := ?_, distinct := ?_, calls := ?_, exited := ?_ }
  · rw [← List.append_assoc, valid.inOrder]
  · exact List.nodup_append.mpr ⟨valid.distinct, List.nodup_singleton _, by
      intro task member other last
      rw [List.mem_singleton.mp last]
      exact fun same => new (same ▸ member)⟩
  · intro other
    dsimp only
    rw [List.mem_append, List.mem_singleton, valid.calls other]
    by_cases own : call = other
    · subst own
      simp [List.getElem?_set_self inside]
    · have different : other ≠ call := fun same => own same.symm
      rw [List.getElem?_set_ne own]
      simp [different]
  · intro member
    have stopped := (valid.exited member).1
    rw [running] at stopped
    cases stopped

theorem executing_set {before after : Worker} (there : pool.workers[worker]? = some before) :
    ((pool.workers.set worker after).filterMap Worker.task? ++ before.task?.toList).Perm
      (pool.executing ++ after.task?.toList) :=
  Slots.filterMap_set_perm Worker.task? after there

/-- The workers that have been joined are still the ones that have exited. -/
theorem Valid.joined_set (valid : pool.Valid) {before after : Worker} (there : pool.workers[worker]? = some before)
    (running : before ≠ .exited) (joined : Nat) (joining : pool.destructor = .joining joined) :
    joined ≤ (pool.workers.set worker after).length ∧
      ∀ other, other < joined → (pool.workers.set worker after)[other]? = some .exited := by
  obtain ⟨within, exited⟩ := valid.joined joined joining
  refine ⟨by rwa [List.length_set], ?_⟩
  intro other less
  have different : worker ≠ other := by
    intro same
    subst same
    rw [exited worker less] at there
    exact running (Option.some.inj there).symm
  rw [List.getElem?_set_ne different]
  exact exited other less

theorem staffed_set (valid : pool.Valid) (after : Worker) : pool.workers.set worker after ≠ [] := by
  simpa using valid.staffed

theorem exited_of_set {after : Worker} (member : Worker.exited ∈ pool.workers.set worker after) (running : after ≠ .exited) :
    Worker.exited ∈ pool.workers := by
  rcases List.mem_or_eq_of_mem_set member with old | new
  · exact old
  · exact absurd new.symm running

theorem Valid.work (valid : pool.Valid) {before : Worker} (there : pool.workers[worker]? = some before)
    (stepped : pool.work worker before = some next) : next.Valid := by
  cases before with
  | exited => cases stepped
  | waiting =>
    simp only [ThreadPool.work] at stepped
    split at stepped
    next task rest queue =>
      cases stepped
      have moved := @executing_set pool worker .waiting (.running task) there
      simp only [Worker.task?, Option.toList_none, Option.toList_some, List.append_nil] at moved
      refine { valid with staffed := staffed_set valid _, inOrder := ?_, conserved := ?_, exited := ?_, joined := ?_ }
      · rw [List.append_assoc, List.singleton_append, ← queue]
        exact valid.inOrder
      · calc (pool.executed ++ (pool.workers.set worker (.running task)).filterMap Worker.task?).Perm
                (pool.executed ++ (pool.executing ++ [task])) := moved.append_left _
          _ = (pool.executed ++ pool.executing) ++ [task] := (List.append_assoc _ _ _).symm
          _ |>.Perm (pool.taken ++ [task]) := valid.conserved.append_right _
      · intro member
        have old := valid.exited (exited_of_set member (by simp))
        rw [queue] at old
        cases old.2
      · exact valid.joined_set there (by simp)
    next queue =>
      split at stepped
      next stopped =>
        cases stepped
        have moved := @executing_set pool worker .waiting .exited there
        simp only [Worker.task?, Option.toList_none, List.append_nil] at moved
        refine { valid with staffed := staffed_set valid _, conserved := ?_, exited := ?_, joined := ?_ }
        · exact (moved.append_left _).trans valid.conserved
        · exact fun _ => ⟨stopped, queue⟩
        · exact valid.joined_set there (by simp)
      next => cases stepped
  | running task =>
    cases stepped
    have moved := @executing_set pool worker (.running task) .waiting there
    simp only [Worker.task?, Option.toList_none, Option.toList_some, List.append_nil] at moved
    refine { valid with staffed := staffed_set valid _, conserved := ?_, exited := ?_, joined := ?_ }
    · calc ((pool.executed ++ [task]) ++ (pool.workers.set worker .waiting).filterMap Worker.task?).Perm
              (pool.executed ++ ((pool.workers.set worker .waiting).filterMap Worker.task? ++ [task])) := by
            rw [List.append_assoc]
            exact List.perm_append_comm.append_left _
        _ |>.Perm (pool.executed ++ pool.executing) := moved.append_left _
        _ |>.Perm pool.taken := valid.conserved
    · intro member
      exact valid.exited (exited_of_set member (by simp))
    · exact valid.joined_set there (by simp)

theorem Valid.destroy (valid : pool.Valid) (stepped : pool.destroy = some next) : next.Valid := by
  rw [ThreadPool.destroy] at stepped
  split at stepped
  · cases stepped
    refine { valid with exited := ?_, joined := ?_ }
    · exact fun member => ⟨rfl, (valid.exited member).2⟩
    · intro joined joining
      cases joining
  · cases stepped
    refine { valid with joined := ?_ }
    intro joined joining
    cases joining
    exact ⟨Nat.zero_le _, fun worker less => absurd less (Nat.not_lt_zero _)⟩
  next joined joining =>
    split at stepped
    next exited =>
      cases stepped
      obtain ⟨within, earlier⟩ := valid.joined joined joining
      refine { valid with joined := ?_ }
      intro later joining'
      cases joining'
      refine ⟨(List.getElem?_eq_some_iff.mp exited).1, ?_⟩
      intro worker less
      rcases Nat.lt_succ_iff_lt_or_eq.mp less with before | last
      · exact earlier worker before
      · rw [last]
        exact exited
    next => cases stepped

theorem step_valid {action : Action} (valid : pool.Valid) (taken : pool.step action = some next) :
    next.Valid ∧ pool.Refuses action next := by
  cases action with
  | enqueue =>
    cases taken
    exact ⟨valid.enqueue, trivial⟩
  | advance call =>
    obtain ⟨before, there, advanced⟩ := Option.bind_eq_some_iff.mp taken
    cases before with
    | packed =>
      simp only [ThreadPool.advance] at advanced
      split at advanced
      next stopped =>
        cases advanced
        refine ⟨valid.set_call there (by simp), fun _ _ => ⟨?_, rfl⟩⟩
        exact List.getElem?_set_self (List.getElem?_eq_some_iff.mp there).1
      next running =>
        cases advanced
        exact ⟨valid.push (by simpa using running) there, fun stopped => absurd stopped running⟩
    | queued =>
      cases advanced
      refine ⟨valid.set_call there (by simp), fun _ packed => ?_⟩
      rw [there] at packed
      cases packed
    | returned => cases advanced
    | threw => cases advanced
  | work worker =>
    obtain ⟨before, there, stepped⟩ := Option.bind_eq_some_iff.mp taken
    exact ⟨valid.work there stepped, trivial⟩
  | destroy => exact ⟨valid.destroy taken, trivial⟩

/-- With at least one worker, whatever the threads do. -/
theorem tasks_executed_once {actions : List Action} {final : ThreadPool} (positive : 0 < threads)
    (ran : Run step (new threads) actions final) :
    Throughout step (fun pool action next => next.Sound ∧ pool.Refuses action next) (new threads) actions := by
  apply Run.throughout _ (valid_new positive) ran
  intro pool action next valid taken
  obtain ⟨kept, refuses⟩ := step_valid valid taken
  exact ⟨⟨kept.sound, refuses⟩, kept⟩

def stopWhileQueued : List Action :=
  [.enqueue, .enqueue, .advance 1, .destroy, .advance 1, .work 0, .advance 0, .destroy, .work 0, .work 0, .destroy]

/-- The destructor comes while one task is queued and before another is. -/
theorem tasks_executed_once_stopped :
    ∃ final, Run step (new 1) stopWhileQueued final ∧ final.executed = [1] ∧ final.calls = [.threw, .returned] ∧
      final.Joined ∧ Throughout step (fun pool action next => next.Sound ∧ pool.Refuses action next) (new 1) stopWhileQueued := by
  have ran : Run step (new 1) stopWhileQueued
      { workers := [.exited], stop := true, calls := [.threw, .returned], destructor := .joining 1, enqueued := [1],
        taken := [1], executed := [1] } := by
    refine .cons rfl (.cons rfl (.cons rfl (.cons rfl (.cons rfl (.cons rfl (.cons rfl (.cons rfl ?_)))))))
    exact .cons rfl (.cons rfl (.cons rfl (.nil _)))
  exact ⟨_, ran, rfl, rfl, rfl, tasks_executed_once (by decide) ran⟩

end ThreadPool

end HttpFramework.Mylog
