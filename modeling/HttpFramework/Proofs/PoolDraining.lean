import HttpFramework.Code.ThreadPool
import HttpFramework.Library.Transition

/-! What becomes of the tasks of the web server's `ThreadPool`. A thread that waits while tasks are
queued has one for each of them that is awake or is going to be notified, and once the destructor
has notified all, the pool runs dry. -/

namespace HttpFramework.Code.ThreadPool
open Transition

variable {τ : Type} {pool next : ThreadPool τ} {thread : Nat} {item : PoolThread τ}

def awake (pool : ThreadPool τ) : Nat := pool.threads.countP PoolThread.isAwake

def running (pool : ThreadPool τ) : Nat := pool.threads.countP PoolThread.isRunning

structure Valid (pool : ThreadPool τ) : Prop where
  staffed : pool.threads ≠ []
  inOrder : pool.taken ++ pool.tasks = pool.added
  /-- No wake-up is lost. -/
  covered : .waiting ∈ pool.threads → pool.tasks.length ≤ pool.unnotified + pool.awake
  exited : .exited ∈ pool.threads → pool.isClosed = true ∧ pool.tasks = []
  closed : pool.isClosed = true ↔ pool.destructor ≠ .notCalled
  settled : pool.destructor ≠ .notCalled → pool.unnotified = 0
  roused : pool.destructor = .returned → .waiting ∉ pool.threads

theorem valid_new {threadCount : Nat} (positive : 0 < threadCount) : (new threadCount : ThreadPool τ).Valid where
  staffed none := by
    have length := congrArg List.length none
    simp [new] at length
    omega
  inOrder := rfl
  covered waiting := by
    cases List.eq_of_mem_replicate waiting
  exited exited := by
    cases List.eq_of_mem_replicate exited
  closed := by simp [new]
  settled called := absurd rfl called
  roused returned := by cases returned

/-- How the counts change with one thread. -/
theorem counts_set (there : pool.threads[thread]? = some item) (item' : PoolThread τ) (p : PoolThread τ → Bool) :
    (pool.threads.set thread item').countP p + (if p item then 1 else 0) = pool.threads.countP p + if p item' then 1 else 0 := by
  obtain ⟨inside, rfl⟩ := List.getElem?_eq_some_iff.mp there
  rw [List.countP_set inside]
  by_cases holds : p pool.threads[thread] = true
  · have counted : 0 < pool.threads.countP p := List.countP_pos_iff.mpr ⟨_, List.getElem_mem inside, holds⟩
    simp only [holds, if_true]
    omega
  · rw [Bool.not_eq_true] at holds
    simp only [holds, Bool.false_eq_true, if_false]
    omega

theorem mem_set {item' other : PoolThread τ} (member : other ∈ pool.threads.set thread item') (different : other ≠ item') :
    other ∈ pool.threads :=
  (List.mem_or_eq_of_mem_set member).resolve_right different

theorem Valid.addTask (valid : pool.Valid) (open' : pool.destructor = .notCalled) (task : τ) : (pool.addTask task).Valid where
  staffed := valid.staffed
  inOrder := by
    show pool.taken ++ (pool.tasks ++ [task]) = pool.added ++ [task]
    rw [← List.append_assoc, valid.inOrder]
  covered waiting := by
    have covered := valid.covered waiting
    simp only [ThreadPool.addTask, awake, List.length_append, List.length_singleton] at covered ⊢
    omega
  exited exited := absurd open' (valid.closed.mp (valid.exited exited).1)
  closed := valid.closed
  settled called := absurd open' called
  roused := valid.roused

/-- A thread that waits comes back to its loop, with a notification or without. -/
theorem Valid.wake (valid : pool.Valid) (there : pool.threads[thread]? = some item) (idle : item.isAwake = false)
    (less : Nat) (few : pool.unnotified ≤ less + 1) (none : pool.unnotified = 0 → less = 0) :
    Valid { pool with threads := pool.threads.set thread .awake, unnotified := less } where
  staffed := by simpa using valid.staffed
  inOrder := valid.inOrder
  covered waiting := by
    have covered := valid.covered (mem_set waiting (by simp))
    have counts := counts_set there .awake PoolThread.isAwake
    rw [idle] at counts
    simp only [awake, PoolThread.isAwake, Bool.false_eq_true, if_true, if_false] at covered counts ⊢
    omega
  exited exited := valid.exited (mem_set exited (by simp))
  closed := valid.closed
  settled called := none (valid.settled called)
  roused returned waiting := valid.roused returned (mem_set waiting (by simp))

/-- The task that a thread runs does not matter. -/
theorem Valid.resume (valid : pool.Valid) {task : τ} (there : pool.threads[thread]? = some (.running task)) (task' : τ) :
    (pool.resume thread task').Valid where
  staffed := by simpa [ThreadPool.resume] using valid.staffed
  inOrder := valid.inOrder
  covered waiting := by
    have covered := valid.covered (mem_set waiting (by simp))
    have counts := counts_set there (.running task') PoolThread.isAwake
    simp only [awake, ThreadPool.resume, PoolThread.isAwake, Bool.false_eq_true, if_false] at covered counts ⊢
    omega
  exited exited := valid.exited (mem_set exited (by simp))
  closed := valid.closed
  settled := valid.settled
  roused returned waiting := valid.roused returned (mem_set waiting (by simp))

theorem Valid.check (valid : pool.Valid) (there : pool.threads[thread]? = some .awake) : (pool.check thread).Valid := by
  cases queue : pool.tasks with
  | cons task rest =>
    rw [ThreadPool.check, queue]
    refine ⟨by simpa using valid.staffed, ?_, ?_, ?_, valid.closed, valid.settled, ?_⟩
    · have inOrder := valid.inOrder
      rw [queue] at inOrder
      simpa using inOrder
    · intro waiting
      have covered := valid.covered (mem_set waiting (by simp))
      have counts := counts_set there (.running task) PoolThread.isAwake
      rw [queue] at covered
      simp only [awake, PoolThread.isAwake, Bool.false_eq_true, if_true, if_false, List.length_cons] at covered counts ⊢
      omega
    · intro exited
      have none := (valid.exited (mem_set exited (by simp))).2
      rw [queue] at none
      cases none
    · intro returned waiting
      exact valid.roused returned (mem_set waiting (by simp))
  | nil =>
    have inOrder := valid.inOrder
    rw [queue] at inOrder
    rw [ThreadPool.check, queue]
    refine ⟨by simpa using valid.staffed, inOrder, fun _ => Nat.zero_le _, ?_, valid.closed, valid.settled, ?_⟩
    · intro exited
      refine ⟨?_, rfl⟩
      rcases List.mem_or_eq_of_mem_set exited with before | now
      · exact (valid.exited before).1
      · by_contra running
        rw [if_neg running] at now
        cases now
    · intro returned waiting
      have closed := valid.closed.mpr (by rw [returned]; decide)
      rw [if_pos closed] at waiting
      exact valid.roused returned (mem_set waiting (by simp))

theorem Valid.close (valid : pool.Valid) (settled : pool.unnotified = 0) :
    Valid { pool with isClosed := true, destructor := .closed } where
  staffed := valid.staffed
  inOrder := valid.inOrder
  covered := valid.covered
  exited exited := ⟨rfl, (valid.exited exited).2⟩
  closed := by simp
  settled _ := settled
  roused returned := by cases returned

theorem Valid.notifyAll (valid : pool.Valid) (closed : pool.destructor = .closed) :
    Valid { pool with threads := pool.threads.map PoolThread.notified, destructor := .returned } := by
  have quiet : PoolThread.waiting ∉ pool.threads.map PoolThread.notified := by
    intro waiting
    obtain ⟨thread, _, same⟩ := List.mem_map.mp waiting
    cases thread <;> cases same
  refine ⟨by simpa using valid.staffed, valid.inOrder, fun waiting => absurd waiting quiet, ?_, ?_, ?_, fun _ => quiet⟩
  · intro exited
    obtain ⟨thread, member, same⟩ := List.mem_map.mp exited
    cases thread <;> cases same
    exact valid.exited member
  · have called := valid.closed.mpr (by rw [closed]; decide)
    simp [called]
  · intro _
    exact valid.settled (by rw [closed]; decide)

theorem Valid.step (valid : pool.Valid) {action : Action τ} (taken : pool.step action = some next) : next.Valid := by
  cases action with
  | addTask task =>
    rw [ThreadPool.step] at taken
    split at taken <;> cases taken
    next open' => exact valid.addTask open' task
  | notifyOne thread =>
    rw [ThreadPool.step] at taken
    split at taken
    next owed =>
      cases thread with
      | some thread =>
        rw [notifyOne] at taken
        split at taken <;> cases taken
        next there => exact valid.wake there rfl (pool.unnotified - 1) (by omega) (by omega)
      | none =>
        rw [notifyOne] at taken
        split at taken <;> cases taken
        next none =>
          -- No thread waits, so that the notification is lost on nobody.
          refine { valid with covered := fun waiting => absurd (List.any_eq_true.mpr ⟨_, waiting, rfl⟩) none, settled := ?_ }
          intro called
          exact Nat.sub_eq_zero_of_le (by rw [valid.settled called]; exact Nat.zero_le _)
    next => cases taken
  | check thread =>
    rw [ThreadPool.step] at taken
    split at taken <;> cases taken
    next there => exact valid.check there
  | wake thread =>
    rw [ThreadPool.step] at taken
    split at taken <;> cases taken
    next there => exact valid.wake there rfl pool.unnotified (by omega) id
  | finish thread =>
    rw [ThreadPool.step] at taken
    split at taken <;> cases taken
    next there => exact valid.wake there rfl pool.unnotified (by omega) id
  | close =>
    rw [ThreadPool.step] at taken
    split at taken <;> cases taken
    next settled => exact valid.close settled.2
  | notifyAll =>
    rw [ThreadPool.step] at taken
    split at taken <;> cases taken
    next closed => exact valid.notifyAll closed

theorem Valid.run (valid : pool.Valid) {actions : List (Action τ)} (ran : Run ThreadPool.step pool actions next) : next.Valid :=
  Run.invariant (fun _ _ _ valid taken => Valid.step valid taken) valid ran

/-- Threads that neither wait nor have exited are awake or run a task. -/
theorem Valid.some_awake (valid : pool.Valid) (queued : pool.tasks ≠ []) (notified : pool.unnotified = 0) :
    (∃ thread : Nat, pool.threads[thread]? = some .awake) ∨ ∀ item ∈ pool.threads, item.isRunning = true := by
  by_cases some : 0 < pool.awake
  · obtain ⟨item, member, awake⟩ := List.countP_pos_iff.mp some
    obtain ⟨thread, inside, rfl⟩ := List.mem_iff_getElem.mp member
    left
    refine ⟨thread, List.getElem?_eq_some_iff.mpr ⟨inside, ?_⟩⟩
    cases item : pool.threads[thread] <;> rw [item] at awake <;> first | rfl | cases awake
  · right
    intro item member
    cases item with
    | running task => rfl
    | awake => exact absurd (List.countP_pos_iff.mpr ⟨_, member, rfl⟩) some
    | waiting =>
      have covered := valid.covered member
      have tasks := List.length_pos_iff.mpr queued
      omega
    | exited => exact absurd (valid.exited member).2 queued

/-- However many threads call `AddTask` and the pool has, and in whatever order they take their steps: each
task is taken once, in the order in which they were added, and a task that is queued waits for a
notification, for a thread that is awake, or for threads that are all running tasks. -/
theorem tasks_taken_in_order {threadCount : Nat} (positive : 0 < threadCount) {actions : List (Action τ)}
    (ran : Run step (new threadCount) actions pool) :
    pool.taken ++ pool.tasks = pool.added ∧ (.waiting ∈ pool.threads → pool.tasks.length ≤ pool.unnotified + pool.awake) ∧
      (pool.tasks ≠ [] → pool.unnotified = 0 →
        (∃ thread : Nat, pool.threads[thread]? = some .awake) ∨ ∀ item ∈ pool.threads, item.isRunning = true) := by
  have valid := (valid_new positive).run ran
  exact ⟨valid.inOrder, valid.covered, valid.some_awake⟩

theorem tasks_taken_in_order_single :
    ∃ pool : ThreadPool Nat, Run step (new 1) [.check 0, .addTask 7, .addTask 8, .notifyOne (some 0), .check 0] pool ∧
      pool.taken ++ pool.tasks = [7, 8] := by
  have ran : Run step (new 1) [.check 0, .addTask 7, .addTask 8, .notifyOne (some 0), .check 0] _ := run_of_foldlM rfl
  exact ⟨_, ran, (tasks_taken_in_order Nat.one_pos ran).1⟩

/-- The steps that are left once the destructor has returned. -/
def left (pool : ThreadPool τ) : Nat := 3 * pool.tasks.length + pool.awake + 2 * pool.running

theorem step_left (valid : pool.Valid) (returned : pool.destructor = .returned) {action : Action τ}
    (taken : pool.step action = some next) : (next.destructor = .returned ∧ next.added = pool.added) ∧ next.left < pool.left := by
  have none := valid.settled (by rw [returned]; decide)
  have closed := valid.closed.mpr (by rw [returned]; decide)
  have quiet {thread : Nat} : pool.threads[thread]? ≠ some .waiting :=
    fun there => valid.roused returned (List.mem_of_getElem? there)
  cases action with
  | addTask task => simp [step, returned] at taken
  | notifyOne thread => simp [step, none] at taken
  | wake thread =>
    rw [step] at taken
    split at taken
    next there => exact absurd there quiet
    next => cases taken
  | close => simp [step, returned] at taken
  | notifyAll => simp [step, returned] at taken
  | finish thread =>
    rw [step] at taken
    split at taken <;> cases taken
    next task there =>
      have awake := counts_set there .awake PoolThread.isAwake
      have running := counts_set there .awake PoolThread.isRunning
      refine ⟨⟨returned, rfl⟩, ?_⟩
      simp only [left, ThreadPool.awake, ThreadPool.running, PoolThread.isAwake, PoolThread.isRunning, Bool.false_eq_true,
        if_true, if_false] at awake running ⊢
      omega
  | check thread =>
    rw [step] at taken
    split at taken <;> cases taken
    next there =>
      refine ⟨by cases queue : pool.tasks <;> simp [check, queue, returned], ?_⟩
      cases queue : pool.tasks with
      | cons task rest =>
        have awake := counts_set there (.running task) PoolThread.isAwake
        have running := counts_set there (.running task) PoolThread.isRunning
        simp only [check, left, queue, ThreadPool.awake, ThreadPool.running, PoolThread.isAwake, PoolThread.isRunning,
          Bool.false_eq_true, if_true, if_false, List.length_cons] at awake running ⊢
        omega
      | nil =>
        have awake := counts_set there .exited PoolThread.isAwake
        have running := counts_set there .exited PoolThread.isRunning
        simp only [check, left, queue, closed, ThreadPool.awake, ThreadPool.running, PoolThread.isAwake,
          PoolThread.isRunning, Bool.false_eq_true, if_true, if_false, List.length_nil] at awake running ⊢
        omega

/-- Where no step is left, all threads have exited. -/
theorem Valid.exited_of_stuck (valid : pool.Valid) (returned : pool.destructor = .returned)
    (stuck : ∀ action, pool.step action = none) : ∀ item ∈ pool.threads, item = .exited := by
  intro item member
  obtain ⟨thread, inside, rfl⟩ := List.mem_iff_getElem.mp member
  have there := List.getElem?_eq_getElem inside
  cases item : pool.threads[thread] with
  | exited => rfl
  | waiting => exact absurd (item ▸ member) (valid.roused returned)
  | awake =>
    have checks := stuck (.check thread)
    rw [item] at there
    simp [ThreadPool.step, there] at checks
  | running task =>
    have finishes := stuck (.finish thread)
    rw [item] at there
    simp [ThreadPool.step, there] at finishes

/-- Once the destructor has returned, the threads come to an end within so many steps, whatever their
order, and when they have, every task that was ever added has been taken in its turn and run to
its end. -/
theorem drains {threadCount : Nat} (positive : 0 < threadCount) {actions more : List (Action τ)}
    (ran : Run step (new threadCount) actions pool) (returned : pool.destructor = .returned) (rest : Run step pool more next) :
    more.length ≤ 3 * pool.tasks.length + pool.awake + 2 * pool.running ∧
      ((∀ action, next.step action = none) → (∀ item ∈ next.threads, item = .exited) ∧ next.tasks = [] ∧ next.taken = pool.added) := by
  have valid := (valid_new positive).run ran
  have falls : ∀ (state : ThreadPool τ) action after,
      (state.Valid ∧ state.destructor = .returned ∧ state.added = pool.added) → state.step action = some after →
      (after.Valid ∧ after.destructor = .returned ∧ after.added = pool.added) ∧ after.left < state.left := by
    intro state action after kept taken
    obtain ⟨valid, returned, added⟩ := kept
    obtain ⟨⟨returned', added'⟩, less⟩ := step_left valid returned taken
    exact ⟨⟨valid.step taken, returned', added'.trans added⟩, less⟩
  obtain ⟨⟨valid', returned', added⟩, most⟩ := Run.length_le falls ⟨valid, returned, rfl⟩ rest
  simp only [left] at most
  refine ⟨by omega, ?_⟩
  intro stuck
  have exited := valid'.exited_of_stuck returned' stuck
  obtain ⟨item, member⟩ := List.exists_mem_of_ne_nil _ valid'.staffed
  have empty := (valid'.exited (exited item member ▸ member)).2
  have inOrder := valid'.inOrder
  rw [empty, List.append_nil, added] at inOrder
  exact ⟨exited, empty, inOrder⟩

theorem drains_single :
    ∃ pool next : ThreadPool Nat, Run step (new 1) [.addTask 7, .notifyOne none, .check 0, .close, .notifyAll] pool ∧
      Run step pool [.finish 0, .check 0] next ∧ (∀ item ∈ next.threads, item = .exited) ∧ next.taken = pool.added := by
  have ran : Run step (new 1) [.addTask 7, .notifyOne none, .check 0, .close, .notifyAll] _ := run_of_foldlM rfl
  obtain ⟨_, drained⟩ := @drains Nat _ _ 1 Nat.one_pos _ [.finish 0, .check 0] ran rfl (run_of_foldlM rfl)
  obtain ⟨exited, _, taken⟩ := drained (by
    intro action
    cases action with
    | addTask task => rfl
    | notifyOne thread => rfl
    | check thread => cases thread <;> rfl
    | wake thread => cases thread <;> rfl
    | finish thread => cases thread <;> rfl
    | close => rfl
    | notifyAll => rfl)
  exact ⟨_, _, ran, run_of_foldlM rfl, exited, taken⟩

end HttpFramework.Code.ThreadPool
