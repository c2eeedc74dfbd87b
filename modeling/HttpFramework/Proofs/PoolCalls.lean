import HttpFramework.Code.SqlConnPool
import HttpFramework.Library.Grid
import HttpFramework.Library.Slots
import HttpFramework.Library.Transition

/-! The pool as its semaphore accounts for it. A thread between `sem_wait` and its locked section
has a permit for one entry of the queue, so that the section never finds the queue empty. -/

namespace HttpFramework.Code.SqlConnPool.Callers
open Transition
open scoped List

variable {Conn : Type} {connections : List Conn} {server next : Callers Conn}

/-- The thread has its permit and has not taken the entry yet. -/
def takes (caller : Caller Conn) : Bool := caller.stage = .pop

structure Accounted (connections : List Conn) (server : Callers Conn) : Prop where
  max : server.pool.maxConn = connections.length
  permits : server.pool.semId + server.callers.countP takes = server.pool.connQue.length
  places : server.pool.connQue ++ server.callers.flatMap Caller.held ~ connections

theorem accounted_init (connections : List Conn) : Accounted connections { pool := SqlConnPool.init connections } where
  max := rfl
  permits := Nat.add_zero _
  places := by simp [SqlConnPool.init]

theorem Accounted.nonempty (accounted : Accounted connections server) {i : Nat} {caller : Caller Conn}
    (there : server.callers[i]? = some caller) (pop : caller.stage = .pop) : server.pool.connQue ≠ [] := by
  have some : 0 < server.callers.countP takes :=
    List.countP_pos_iff.mpr ⟨caller, List.mem_of_getElem? there, decide_eq_true pop⟩
  have permits := accounted.permits
  apply List.ne_nil_of_length_pos
  omega

/-- One thread has moved: what it has brings the account into balance again. -/
theorem Accounted.moved (accounted : Accounted connections server) {i : Nat} {caller caller' : Caller Conn}
    {pool' : SqlConnPool Conn} (there : server.callers[i]? = some caller) (max : pool'.maxConn = server.pool.maxConn)
    (permits : pool'.semId + (if takes caller' then 1 else 0) + server.pool.connQue.length =
      server.pool.semId + (if takes caller then 1 else 0) + pool'.connQue.length)
    (places : pool'.connQue ++ caller'.held ~ server.pool.connQue ++ caller.held) :
    Accounted connections { pool := pool', callers := server.callers.set i caller' } where
  max := max.trans accounted.max
  permits := by
    obtain ⟨bound, same⟩ := List.getElem?_eq_some_iff.mp there
    have count := @Grid.countP_set_add _ takes _ _ bound caller'
    rw [same] at count
    have before := accounted.permits
    simp only
    omega
  places := by
    -- Both sides are compared with what the thread had before added.
    have exchanged := Slots.flatMap_set_perm Caller.held caller' there
    rw [← List.perm_append_right_iff caller.held]
    calc (pool'.connQue ++ (server.callers.set i caller').flatMap Caller.held) ++ caller.held
      _ = pool'.connQue ++ ((server.callers.set i caller').flatMap Caller.held ++ caller.held) := List.append_assoc _ _ _
      _ ~ pool'.connQue ++ (server.callers.flatMap Caller.held ++ caller'.held) := exchanged.append_left _
      _ ~ pool'.connQue ++ (caller'.held ++ server.callers.flatMap Caller.held) := List.perm_append_comm.append_left _
      _ = (pool'.connQue ++ caller'.held) ++ server.callers.flatMap Caller.held := (List.append_assoc _ _ _).symm
      _ ~ (server.pool.connQue ++ caller.held) ++ server.callers.flatMap Caller.held := places.append_right _
      _ = server.pool.connQue ++ (caller.held ++ server.callers.flatMap Caller.held) := List.append_assoc _ _ _
      _ ~ server.pool.connQue ++ (server.callers.flatMap Caller.held ++ caller.held) := List.perm_append_comm.append_left _
      _ = (server.pool.connQue ++ server.callers.flatMap Caller.held) ++ caller.held := (List.append_assoc _ _ _).symm
      _ ~ connections ++ caller.held := accounted.places.append_right _

theorem Accounted.getConn (accounted : Accounted connections server) {i : Nat} {caller caller' : Caller Conn}
    {pool' : SqlConnPool Conn} (there : server.callers[i]? = some caller)
    (taken : caller.advance server.pool = some (caller', pool')) :
    Accounted connections { pool := pool', callers := server.callers.set i caller' } := by
  rw [Caller.advance] at taken
  cases stage : caller.stage with
  | idle =>
    rw [stage] at taken
    cases taken
    exact accounted.moved there rfl (by simp [takes, stage]) (.refl _)
  | empty =>
    rw [stage] at taken
    cases taken
    refine accounted.moved there rfl ?_ (.refl _)
    by_cases empty : server.pool.connQue = [] <;> simp [takes, stage, empty]
  | semWait =>
    simp only [stage, semWait] at taken
    by_cases free : 0 < server.pool.semId
    · rw [if_pos free] at taken
      cases taken
      refine accounted.moved there rfl ?_ (.refl _)
      simp only [takes, stage, decide_true, decide_false, if_true, if_false, reduceCtorEq, Bool.false_eq_true]
      omega
    · rw [if_neg free] at taken
      cases taken
  | pop =>
    simp only [stage, popConn] at taken
    cases queue : server.pool.connQue with
    | nil => exact absurd queue (accounted.nonempty there stage)
    | cons sql rest =>
      rw [queue] at taken
      cases taken
      refine accounted.moved there rfl ?_ ?_
      · simp only [takes, stage, queue, List.length_cons, decide_true, decide_false, if_true, if_false, reduceCtorEq,
          Bool.false_eq_true]
        omega
      · rw [queue]
        exact List.perm_middle

variable [DecidableEq Conn]

theorem Accounted.freeConn (accounted : Accounted connections server) {i : Nat} {caller caller' : Caller Conn}
    {pool' : SqlConnPool Conn} {sql : Conn} (there : server.callers[i]? = some caller)
    (taken : caller.giveBack sql server.pool = some (caller', pool')) :
    Accounted connections { pool := pool', callers := server.callers.set i caller' } := by
  rw [Caller.giveBack] at taken
  split at taken
  next holds =>
    cases taken
    refine accounted.moved there rfl ?_ ?_
    · simp only [takes, holds.1, SqlConnPool.freeConn, List.length_append, List.length_singleton, decide_false, if_false,
        reduceCtorEq, Bool.false_eq_true]
      omega
    · rw [SqlConnPool.freeConn, List.append_assoc, List.singleton_append]
      exact (List.perm_cons_erase holds.2).symm.append_left _
  next => cases taken

theorem Accounted.step (accounted : Accounted connections server) {action : Action Conn}
    (taken : server.step action = some next) : Accounted connections next := by
  cases action with
  | arrive =>
    cases taken
    refine ⟨accounted.max, ?_, ?_⟩
    · rw [List.countP_append]
      exact accounted.permits
    · rw [List.flatMap_append]
      simpa using accounted.places
  | getConn i =>
    simp only [Callers.step, Option.bind_eq_bind, Option.bind_eq_some_iff] at taken
    obtain ⟨caller, there, ⟨caller', pool'⟩, moved, result⟩ := taken
    cases result
    exact accounted.getConn there moved
  | freeConn i sql =>
    simp only [Callers.step, Option.bind_eq_bind, Option.bind_eq_some_iff] at taken
    obtain ⟨caller, there, ⟨caller', pool'⟩, moved, result⟩ := taken
    cases result
    exact accounted.freeConn there moved

/-- For any number of threads and any interleaving of their steps: the locked section of `GetConn`
finds a connection, every connection is in the queue or with one thread, and the queue is not
longer than the pool. -/
theorem getConn_accounts (distinct : connections.Nodup) {actions : List (Action Conn)} {final : Callers Conn}
    (run : Run Callers.step { pool := SqlConnPool.init connections } actions final) :
    (∀ (i : Nat) (caller : Caller Conn), final.callers[i]? = some caller → caller.stage = .pop → final.pool.connQue ≠ []) ∧
      (final.pool.connQue ++ final.callers.flatMap Caller.held).Nodup ∧
      final.pool.connQue.length ≤ final.pool.maxConn := by
  have accounted : Accounted connections final := run.invariant (fun _ _ _ kept taken => kept.step taken) (accounted_init _)
  refine ⟨fun i caller there pop => accounted.nonempty there pop, accounted.places.nodup_iff.mpr distinct, ?_⟩
  have length := accounted.places.length_eq
  rw [List.length_append] at length
  rw [accounted.max]
  omega

/-- Two threads that both pass the test, of which one waits until the other gives back. -/
theorem getConn_accounts_one_connection :
    ∃ final : Callers Nat, (final.pool.connQue ++ final.callers.flatMap Caller.held).Nodup ∧
      final.pool.connQue.length ≤ final.pool.maxConn ∧ final.callers.map Caller.held = [[], [1]] := by
  obtain ⟨final, run, holds⟩ := @run_of_check _ _ (@Callers.step Nat _)
    (fun server => decide (server.callers.map Caller.held = [[], [1]])) { pool := SqlConnPool.init [1] }
    [.arrive, .arrive, .getConn 0, .getConn 1, .getConn 0, .getConn 1, .getConn 0, .getConn 0, .freeConn 0 1,
      .getConn 1, .getConn 1] (by decide)
  obtain ⟨_, once, most⟩ := getConn_accounts (by decide) run
  exact ⟨final, once, most, of_decide_eq_true holds⟩

end HttpFramework.Code.SqlConnPool.Callers
