import HttpFramework.Http.DbConnectionPool
import HttpFramework.Library.Slots
import HttpFramework.Library.Transition

/-! The connections of `DbConnectionPool` are conserved. A connection leaves the queue into a call
and comes back through the deleter of the handle or through the `catch` block, and never through
both, since a call that throws has returned no handle. -/

namespace HttpFramework.Http
open Transition

namespace DbConnectionPool

variable {pool next : DbConnectionPool} {poolSize call : Nat} {conn : DbConnection} {checkout : Checkout}

/-- The connections that calls have in hand or that have been handed out. -/
def checkedOut (pool : DbConnectionPool) : List DbConnection := pool.calls.filterMap Checkout.conn?

/-- The idle connections and those checked out are the ones created, each once. -/
def Conserved (poolSize : Nat) (pool : DbConnectionPool) : Prop :=
  (pool.connections ++ pool.checkedOut).Perm (List.range poolSize)

/-- No connection is idle and checked out, and no two calls have the same one. -/
structure Exclusive (pool : DbConnectionPool) : Prop where
  queued_once : pool.connections.Nodup
  idle : ∀ (call : Nat) (checkout : Checkout) (conn : DbConnection), pool.calls[call]? = some checkout →
    checkout.conn? = some conn → conn ∉ pool.connections
  once : ∀ (call other : Nat) (checkout checkout' : Checkout) (conn : DbConnection),
    pool.calls[call]? = some checkout → pool.calls[other]? = some checkout' →
    checkout.conn? = some conn → checkout'.conn? = some conn → call = other

/-- A call that ends with an exception has put its connection back. -/
def PutsBack (pool : DbConnectionPool) : Action → DbConnectionPool → Prop
  | .advance call _, next => next.calls[call]? = some .threw →
      ∃ checkout conn, pool.calls[call]? = some checkout ∧ checkout.conn? = some conn ∧
        next.connections = pool.connections ++ [conn]
  | _, _ => True

theorem checkedOut_set (there : pool.calls[call]? = some checkout) (new : Checkout) :
    ((pool.set call new).checkedOut ++ checkout.conn?.toList).Perm (pool.checkedOut ++ new.conn?.toList) :=
  Slots.filterMap_set_perm Checkout.conn? new there

/-- A call goes on with the connection that it has. -/
theorem Conserved.set (conserved : pool.Conserved poolSize) (there : pool.calls[call]? = some checkout) {new : Checkout}
    (same : new.conn? = checkout.conn?) : (pool.set call new).Conserved poolSize := by
  have moved := checkedOut_set there new
  rw [same] at moved
  have kept : (pool.set call new).checkedOut.Perm pool.checkedOut := (List.perm_append_right_iff _).mp moved
  exact (kept.append_left _).trans conserved

theorem Conserved.push (conserved : pool.Conserved poolSize) (there : pool.calls[call]? = some checkout)
    (has : checkout.conn? = some conn) {new : Checkout} (none : new.conn? = none) :
    ((pool.push conn).set call new).Conserved poolSize := by
  have moved := checkedOut_set there new
  rw [has, none] at moved
  simp only [Option.toList_some, Option.toList_none, List.append_nil] at moved
  have kept : (((pool.push conn).set call new).connections ++ ((pool.push conn).set call new).checkedOut).Perm
      (pool.connections ++ pool.checkedOut) := by
    show ((pool.connections ++ [conn]) ++ (pool.set call new).checkedOut).Perm _
    rw [List.append_assoc]
    exact (((List.perm_append_comm).trans moved).append_left _)
  exact kept.trans conserved

theorem Conserved.pop (conserved : pool.Conserved poolSize) (there : pool.calls[call]? = some .waiting)
    {rest : List DbConnection} (front : pool.connections = conn :: rest) :
    (({ pool with connections := rest } : DbConnectionPool).set call (.popped conn)).Conserved poolSize := by
  have moved := checkedOut_set there (.popped conn)
  simp only [Checkout.conn?, Option.toList_some, Option.toList_none, List.append_nil] at moved
  have kept : (rest ++ (pool.set call (.popped conn)).checkedOut).Perm (pool.connections ++ pool.checkedOut) := by
    rw [front]
    refine (moved.append_left rest).trans ?_
    rw [← List.append_assoc]
    exact List.perm_append_singleton _ _
  exact kept.trans conserved

theorem Conserved.exclusive (conserved : pool.Conserved poolSize) : pool.Exclusive := by
  have distinct : (pool.connections ++ pool.checkedOut).Nodup := conserved.nodup_iff.mpr List.nodup_range
  obtain ⟨queue, out, apart⟩ := List.nodup_append.mp distinct
  refine ⟨queue, fun call checkout conn there has queued => ?_, fun call other checkout checkout' conn there there' has has' => ?_⟩
  · have held : conn ∈ pool.checkedOut := List.mem_filterMap.mpr ⟨checkout, List.mem_of_getElem? there, has⟩
    exact apart conn queued conn held rfl
  · exact Slots.place_unique out there there' has has'

/-- What is kept by every step after `init` has returned. -/
structure Ready (poolSize : Nat) (pool : DbConnectionPool) : Prop where
  initialized : pool.initialized = true
  conserved : pool.Conserved poolSize

theorem init_ready (poolSize : Nat) : Ready poolSize (({} : DbConnectionPool).init poolSize) where
  initialized := rfl
  conserved := by
    show (([] ++ List.range poolSize) ++ []).Perm (List.range poolSize)
    simp

theorem get_set_self (there : pool.calls[call]? = some checkout) (new : Checkout) :
    (pool.set call new).calls[call]? = some new := by
  have inside : call < pool.calls.length := (List.getElem?_eq_some_iff.mp there).1
  show (pool.calls.set call new)[call]? = some new
  exact List.getElem?_set_self inside

theorem advance_step {result : Result} (ready : Ready poolSize pool) (there : pool.calls[call]? = some checkout)
    (taken : pool.advance call result checkout = some next) :
    pool.PutsBack (.advance call result) next ∧ Ready poolSize next := by
  -- A call that goes on does not end with an exception.
  have goes_on : ∀ {new : Checkout}, new.conn? = checkout.conn? → new ≠ .threw →
      pool.PutsBack (.advance call result) (pool.set call new) ∧ Ready poolSize (pool.set call new) := by
    intro new same running
    refine ⟨fun ended => ?_, ready.initialized, ready.conserved.set there same⟩
    rw [get_set_self there] at ended
    exact absurd (Option.some.inj ended) running
  cases checkout with
  | waiting =>
    cases queue : pool.connections with
    | nil => simp [advance, queue, ready.initialized] at taken
    | cons conn rest =>
      simp only [advance, queue, Option.some.injEq] at taken
      have kept := ready.conserved.pop there queue
      rw [taken] at kept
      refine ⟨fun ended => ?_, by rw [← taken]; exact ready.initialized, kept⟩
      have popped : next.calls[call]? = some (.popped conn) := by
        rw [← taken]
        exact get_set_self there _
      cases popped.symm.trans ended
  | popped conn =>
    cases result <;> cases taken <;> exact goes_on rfl (fun same => by cases same)
  | lost conn =>
    cases result <;> cases taken <;> exact goes_on rfl (fun same => by cases same)
  | caught conn =>
    cases taken
    exact ⟨fun _ => ⟨.caught conn, conn, there, rfl, rfl⟩, ready.initialized, ready.conserved.push there rfl rfl⟩
  | returned conn => cases taken
  | threw => cases taken
  | released => cases taken

theorem step_ready {action : Action} (ready : Ready poolSize pool) (taken : pool.step action = some next) :
    pool.PutsBack action next ∧ Ready poolSize next := by
  cases action with
  | getConnection =>
    cases taken
    refine ⟨trivial, ready.initialized, ?_⟩
    show (pool.connections ++ (pool.calls ++ [Checkout.waiting]).filterMap Checkout.conn?).Perm _
    rw [List.filterMap_append]
    show (pool.connections ++ (pool.checkedOut ++ [])).Perm _
    rw [List.append_nil]
    exact ready.conserved
  | advance call result =>
    obtain ⟨checkout, there, advanced⟩ := Option.bind_eq_some_iff.mp taken
    exact advance_step ready there advanced
  | release call =>
    simp only [step] at taken
    split at taken
    · next conn there =>
      cases taken
      exact ⟨trivial, ready.initialized, ready.conserved.push there rfl rfl⟩
    · cases taken
  | snapshot =>
    simp only [step] at taken
    split at taken
    · cases taken
      exact ⟨trivial, ready.initialized, ready.conserved⟩
    · cases taken
  | check result =>
    simp only [step] at taken
    split at taken
    · cases taken
      exact ⟨trivial, ready.initialized, ready.conserved⟩
    · cases taken

/-- Whatever the threads do, the connections are the `poolSize` ones that `init` has created. -/
theorem connections_conserved {actions : List Action} {final : DbConnectionPool}
    (ran : Run step (({} : DbConnectionPool).init poolSize) actions final) :
    (({} : DbConnectionPool).init poolSize).Conserved poolSize ∧
      Throughout step (fun pool action next => next.Conserved poolSize ∧ next.Exclusive ∧ pool.PutsBack action next)
        (({} : DbConnectionPool).init poolSize) actions := by
  refine ⟨(init_ready poolSize).conserved, Run.throughout ?_ (init_ready poolSize) ran⟩
  intro pool action next ready taken
  obtain ⟨back, kept⟩ := step_ready ready taken
  exact ⟨⟨kept.conserved, kept.conserved.exclusive, back⟩, kept⟩

private theorem failed_call_run : Run step (({} : DbConnectionPool).init 2)
    [.getConnection, .snapshot, .advance 0 .succeeds, .check .fails, .advance 0 .fails, .advance 0 .throws, .advance 0 .throws]
    { connections := [1, 0], initialized := true, calls := [.threw], connsToCheck := [1] } :=
  .cons rfl (.cons rfl (.cons rfl (.cons rfl (.cons rfl (.cons rfl (.cons rfl (.nil _)))))))

theorem connections_conserved_failed_call :
    ∃ final, Run step (({} : DbConnectionPool).init 2)
      [.getConnection, .snapshot, .advance 0 .succeeds, .check .fails, .advance 0 .fails, .advance 0 .throws,
        .advance 0 .throws] final ∧ final.calls = [.threw] ∧
      Throughout step (fun pool action next => next.Conserved 2 ∧ next.Exclusive ∧ pool.PutsBack action next)
        (({} : DbConnectionPool).init 2)
        [.getConnection, .snapshot, .advance 0 .succeeds, .check .fails, .advance 0 .fails, .advance 0 .throws,
          .advance 0 .throws] :=
  ⟨_, failed_call_run, rfl, (connections_conserved failed_call_run).2⟩

end DbConnectionPool

end HttpFramework.Http
