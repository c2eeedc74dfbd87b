import HttpFramework.Proofs.PoolDraining
import HttpFramework.Proofs.ServerOwnership

/-! The threads of the web server. The pool of the server is used as it should be, so that no task is
forgotten in its queue, and where the server has nothing left to do, every open connection waits
for its client. With a time limit the first pass of the loop already goes wrong. -/

namespace HttpFramework.Code.WebServer
open Transition

variable {config : Config} {server next : WebServer} {thread fd : Nat}

/-- The calls of `notify_one` that the thread of `Start` has still to make. -/
def MainThread.owes : MainThread → Nat
  | .notify _ => 1
  | .closeConn _ _ next => next.owes
  | .pass | .expired _ | .wait | .handle _ | .accept _ | .addFd .. => 0

/-- The pool as the server uses it. -/
structure Staffed (server : WebServer) : Prop where
  valid : server.pool.Valid
  open' : server.pool.destructor = .notCalled
  owed : server.pool.unnotified = server.main.owes

/-- A step that leaves the pool alone. -/
theorem Staffed.aside (staffed : server.Staffed) (pool : next.pool = server.pool) (owes : next.main.owes = server.main.owes) :
    next.Staffed where
  valid := pool ▸ staffed.valid
  open' := pool ▸ staffed.open'
  owed := by rw [pool, owes, staffed.owed]

theorem closePart_aside (fd : Nat) (closing : Closing) (server : WebServer) :
    (server.closePart fd closing).1.pool = server.pool ∧ (server.closePart fd closing).1.main = server.main := by
  cases closing with
  | delFd =>
    rw [closePart, delFd]
    split <;> exact ⟨rfl, rfl⟩
  | shut =>
    rw [closePart]
    split
    · exact ⟨rfl, rfl⟩
    · dsimp only
      split <;> exact ⟨rfl, rfl⟩
  | close =>
    rw [closePart, closeFd]
    split <;> exact ⟨rfl, rfl⟩

/-- A thread goes on with its task, or is done with it. -/
theorem Staffed.resume (staffed : server.Staffed) {work : Work} (doing : server.workOf thread = some work)
    (main : next.main = server.main) {work' : Work} (pool : next.pool = server.pool.resume thread work') : next.Staffed where
  valid := pool ▸ staffed.valid.resume (workOf_eq.mp doing) work'
  open' := by rw [pool]; exact staffed.open'
  owed := by rw [pool, main]; exact staffed.owed

theorem Staffed.finish (staffed : server.Staffed) {work : Work} (doing : server.workOf thread = some work)
    (main : next.main = server.main) (pool : next.pool = { server.pool with threads := server.pool.threads.set thread .awake }) :
    next.Staffed where
  valid := pool ▸ staffed.valid.wake (workOf_eq.mp doing) rfl server.pool.unnotified (by omega) id
  open' := by rw [pool]; exact staffed.open'
  owed := by rw [pool, main]; exact staffed.owed

theorem Staffed.deal (staffed : server.Staffed) (before : server.main.owes = 0) (work : Work) (reports : List Report) :
    (server.deal work reports).Staffed where
  valid := staffed.valid.addTask staffed.open' work
  open' := staffed.open'
  owed := by
    show server.pool.unnotified + 1 = 1
    rw [staffed.owed, before]

theorem Staffed.handle (staffed : server.Staffed) (before : server.main.owes = 0) (report : Report) (reports : List Report) :
    (server.handle config report reports).Staffed := by
  have aside : ∀ main : MainThread, main.owes = 0 → Staffed { server with main } :=
    fun main none => staffed.aside rfl (none.trans before.symm)
  have crashed : Staffed { server with crash := some .users } := staffed.aside rfl rfl
  rw [WebServer.handle]
  split
  · exact aside _ rfl
  · split
    · split
      · exact aside _ rfl
      · exact crashed
    · split
      · split
        · exact staffed.deal before _ _
        · exact crashed
      · split
        · split
          · exact staffed.deal before _ _
          · exact crashed
        · exact aside _ rfl

theorem Staffed.go (staffed : server.Staffed) (taken : server.go config server.main = some next) : next.Staffed := by
  cases main : server.main with
  | pass => rw [main] at taken; cases taken
  | wait => rw [main] at taken; cases taken
  | accept reports => rw [main] at taken; cases taken
  | notify reports => rw [main] at taken; cases taken
  | expired fds =>
    rw [main] at taken
    cases fds with
    | nil =>
      cases taken
      exact staffed.aside rfl (by rw [main]; rfl)
    | cons fd fds =>
      cases taken
      exact staffed.aside rfl (by rw [main]; rfl)
  | handle reports =>
    rw [main] at taken
    cases reports with
    | nil =>
      cases taken
      exact staffed.aside rfl (by rw [main]; rfl)
    | cons report reports =>
      cases taken
      exact staffed.handle (by rw [main]; rfl) report reports
  | addFd fd reports =>
    rw [main] at taken
    cases taken
    refine staffed.aside ?_ ?_
    · rw [addFd]
      split <;> rfl
    · rw [main]
      dsimp only
      split <;> rfl
  | closeConn fd closing rest =>
    obtain ⟨pool, _⟩ := closePart_aside fd closing server
    rw [main, WebServer.go] at taken
    split at taken <;> cases taken
    next closed closing' same =>
      rw [same] at pool
      exact staffed.aside pool (by rw [main]; rfl)
    next closed same =>
      rw [same] at pool
      exact staffed.aside pool (by rw [main]; rfl)

/-- A step of the pool that is no call of `AddTask` and no destruction. -/
theorem Staffed.pool (staffed : server.Staffed) {action : ThreadPool.Action Work} {pool : ThreadPool Work} {main : MainThread}
    (taken : server.pool.step action = some pool) (open' : pool.destructor = .notCalled) (owed : pool.unnotified = main.owes) :
    Staffed { server with pool, main } := ⟨staffed.valid.step taken, open', owed⟩

theorem notifyOne_aside {pool pool' : ThreadPool Work} {woken : Option Nat} (taken : pool.step (.notifyOne woken) = some pool') :
    pool'.destructor = pool.destructor ∧ pool'.unnotified = pool.unnotified - 1 := by
  rw [ThreadPool.step] at taken
  split at taken
  · cases woken with
    | none =>
      rw [ThreadPool.notifyOne] at taken
      split at taken <;> cases taken
      exact ⟨rfl, rfl⟩
    | some thread =>
      rw [ThreadPool.notifyOne] at taken
      split at taken <;> cases taken
      exact ⟨rfl, rfl⟩
  · cases taken

theorem wake_aside {pool pool' : ThreadPool Work} (taken : pool.step (.wake thread) = some pool') :
    pool'.destructor = pool.destructor ∧ pool'.unnotified = pool.unnotified := by
  rw [ThreadPool.step] at taken
  split at taken <;> cases taken
  exact ⟨rfl, rfl⟩

theorem check_aside {pool pool' : ThreadPool Work} (taken : pool.step (.check thread) = some pool') :
    pool'.destructor = pool.destructor ∧ pool'.unnotified = pool.unnotified := by
  rw [ThreadPool.step] at taken
  split at taken <;> cases taken
  rw [ThreadPool.check]
  split <;> exact ⟨rfl, rfl⟩

theorem Staffed.process (staffed : server.Staffed) {work : Work} (doing : server.workOf thread = some work) (env : Environment)
    (client : Client) : (server.process env thread fd client).Staffed := by
  rcases process_cases env thread fd client server with ⟨fault, _, ended⟩ | ⟨after, event, _, goes⟩
  · rw [ended]
    exact staffed.aside rfl rfl
  · rw [goes]
    exact staffed.resume doing rfl rfl

theorem Staffed.read (staffed : server.Staffed) {env : Environment} {results : List Readv} {work : Work}
    (doing : server.workOf thread = some work) (taken : server.readClient env thread fd results = some next) : next.Staffed := by
  obtain ⟨client, _, rest⟩ := Option.bind_eq_some_iff.mp taken
  obtain ⟨done, _, rest⟩ := Option.bind_eq_some_iff.mp rest
  split at rest
  · cases rest
    exact staffed.aside rfl rfl
  · split at rest
    · cases rest
      exact staffed.resume doing rfl rfl
    · cases rest
      exact staffed.process doing _ _

theorem Staffed.write (staffed : server.Staffed) {env : Environment} {results : List Writev} {work : Work}
    (doing : server.workOf thread = some work) (taken : server.writeClient env thread fd results = some next) : next.Staffed := by
  obtain ⟨client, _, rest⟩ := Option.bind_eq_some_iff.mp taken
  obtain ⟨done, _, rest⟩ := Option.bind_eq_some_iff.mp rest
  split at rest
  · cases rest
    exact staffed.aside rfl rfl
  · dsimp only at rest
    split at rest
    · cases rest
      exact staffed.process doing _ _
    · cases rest
      exact staffed.resume doing rfl rfl
    · cases rest
      exact staffed.resume doing rfl rfl

theorem Staffed.work (staffed : server.Staffed) {work : Work} (doing : server.workOf thread = some work)
    (taken : server.work thread work = some next) : next.Staffed := by
  cases work with
  | onRead fd => cases taken
  | onWrite fd => cases taken
  | modFd fd event =>
    cases taken
    have aside : (server.modFd fd event).pool = server.pool ∧ (server.modFd fd event).main = server.main := by
      rw [modFd]
      split <;> exact ⟨rfl, rfl⟩
    exact staffed.finish doing aside.2 (by rw [WebServer.finish, aside.1])
  | closeConn fd closing =>
    obtain ⟨pool, main⟩ := closePart_aside fd closing server
    rw [WebServer.work] at taken
    split at taken <;> cases taken
    next closed closing' same =>
      rw [same] at pool main
      exact staffed.resume doing main (by rw [WebServer.resume, pool])
    next closed same =>
      rw [same] at pool main
      exact staffed.finish doing main (by rw [WebServer.finish, pool])

theorem Staffed.step (staffed : server.Staffed) {action : Action} (taken : server.step config action = some next) :
    next.Staffed := by
  rw [WebServer.step] at taken
  split at taken
  · cases taken
  · cases action with
    | pass now later =>
      rw [act] at taken
      split at taken <;> cases taken
      next main =>
        rw [WebServer.pass]
        split
        · split
          · exact staffed.aside rfl rfl
          · exact staffed.aside rfl (by rw [main]; rfl)
        · exact staffed.aside rfl (by rw [main]; rfl)
    | wait reports =>
      rw [act] at taken
      split at taken
      next main =>
        rw [WebServer.wait] at taken
        split at taken <;> cases taken
        exact staffed.aside rfl (by rw [main]; rfl)
      next => cases taken
    | accept accepted now =>
      rw [act] at taken
      split at taken
      next reports main =>
        cases accepted with
        | none =>
          cases taken
          exact staffed.aside rfl (by rw [main]; rfl)
        | some fd =>
          rw [WebServer.accept] at taken
          split at taken
          · cases taken
          · split at taken
            · cases taken
              exact staffed.aside rfl (by rw [main]; rfl)
            · rw [addClient] at taken
              split at taken
              · obtain ⟨timer, _, rest⟩ := Option.bind_eq_some_iff.mp taken
                cases rest
                exact staffed.aside rfl (by rw [main]; rfl)
              · cases taken
                exact staffed.aside rfl (by rw [main]; rfl)
      next => cases taken
    | notify woken =>
      rw [act] at taken
      split at taken
      next reports main =>
        obtain ⟨pool, notified, rfl⟩ := Option.map_eq_some_iff.mp taken
        obtain ⟨destructor, unnotified⟩ := notifyOne_aside notified
        refine staffed.pool notified (destructor.trans staffed.open') ?_
        rw [unnotified, staffed.owed, main]
        rfl
      next => cases taken
    | go => exact staffed.go taken
    | check thread =>
      obtain ⟨pool, checked, rfl⟩ := Option.map_eq_some_iff.mp taken
      obtain ⟨destructor, unnotified⟩ := check_aside checked
      exact staffed.pool checked (destructor.trans staffed.open') (unnotified.trans staffed.owed)
    | wake thread =>
      obtain ⟨pool, woken, rfl⟩ := Option.map_eq_some_iff.mp taken
      obtain ⟨destructor, unnotified⟩ := wake_aside woken
      exact staffed.pool woken (destructor.trans staffed.open') (unnotified.trans staffed.owed)
    | read thread files userVerify results =>
      rw [act] at taken
      split at taken
      next fd doing => exact staffed.read doing taken
      next => cases taken
    | write thread files userVerify results =>
      rw [act] at taken
      split at taken
      next fd doing => exact staffed.write doing taken
      next => cases taken
    | work thread =>
      obtain ⟨work, doing, worked⟩ := Option.bind_eq_some_iff.mp taken
      exact staffed.work doing worked

theorem staffed_run {threadNum : Nat} (positive : 0 < threadNum) {actions : List Action}
    (ran : Run (WebServer.step config) (new threadNum) actions server) : server.Staffed :=
  Run.invariant (fun _ _ _ staffed taken => Staffed.step staffed taken)
    ⟨ThreadPool.valid_new positive, rfl, rfl⟩ ran

theorem step_of_act (alive : server.crash = none) {action : Action} (taken : server.act config action = some next) :
    server.step config action = some next := by
  rw [step, alive]
  exact taken

/-- All that is left to the server is to wait for an event. -/
def Quiescent (config : Config) (server : WebServer) : Prop :=
  ∀ action next, server.step config action = some next → (∃ reports, action = .wait reports) ∨ ∃ thread, action = .wake thread

/-- Somebody can always be notified, or there is nobody to be. -/
theorem notifyOne_enabled {pool : ThreadPool Work} (owed : 0 < pool.unnotified) : ∃ woken next, pool.step (.notifyOne woken) = some next := by
  by_cases some : pool.threads.any PoolThread.isWaiting = true
  · obtain ⟨item, member, waits⟩ := List.any_eq_true.mp some
    obtain ⟨thread, inside, rfl⟩ := List.mem_iff_getElem.mp member
    have there := List.getElem?_eq_getElem inside
    cases item : pool.threads[thread] <;> rw [item] at waits <;> try cases waits
    rw [item] at there
    exact ⟨_, _, by rw [ThreadPool.step, if_pos owed, ThreadPool.notifyOne, there]⟩
  · exact ⟨none, _, by rw [ThreadPool.step, if_pos owed, ThreadPool.notifyOne, if_neg some]⟩

theorem Quiescent.main (quiescent : server.Quiescent config) (alive : server.crash = none) (sane : server.main.Sane config.listenFd)
    (staffed : server.Staffed) : server.main = .wait := by
  have going : ∀ next, server.go config server.main ≠ some next := by
    intro next taken
    rcases quiescent .go next (step_of_act alive taken) with ⟨_, wrong⟩ | ⟨_, wrong⟩ <;> cases wrong
  cases main : server.main with
  | wait => rfl
  | expired fds =>
    rw [main] at sane
    cases sane
  | pass =>
    rcases quiescent (.pass (fun _ => 0) 0) _ (step_of_act alive (by rw [act, if_pos main])) with
      ⟨_, wrong⟩ | ⟨_, wrong⟩ <;> cases wrong
  | handle reports =>
    rw [main] at going
    cases reports <;> exact absurd rfl (going _)
  | addFd fd reports =>
    rw [main] at going
    exact absurd rfl (going _)
  | closeConn fd closing rest =>
    rw [main, WebServer.go] at going
    split at going <;> exact absurd rfl (going _)
  | accept reports =>
    rcases quiescent (.accept none 0) { server with main := .handle reports }
      (step_of_act alive (by rw [act, main]; rfl)) with ⟨_, wrong⟩ | ⟨_, wrong⟩ <;> cases wrong
  | notify reports =>
    have owed := staffed.owed
    rw [main] at owed
    obtain ⟨woken, pool, notified⟩ := notifyOne_enabled (show 0 < server.pool.unnotified by rw [owed]; exact Nat.one_pos)
    rcases quiescent (.notify woken) _ (step_of_act alive (by rw [act, main, notified]; rfl)) with
      ⟨_, wrong⟩ | ⟨_, wrong⟩ <;> cases wrong

/-- A thread that is in a task can go on, if only because nothing comes from the client or goes to it. -/
theorem Owned.work_enabled (owned : Owned config server) (alive : server.crash = none) {work : Work}
    (doing : server.workOf thread = some work) :
    ∃ action next, server.step config action = some next ∧ (∀ reports, action ≠ .wait reports) ∧ ∀ other, action ≠ .wake other := by
  have there : work.place ∈ server.places config := mem_places_of_workOf doing
  cases work with
  | onRead fd =>
    obtain ⟨client, known, _⟩ := owned.known fd _ there
    have called : ∀ env, ∃ next, server.readClient env thread fd [.failed true] = some next := by
      intro env
      rw [readClient, known]
      exact ⟨_, rfl⟩
    obtain ⟨next, taken⟩ := called (config.environment ⟨.fresh [], fun _ => false, fun _ => false⟩ fun _ _ _ => none)
    refine ⟨.read thread ⟨.fresh [], fun _ => false, fun _ => false⟩ (fun _ _ _ => none) [.failed true], next,
      step_of_act alive ?_, (fun _ wrong => by cases wrong), (fun _ wrong => by cases wrong)⟩
    rw [act, doing]
    exact taken
  | onWrite fd =>
    obtain ⟨client, known, _⟩ := owned.known fd _ there
    have called : ∀ env, ∃ next, server.writeClient env thread fd [.failed true] = some next := by
      intro env
      have written : client.conn.write env.isET [.failed true] = some (.ok (client.conn, .failed true)) := rfl
      rw [writeClient, known]
      simp only [written, bind, Option.bind]
      split <;> exact ⟨_, rfl⟩
    obtain ⟨next, taken⟩ := called (config.environment ⟨.fresh [], fun _ => false, fun _ => false⟩ fun _ _ _ => none)
    refine ⟨.write thread ⟨.fresh [], fun _ => false, fun _ => false⟩ (fun _ _ _ => none) [.failed true], next,
      step_of_act alive ?_, (fun _ wrong => by cases wrong), (fun _ wrong => by cases wrong)⟩
    rw [act, doing]
    exact taken
  | modFd fd event =>
    refine ⟨.work thread, (server.modFd fd event).finish thread, step_of_act alive ?_, (fun _ wrong => by cases wrong),
      (fun _ wrong => by cases wrong)⟩
    rw [act, doing]
    rfl
  | closeConn fd closing =>
    have goes : ∃ next, server.work thread (.closeConn fd closing) = some next := by
      rw [WebServer.work]
      split <;> exact ⟨_, rfl⟩
    obtain ⟨next, taken⟩ := goes
    refine ⟨.work thread, next, step_of_act alive ?_, (fun _ wrong => by cases wrong), (fun _ wrong => by cases wrong)⟩
    rw [act, doing]
    exact taken

/-- All threads of the pool wait. -/
theorem Quiescent.threads (quiescent : server.Quiescent config) (alive : server.crash = none) (owned : Owned config server)
    (staffed : server.Staffed) : ∀ item ∈ server.pool.threads, item = .waiting := by
  intro item member
  obtain ⟨thread, inside, rfl⟩ := List.mem_iff_getElem.mp member
  have there := List.getElem?_eq_getElem inside
  cases item : server.pool.threads[thread] with
  | waiting => rfl
  | exited =>
    have closed := (staffed.valid.exited (item ▸ member)).1
    exact absurd staffed.open' (staffed.valid.closed.mp closed)
  | awake =>
    rw [item] at there
    rcases quiescent (.check thread) _ (step_of_act alive (by rw [act, ThreadPool.step, there]; rfl)) with
      ⟨_, wrong⟩ | ⟨_, wrong⟩ <;> cases wrong
  | running work =>
    rw [item] at there
    obtain ⟨action, next, taken, noWait, noWake⟩ := owned.work_enabled alive (workOf_eq.mpr there)
    rcases quiescent action next taken with ⟨reports, wait⟩ | ⟨other, wake⟩
    · exact absurd wait (noWait reports)
    · exact absurd wake (noWake other)

/-- In every run: where nothing is left to the server but to wait for an event, its queue is empty, and every
open connection is waited for. No request has been left behind on the way. -/
theorem quiescent_waits (untimed : config.timeoutMS ≤ 0) {threadNum : Nat} (positive : 0 < threadNum) {actions : List Action}
    (ran : Run (WebServer.step config) (new threadNum) actions server) (alive : server.crash = none)
    (quiescent : server.Quiescent config) :
    server.main = .wait ∧ server.pool.tasks = [] ∧ ∀ fd ∈ server.opened, ∃ event, (fd, event) ∈ server.armed := by
  have owned := owned_run untimed ran
  have staffed := staffed_run positive ran
  have main := quiescent.main alive owned.sane staffed
  have threads := quiescent.threads alive owned staffed
  have idle : server.pool.threads.filterMap PoolThread.task? = [] := by
    apply List.filterMap_eq_nil_iff.mpr
    intro item member
    rw [threads item member]
    rfl
  have empty : server.pool.tasks = [] := by
    obtain ⟨item, member⟩ := List.exists_mem_of_ne_nil _ staffed.valid.staffed
    have covered := staffed.valid.covered (threads item member ▸ member)
    have none : server.pool.awake = 0 := by
      apply List.countP_eq_zero.mpr
      intro item member
      rw [threads item member]
      decide
    rw [staffed.owed, main, none] at covered
    exact List.length_eq_zero_iff.mp (Nat.eq_zero_of_le_zero covered)
  refine ⟨main, empty, ?_⟩
  intro fd open'
  obtain ⟨stage, there⟩ := owned.complete.has (Multiset.mem_coe.mpr open')
  rw [places, main, empty, busyPlaces, idle] at there
  simp only [MainThread.places, queuedPlaces, List.map_nil, Multiset.coe_nil, Multiset.add_zero] at there
  obtain ⟨event, armed, _⟩ := mem_armedPlaces.mp there
  exact ⟨event, armed⟩

/-- Conversely, there is nothing else to be done where all threads wait. -/
theorem quiescent_of_waiting (main : server.main = .wait) (threads : ∀ item ∈ server.pool.threads, item = PoolThread.waiting) :
    server.Quiescent config := by
  have idle : ∀ (thread : Nat) item, server.pool.threads[thread]? = some item → item = .waiting :=
    fun thread item there => threads item (List.mem_of_getElem? there)
  have unbound : ∀ thread, server.workOf thread = none := by
    intro thread
    cases doing : server.workOf thread with
    | none => rfl
    | some work => cases idle thread _ (workOf_eq.mp doing)
  intro action next taken
  rw [step] at taken
  split at taken
  · cases taken
  · cases action with
    | wait reports => exact .inl ⟨reports, rfl⟩
    | wake thread => exact .inr ⟨thread, rfl⟩
    | pass now later => simp [act, main] at taken
    | accept accepted now => simp [act, main] at taken
    | notify woken => simp [act, main] at taken
    | go => simp [act, main, WebServer.go] at taken
    | check thread =>
      rw [act, ThreadPool.step] at taken
      split at taken
      next there => cases idle thread _ there
      next => cases taken
    | read thread files userVerify results => simp [act, unbound] at taken
    | write thread files userVerify results => simp [act, unbound] at taken
    | work thread => simp [act, unbound] at taken

/-- A connection is accepted while the only thread of the pool waits. -/
def oneClient : List Action :=
  [.check 0, .pass (fun _ => 0) 0, .wait [⟨3, { EPOLLIN := true }, .EPOLLIN⟩], .go, .accept (some 5) 0, .go,
    .accept none 0, .go, .pass (fun _ => 0) 0]

theorem quiescent_waits_one : ∃ server, Run (WebServer.step edgeTriggered) (new 1) oneClient server ∧ server.opened = [5] ∧
    ∃ event, (5, event) ∈ server.armed := by
  obtain ⟨server, ran, checked⟩ := @run_of_check _ _ (WebServer.step edgeTriggered) (fun server =>
      decide (server.crash = none ∧ server.main = .wait ∧ server.pool.threads = [PoolThread.waiting] ∧ server.opened = [5]))
    (new 1) oneClient (by decide)
  obtain ⟨alive, main, threads, opened⟩ := of_decide_eq_true checked
  have waiting : ∀ item ∈ server.pool.threads, item = PoolThread.waiting := by
    rw [threads]
    exact fun item member => List.mem_singleton.mp member
  obtain ⟨_, _, armed⟩ := quiescent_waits (by decide) Nat.one_pos ran alive (quiescent_of_waiting main waiting)
  exact ⟨server, ran, opened, armed 5 (by rw [opened]; exact List.mem_singleton_self 5)⟩

/-- Nothing has happened yet, but for the threads of the pool having found their queue empty. -/
structure Unbegun (server : WebServer) : Prop where
  main : server.main = .pass
  timer : server.timer = {}
  idle : queuedPlaces server.pool.tasks + busyPlaces server.pool.threads = 0
  opened : server.opened = []
  users : ∀ fd, server.users fd = none

theorem Unbegun.workOf (unbegun : server.Unbegun) (thread : Nat) : server.workOf thread = none := by
  cases doing : server.workOf thread with
  | none => rfl
  | some work =>
    have there := Multiset.mem_add.mpr (.inr (mem_busyPlaces doing) : _ ∈ queuedPlaces server.pool.tasks ∨ _)
    rw [unbegun.idle] at there
    exact absurd there (Multiset.notMem_zero _)

/-- The heap is empty in the first pass of the loop, and `getNextTick` accesses its front. -/
theorem Unbegun.step (unbegun : server.Unbegun) (timed : 0 < config.timeoutMS) {action : Action}
    (taken : server.step config action = some next) : next.Unbegun ∧ (next.crash = none ∨ next.crash = some .timer) := by
  rw [WebServer.step] at taken
  split at taken
  · cases taken
  next alive =>
    have alive : server.crash = none := Option.not_isSome_iff_eq_none.mp alive
    cases action with
    | pass now later =>
      have nothing : server.timer.getNextTick now later = none := by
        rw [unbegun.timer]
        rfl
      rw [act, if_pos unbegun.main, WebServer.pass, if_pos timed, nothing] at taken
      cases taken
      exact ⟨⟨unbegun.main, unbegun.timer, unbegun.idle, unbegun.opened, unbegun.users⟩, .inr rfl⟩
    | wait reports => simp [act, unbegun.main] at taken
    | accept accepted now => simp [act, unbegun.main] at taken
    | notify woken => simp [act, unbegun.main] at taken
    | go => simp [act, unbegun.main, WebServer.go] at taken
    | read thread files userVerify results => simp [act, unbegun.workOf] at taken
    | write thread files userVerify results => simp [act, unbegun.workOf] at taken
    | work thread => simp [act, unbegun.workOf] at taken
    | check thread =>
      obtain ⟨pool, checked, rfl⟩ := Option.map_eq_some_iff.mp taken
      exact ⟨⟨unbegun.main, unbegun.timer, (check_places checked).trans unbegun.idle, unbegun.opened, unbegun.users⟩, .inl alive⟩
    | wake thread =>
      obtain ⟨pool, woken, rfl⟩ := Option.map_eq_some_iff.mp taken
      exact ⟨⟨unbegun.main, unbegun.timer, (wake_places woken).trans unbegun.idle, unbegun.opened, unbegun.users⟩, .inl alive⟩

/-- With a time limit the server never accepts a connection: in every run the thread of `Start` stays at the head
of its first pass, or accesses the front of the empty heap there. -/
theorem timed_never_serves (timed : 0 < config.timeoutMS) {threadNum : Nat} {actions : List Action}
    (ran : Run (WebServer.step config) (new threadNum) actions server) :
    server.main = .pass ∧ server.opened = [] ∧ (∀ fd, server.users fd = none) ∧ (server.crash = none ∨ server.crash = some .timer) := by
  have idle : queuedPlaces [] + busyPlaces (List.replicate threadNum PoolThread.awake) = 0 := by
    rw [busyPlaces_replicate]
    rfl
  obtain ⟨unbegun, crash⟩ := @Run.invariant _ _ _
    (fun server : WebServer => server.Unbegun ∧ (server.crash = none ∨ server.crash = some .timer))
    (fun _ _ _ unbegun taken => unbegun.1.step timed taken) _ _ _ ⟨⟨rfl, rfl, idle, rfl, fun _ => rfl⟩, .inl rfl⟩ ran
  exact ⟨unbegun.main, unbegun.opened, unbegun.users, crash⟩

theorem timed_never_serves_pass : ∃ server,
    Run (WebServer.step { edgeTriggered with timeoutMS := 60000 }) (new 2) [.check 1, .pass (fun _ => 0) 0] server ∧
      server.opened = [] ∧ (server.crash = none ∨ server.crash = some .timer) := by
  have ran : Run (WebServer.step { edgeTriggered with timeoutMS := 60000 }) (new 2) [.check 1, .pass (fun _ => 0) 0] _ :=
    run_of_foldlM rfl
  obtain ⟨_, opened, _, crash⟩ := timed_never_serves (by decide) ran
  exact ⟨_, ran, opened, crash⟩

end HttpFramework.Code.WebServer
