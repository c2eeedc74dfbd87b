import HttpFramework.Proofs.SerialServer
import HttpFramework.Proofs.ServerPlaces
import Mathlib.Algebra.Order.Group.Multiset
import Mathlib.Tactic.Abel

/-! What a step of the web server can do, said once: which connection it takes from where to where, and
what it enters in the lists of the kernel and in `users_`. -/

namespace HttpFramework.Code.WebServer
open Custody

variable {config : Config} {offered : Option Input} {server next : WebServer} {thread fd : Nat}

/-- The thread that runs `Start` calls no callbacks of timers, and what it has in its hands was
reported to it as `epoll` reports. -/
def MainThread.Sane (listenFd : Nat) : MainThread → Prop
  | .pass | .wait => True
  | .expired _ => False
  | .handle reports | .accept reports | .addFd _ reports | .notify reports =>
    ∀ report ∈ reports, report.fd ≠ listenFd → report.events.reportable report.waited = true
  | .closeConn _ _ next => next.Sane listenFd

/-- The entry of a connection is closed once, when its socket is about to be. -/
def Stage.Fits (stage : Stage) (client : Client) : Prop :=
  if stage = .closes .close then client.closed = client else client.conn.isClose = false

/-- Every open socket is in one place, and the lists agree with where it is. -/
structure Owned (config : Config) (server : WebServer) : Prop where
  complete : Complete server.opened (server.places config)
  registered : server.registered.Nodup
  listed : ∀ fd, fd ∈ server.registered ↔ ∃ stage : Stage, (fd, stage) ∈ server.places config ∧ stage.listed = true
  listen : config.listenFd ∉ server.opened
  known : ∀ fd stage, (fd, stage) ∈ server.places config →
    ∃ client, server.users fd = some client ∧ stage.Fits client
  rested : ∀ fd client, fd ∉ server.opened → server.users fd = some client → client.closed = client
  counted : server.userCount = (server.places config).countP fun place => place.2.counted = true
  most : server.userCount ≤ MAX_FD
  granted : server.refused = false
  crashed : ∀ crash, server.crash = some crash → ∃ fault, crash = .thread fault
  sane : server.main.Sane config.listenFd

/-- All but where the connections are. -/
structure Books where
  opened : List Nat
  registered : List Nat
  users : Nat → Option Client
  userCount : Int
  refused : Bool
  crash : Option Crash

def books (server : WebServer) : Books :=
  ⟨server.opened, server.registered, server.users, server.userCount, server.refused, server.crash⟩

/-- What a call leaves behind: the client and where it goes from there, and the same as the call done at
once has it. -/
inductive Left (client : Client) : Stage → Client × Option Event → Prop where
  | again (event : Event) : Left client (.serves event) (client, some event)
  | ends : Left client (.closes .delFd) (client.closed, none)

/-- `offered` is what a call meets with, if the step makes one. -/
inductive Effect (config : Config) (offered : Option Input) (server next : WebServer) : Prop where
  | moved (call : offered = none) (places : next.places config = server.places config) (books : next.books = server.books)
  | crashed (fault : Fault) (ended : next = { server with crash := some (.thread fault) })
  | accepted (call : offered = none) (fd : Nat) (conn : HttpConn) (new : fd ∉ server.opened) (other : fd ≠ config.listenFd)
      (room : server.userCount < MAX_FD)
      (entry : conn = (match server.users fd with | some client => client.conn | none => HttpConn.new (config.memory fd)).init)
      (places : next.places config = server.places config + {(fd, .fresh)})
      (books : next.books = { server.books with
        opened := fd :: server.opened, users := Function.update server.users fd (some { conn }), userCount := server.userCount + 1 })
  | listed (call : offered = none) (fd : Nat) (there : (fd, .fresh) ∈ server.places config)
      (places : next.places config + {(fd, .fresh)} = server.places config + {(fd, .serves .EPOLLIN)})
      (books : next.books = { server.books with registered := fd :: server.registered })
  | served (fd : Nat) (event : Event) (input : Input) (client client' : Client) (stage : Stage) (after : Client × Option Event)
      (call : offered = some input) (there : (fd, .serves event) ∈ server.places config) (known : server.users fd = some client)
      (done : client.serve config event input = some (.ok after)) (left : Left client' stage after)
      (alive : client'.conn.isClose = client.conn.isClose)
      (places : next.places config + {(fd, .serves event)} = server.places config + {(fd, stage)})
      (books : next.books = { server.books with users := Function.update server.users fd (some client') })
  | gaveUp (call : offered = none) (fd : Nat) (event : Event) (there : (fd, .serves event) ∈ server.places config)
      (places : next.places config + {(fd, .serves event)} = server.places config + {(fd, .closes .delFd)})
      (books : next.books = server.books)
  | unlisted (call : offered = none) (fd : Nat) (there : (fd, .closes .delFd) ∈ server.places config)
      (places : next.places config + {(fd, .closes .delFd)} = server.places config + {(fd, .closes .shut)})
      (books : next.books = { server.books with registered := server.registered.erase fd })
  | shut (call : offered = none) (fd : Nat) (client : Client) (there : (fd, .closes .shut) ∈ server.places config) (known : server.users fd = some client)
      (places : next.places config + {(fd, .closes .shut)} = server.places config + {(fd, .closes .close)})
      (books : next.books = { server.books with
        users := Function.update server.users fd (some client.closed), userCount := server.userCount - 1 })
  | closed (call : offered = none) (fd : Nat) (places : next.places config + {(fd, .closes .close)} = server.places config)
      (books : next.books = { server.books with opened := server.opened.erase fd })

/-- A thread of the pool comes to something else. -/
theorem places_busy {work : Work} (doing : server.workOf thread = some work) {item : PoolThread Work} (armed : next.armed = server.armed)
    (main : next.main = server.main) (tasks : next.pool.tasks = server.pool.tasks)
    (threads : next.pool.threads = server.pool.threads.set thread item) :
    next.places config + {work.place} =
      server.places config + ((item.task?.toList.map Work.place : List _) : Multiset _) := by
  have moved : busyPlaces (server.pool.threads.set thread item) + {work.place} = _ := busyPlaces_set (workOf_eq.mp doing) item
  simp only [places, armed, main, tasks, threads, Multiset.add_assoc, moved]

theorem places_resume {work : Work} (work' : Work) (doing : server.workOf thread = some work) (armed : next.armed = server.armed)
    (main : next.main = server.main) (pool : next.pool = server.pool.resume thread work') :
    next.places config + {work.place} = server.places config + {work'.place} :=
  places_busy doing armed main (by rw [pool]; rfl) (by rw [pool]; rfl)

theorem places_finish {work : Work} (doing : server.workOf thread = some work) (armed : next.armed = server.armed)
    (main : next.main = server.main) (tasks : next.pool.tasks = server.pool.tasks)
    (threads : next.pool.threads = server.pool.threads.set thread .awake) :
    next.places config + {work.place} = server.places config :=
  (places_busy doing armed main tasks threads).trans (Multiset.add_zero _)

theorem mem_places_of_workOf {work : Work} (doing : server.workOf thread = some work) : work.place ∈ server.places config :=
  Multiset.mem_add.mpr (.inr (Multiset.mem_add.mpr (.inr (mem_busyPlaces doing))))

theorem mem_places_of_armed {event : Event} (armed : (fd, event) ∈ server.armed) :
    (fd, Stage.serves event) ∈ server.places config :=
  Multiset.mem_add.mpr (.inl (Multiset.mem_add.mpr (.inl (mem_armedPlaces.mpr ⟨event, armed, rfl⟩))))

namespace Owned

theorem serves_open {stage : Stage} (owned : Owned config server) (there : (fd, stage) ∈ server.places config) :
    fd ∈ server.opened := Multiset.mem_coe.mp (owned.complete.mem there)

/-- What is being closed waits for nothing. -/
theorem filter_armed_of_closes (owned : Owned config server) {closing : Closing}
    (there : (fd, .closes closing) ∈ server.places config) : server.armed.filter (·.1 ≠ fd) = server.armed := by
  apply List.filter_eq_self.mpr
  intro entry armed
  apply decide_eq_true
  rintro rfl
  exact absurd (owned.complete.unique there (mem_places_of_armed armed)) (by simp)

theorem closePart_delFd (owned : Owned config server) (there : (fd, .closes .delFd) ∈ server.places config) :
    server.closePart fd .delFd = ({ server with registered := server.registered.erase fd }, some .shut) := by
  have listed : fd ∈ server.registered := (owned.listed fd).mpr ⟨_, there, rfl⟩
  rw [closePart, delFd, if_pos listed, owned.filter_armed_of_closes there]

theorem closePart_shut (owned : Owned config server) (there : (fd, .closes .shut) ∈ server.places config) :
    ∃ client, server.users fd = some client ∧ server.closePart fd .shut =
      ({ server.setClient fd client.closed with userCount := server.userCount - 1 }, some .close) := by
  obtain ⟨client, known, alive⟩ := owned.known fd _ there
  have alive : client.conn.isClose = false := alive
  refine ⟨client, known, ?_⟩
  rw [closePart, known]
  simp only [alive]
  rfl

theorem closePart_close (owned : Owned config server) (there : (fd, .closes .close) ∈ server.places config) :
    server.closePart fd .close = ({ server with opened := server.opened.erase fd }, none) := by
  have unlisted : fd ∉ server.registered := by
    intro listed
    obtain ⟨stage, there', listed⟩ := (owned.listed fd).mp listed
    cases owned.complete.unique there there'
    cases listed
  rw [closePart, closeFd, if_pos (owned.serves_open there), owned.filter_armed_of_closes there,
    List.erase_of_not_mem unlisted]

end Owned

/-- What has been reported is what no longer waits. -/
theorem reported_perm {listenFd : Nat} {reports : List Report} {armed : List (Nat × Event)}
    (apart : ∀ event, (listenFd, event) ∉ armed) (once : (armed.map Prod.fst).Nodup) (distinct : (reports.map Report.fd).Nodup)
    (waiting : ∀ report ∈ reports, report.fd ≠ listenFd → (report.fd, report.waited) ∈ armed) :
    (reported listenFd reports).Perm
      ((armed.filter fun entry => entry.1 ∈ reports.map Report.fd).map fun entry => (entry.1, Stage.serves entry.2)) := by
  have first : (reported listenFd reports).Nodup := by
    apply List.Nodup.of_map Prod.fst
    rw [reported, List.map_map]
    exact distinct.sublist (List.filter_sublist.map _)
  have second : ((armed.filter fun entry => entry.1 ∈ reports.map Report.fd).map fun entry =>
      (entry.1, Stage.serves entry.2)).Nodup := by
    apply List.Nodup.of_map Prod.fst
    rw [List.map_map]
    exact once.sublist (List.filter_sublist.map _)
  rw [List.perm_ext_iff_of_nodup first second]
  rintro ⟨fd, stage⟩
  simp only [reported, List.mem_map, List.mem_filter, decide_eq_true_eq, Report.place, Prod.mk.injEq, Prod.exists]
  constructor
  · rintro ⟨report, ⟨member, other⟩, rfl, rfl⟩
    exact ⟨_, _, ⟨waiting report member other, report, member, rfl⟩, rfl, rfl⟩
  · rintro ⟨_, event, ⟨there, report, member, same⟩, rfl, rfl⟩
    have other : report.fd ≠ listenFd := by
      rintro rfl
      exact apart event (same ▸ there)
    have waited := List.inj_on_of_nodup_map once (waiting report member other) there same
    exact ⟨report, ⟨member, other⟩, same, congrArg (Stage.serves ∘ Prod.snd) waited⟩

theorem Owned.armed_once (owned : Owned config server) : (server.armed.map Prod.fst).Nodup := by
  have distinct := owned.complete.distinct_held
  rw [places, Multiset.map_add, Multiset.map_add, Multiset.nodup_add, Multiset.nodup_add] at distinct
  have armed := Multiset.coe_nodup.mp distinct.1.1
  rwa [List.map_map] at armed

theorem Owned.wait_effect (owned : Owned config server) (waiting : server.main = .wait)
    {reports : List Report} (waited : server.wait config reports = some next) :
    next.main.Sane config.listenFd ∧ Effect config none server next := by
  rw [wait] at waited
  split at waited <;> cases waited
  next ok =>
    obtain ⟨_, distinct, fits⟩ := ok
    refine ⟨fun report member _ => (fits report member).2, .moved rfl ?_ rfl⟩
    have apart : ∀ event, (config.listenFd, event) ∉ server.armed :=
      fun event armed => owned.listen (owned.serves_open (mem_places_of_armed armed))
    have waits : ∀ report ∈ reports, report.fd ≠ config.listenFd → (report.fd, report.waited) ∈ server.armed := by
      intro report member other
      have fits := (fits report member).1
      rwa [if_neg other] at fits
    have moved := reported_perm apart owned.armed_once distinct waits
    have split := (List.filter_append_perm (fun entry => entry.1 ∈ reports.map Report.fd) server.armed).map
      fun entry => (entry.1, Stage.serves entry.2)
    simp only [List.map_append, ← decide_not] at split
    have whole : armedPlaces (server.armed.filter fun entry => entry.1 ∉ reports.map Report.fd) +
        (reported config.listenFd reports : Multiset _) = armedPlaces server.armed := by
      rw [Multiset.coe_eq_coe.mpr moved, armedPlaces, Multiset.coe_add]
      exact Multiset.coe_eq_coe.mpr (List.perm_append_comm.trans split)
    rw [places, places, waiting]
    simp only [MainThread.places, Multiset.add_zero, whole]

/-- The thread of `Start` passes from one thing to the next, and what it has in its hands stays there. -/
theorem moved_of_main {main : MainThread} (same : main.places config.listenFd = server.main.places config.listenFd) :
    Effect config none server { server with main } := by
  refine .moved rfl ?_ rfl
  rw [places, places, same]

theorem Owned.accept_effect (owned : Owned config server) (untimed : config.timeoutMS ≤ 0) {reports : List Report}
    (main : server.main = .accept reports) {accepted : Option Nat} {now : Int}
    (taken : server.accept config accepted now reports = some next) :
    next.main.Sane config.listenFd ∧ Effect config none server next := by
  have sane := owned.sane
  rw [main] at sane
  cases accepted with
  | none =>
    cases taken
    exact ⟨sane, moved_of_main (by rw [main]; rfl)⟩
  | some fd =>
    rw [accept] at taken
    split at taken
    · cases taken
    next unused =>
      split at taken
      · cases taken
        exact ⟨sane, moved_of_main (by rw [main]; rfl)⟩
      next room =>
        rw [addClient, if_neg (not_lt.mpr untimed)] at taken
        cases taken
        obtain ⟨_, other, new⟩ := not_or.mp unused |>.imp_right not_or.mp
        refine ⟨sane, .accepted rfl fd _ new other (not_le.mp room) rfl ?_ rfl⟩
        show armedPlaces server.armed + (reported config.listenFd reports + {(fd, Stage.fresh)}) + _ = _
        rw [places, main]
        simp only [MainThread.places, initClient, setClient]
        abel

/-- Which work is added for a report. -/
theorem Owned.deal_effect (owned : Owned config server) {report : Report} {reports : List Report}
    (main : server.main = .handle (report :: reports)) (other : report.fd ≠ config.listenFd) {work : Work}
    (due : work.place = report.place) :
    (server.deal work reports).main.Sane config.listenFd ∧ Effect config none server (server.deal work reports) := by
  have sane := owned.sane
  rw [main] at sane
  refine ⟨fun later member => sane later (List.mem_cons_of_mem _ member), .moved rfl ?_ rfl⟩
  have hands : reported config.listenFd (report :: reports) = report.place :: reported config.listenFd reports := by
    simp [reported, other]
  rw [places, places, main]
  simp only [deal, ThreadPool.addTask, MainThread.places, queuedPlaces, List.map_append, List.map_cons, List.map_nil, due, hands,
    ← Multiset.coe_add, ← Multiset.cons_coe, ← Multiset.singleton_add, Multiset.coe_nil, Multiset.add_zero]
  abel

theorem Owned.handle_effect (owned : Owned config server) {report : Report} {reports : List Report}
    (main : server.main = .handle (report :: reports)) :
    (server.handle config report reports).main.Sane config.listenFd ∧ Effect config none server (server.handle config report reports) := by
  have sane := owned.sane
  rw [main] at sane
  have rest : ∀ later ∈ reports, later.fd ≠ config.listenFd → later.events.reportable later.waited = true :=
    fun later member => sane later (List.mem_cons_of_mem _ member)
  rw [handle]
  by_cases other : report.fd = config.listenFd
  · rw [if_pos other]
    refine ⟨rest, moved_of_main ?_⟩
    rw [main]
    simp [MainThread.places, reported, other]
  · have hands : reported config.listenFd (report :: reports) = report.place :: reported config.listenFd reports := by
      simp [reported, other]
    have there : (report.fd, Stage.serves report.waited) ∈ server.places config := by
      refine Multiset.mem_add.mpr (.inl (Multiset.mem_add.mpr (.inr ?_)))
      rw [main, MainThread.places, hands]
      exact Multiset.mem_coe.mpr List.mem_cons_self
    obtain ⟨client, known, _⟩ := owned.known _ _ there
    have fits := sane report List.mem_cons_self other
    rw [if_neg other, known]
    simp only [Option.isSome_some, if_true]
    split
    · refine ⟨rest, .gaveUp rfl report.fd report.waited there ?_ rfl⟩
      rw [places, places, main]
      simp only [MainThread.places, hands, Report.place, ← Multiset.cons_coe, ← Multiset.singleton_add]
      abel
    next quiet =>
      split
      next input =>
        refine owned.deal_effect main other ?_
        simp only [Events.reportable, input, Bool.not_true, Bool.false_or, Bool.and_eq_true, decide_eq_true_eq] at fits
        rw [Work.place, Report.place, fits.1.1]
      next noInput =>
        split
        next output =>
          refine owned.deal_effect main other ?_
          simp only [Events.reportable, output, Bool.not_true, Bool.false_or, Bool.and_eq_true, decide_eq_true_eq] at fits
          rw [Work.place, Report.place, fits.1.2]
        next noOutput =>
          -- `epoll` reports nothing else.
          simp [Events.reportable, quiet, noInput, noOutput] at fits

/-- The thread of `Start` closes a connection. -/
theorem Owned.close_effect (owned : Owned config server) {closing : Closing} {rest : MainThread}
    (main : server.main = .closeConn fd closing rest) (taken : server.go config server.main = some next) :
    next.main.Sane config.listenFd ∧ Effect config none server next := by
  have sane := owned.sane
  have there : (fd, Stage.closes closing) ∈ server.places config := by
    refine Multiset.mem_add.mpr (.inl (Multiset.mem_add.mpr (.inr ?_)))
    rw [main]
    exact Multiset.mem_add.mpr (.inr (Multiset.mem_singleton_self _))
  rw [main] at sane taken
  cases closing with
  | delFd =>
    rw [go, owned.closePart_delFd there] at taken
    cases taken
    refine ⟨sane, .unlisted rfl fd there ?_ rfl⟩
    rw [places, places, main]
    simp only [MainThread.places]
    abel
  | shut =>
    obtain ⟨client, known, closed⟩ := owned.closePart_shut there
    rw [go, closed] at taken
    cases taken
    refine ⟨sane, .shut rfl fd client there known ?_ rfl⟩
    rw [places, places, main]
    simp only [MainThread.places, setClient]
    abel
  | close =>
    rw [go, owned.closePart_close there] at taken
    cases taken
    refine ⟨sane, .closed rfl fd ?_ rfl⟩
    rw [places, places, main]
    simp only [MainThread.places]
    abel

theorem Owned.go_effect (owned : Owned config server) (taken : server.go config server.main = some next) :
    next.main.Sane config.listenFd ∧ Effect config none server next := by
  have sane := owned.sane
  cases main : server.main with
  | pass => rw [main] at taken; cases taken
  | wait => rw [main] at taken; cases taken
  | accept reports => rw [main] at taken; cases taken
  | notify reports => rw [main] at taken; cases taken
  | expired fds =>
    rw [main] at sane
    cases sane
  | handle reports =>
    rw [main] at taken
    cases reports with
    | nil =>
      cases taken
      exact ⟨trivial, moved_of_main (by rw [main]; rfl)⟩
    | cons report reports =>
      cases taken
      exact owned.handle_effect main
  | addFd fd reports =>
    have there : (fd, Stage.fresh) ∈ server.places config := by
      refine Multiset.mem_add.mpr (.inl (Multiset.mem_add.mpr (.inr ?_)))
      rw [main]
      exact Multiset.mem_add.mpr (.inr (Multiset.mem_singleton_self _))
    have unlisted : fd ∉ server.registered := by
      intro listed
      obtain ⟨stage, there', listed⟩ := (owned.listed fd).mp listed
      cases owned.complete.unique there there'
      cases listed
    rw [main] at sane taken
    rw [go, addFd, if_neg unlisted] at taken
    cases taken
    refine ⟨by dsimp only; split <;> exact sane, .listed rfl fd there ?_ rfl⟩
    have hands : (if config.listenET then MainThread.accept reports else .handle reports).places config.listenFd =
        reported config.listenFd reports := by
      split <;> rfl
    rw [places, places, main]
    simp only [hands, MainThread.places, armedPlaces, List.map_cons, ← Multiset.cons_coe, ← Multiset.singleton_add]
    abel
  | closeConn fd closing rest => exact owned.close_effect main taken

/-- The threads of the pool come and go without a connection changing hands. -/
theorem moved_of_pool {pool : ThreadPool Work} {main : MainThread}
    (hands : main.places config.listenFd = server.main.places config.listenFd)
    (same : queuedPlaces pool.tasks + busyPlaces pool.threads =
      queuedPlaces server.pool.tasks + busyPlaces server.pool.threads) :
    Effect config none server { server with pool, main } := by
  refine .moved rfl ?_ rfl
  rw [places, places, hands, same]

/-- A thread that is in no task holds nothing. -/
theorem busyPlaces_idle {threads : List (PoolThread Work)} {item item' : PoolThread Work} (there : threads[thread]? = some item)
    (before : item.task? = none) (after : item'.task? = none) : busyPlaces (threads.set thread item') = busyPlaces threads := by
  have moved := busyPlaces_set there item'
  rwa [before, after, Option.toList_none, List.map_nil, Multiset.coe_nil, Multiset.add_zero, Multiset.add_zero] at moved

theorem notifyOne_places {pool : ThreadPool Work} {woken : Option Nat} (taken : server.pool.step (.notifyOne woken) = some pool) :
    queuedPlaces pool.tasks + busyPlaces pool.threads = queuedPlaces server.pool.tasks + busyPlaces server.pool.threads := by
  rw [ThreadPool.step] at taken
  split at taken
  · cases woken with
    | none =>
      rw [ThreadPool.notifyOne] at taken
      split at taken <;> cases taken
      rfl
    | some thread =>
      rw [ThreadPool.notifyOne] at taken
      split at taken <;> cases taken
      next there => exact congrArg (_ + ·) (busyPlaces_idle there rfl rfl)
  · cases taken

theorem wake_places {pool : ThreadPool Work} (taken : server.pool.step (.wake thread) = some pool) :
    queuedPlaces pool.tasks + busyPlaces pool.threads = queuedPlaces server.pool.tasks + busyPlaces server.pool.threads := by
  rw [ThreadPool.step] at taken
  split at taken <;> cases taken
  next there => exact congrArg (_ + ·) (busyPlaces_idle there rfl rfl)

/-- A thread that takes a task has in its hands what was in the queue. -/
theorem check_places {pool : ThreadPool Work} (taken : server.pool.step (.check thread) = some pool) :
    queuedPlaces pool.tasks + busyPlaces pool.threads = queuedPlaces server.pool.tasks + busyPlaces server.pool.threads := by
  rw [ThreadPool.step] at taken
  split at taken <;> cases taken
  next there =>
    cases queue : server.pool.tasks with
    | nil =>
      rw [ThreadPool.check, queue]
      exact congrArg (_ + ·) (busyPlaces_idle there rfl (by split <;> rfl))
    | cons work rest =>
      have moved : _ + (0 : Multiset _) = _ + ({work.place} : Multiset _) := busyPlaces_set there (.running work)
      rw [Multiset.add_zero] at moved
      rw [ThreadPool.check, queue]
      simp only [moved, queuedPlaces, List.map_cons, ← Multiset.cons_coe, ← Multiset.singleton_add]
      abel

/-- What a thread has in its hands does not wait for an event. -/
theorem Owned.filter_armed_of_busy (owned : Owned config server) {work : Work} (doing : server.workOf thread = some work) :
    server.armed.filter (·.1 ≠ work.place.1) = server.armed := by
  apply List.filter_eq_self.mpr
  intro entry armed
  apply decide_eq_true
  intro same
  have waiting : (work.place.1, Stage.serves entry.2) ∈ armedPlaces server.armed + server.main.places config.listenFd :=
    Multiset.mem_add.mpr (.inl (mem_armedPlaces.mpr ⟨entry.2, same ▸ armed, rfl⟩))
  exact owned.complete.apart waiting (Multiset.mem_add.mpr (.inr (mem_busyPlaces doing)))

/-- A thread calls `ModFd` and is done. -/
theorem Owned.modFd_effect (owned : Owned config server) {event : Event} (doing : server.workOf thread = some (.modFd fd event)) :
    Effect config none server ((server.modFd fd event).finish thread) := by
  have there : (fd, Stage.serves event) ∈ server.places config := mem_places_of_workOf doing
  have listed : fd ∈ server.registered := (owned.listed fd).mpr ⟨_, there, rfl⟩
  have quiet : server.armed.filter (·.1 ≠ fd) = server.armed := owned.filter_armed_of_busy doing
  have moved : busyPlaces (server.pool.threads.set thread .awake) + ({(fd, .serves event)} : Multiset _) = _ + (0 : Multiset _) :=
    busyPlaces_set (workOf_eq.mp doing) .awake
  rw [Multiset.add_zero] at moved
  rw [modFd, if_pos listed, quiet]
  refine .moved rfl ?_ rfl
  rw [places, places, ← moved]
  simp only [finish, armedPlaces, List.map_cons, ← Multiset.cons_coe, ← Multiset.singleton_add]
  abel

/-- A thread closes a connection. -/
theorem Owned.work_effect (owned : Owned config server) {work : Work} (doing : server.workOf thread = some work)
    (taken : server.work thread work = some next) : Effect config none server next ∧ next.main = server.main := by
  have there : work.place ∈ server.places config := mem_places_of_workOf doing
  cases work with
  | onRead fd => cases taken
  | onWrite fd => cases taken
  | modFd fd event =>
    cases taken
    refine ⟨owned.modFd_effect doing, ?_⟩
    rw [modFd]
    split <;> rfl
  | closeConn fd closing =>
    cases closing with
    | delFd =>
      rw [WebServer.work, owned.closePart_delFd there] at taken
      cases taken
      exact ⟨.unlisted rfl fd there (places_resume (.closeConn fd .shut) doing rfl rfl rfl) rfl, rfl⟩
    | shut =>
      obtain ⟨client, known, closed⟩ := owned.closePart_shut there
      rw [WebServer.work, closed] at taken
      cases taken
      exact ⟨.shut rfl fd client there known (places_resume (.closeConn fd .close) doing rfl rfl rfl) rfl, rfl⟩
    | close =>
      rw [WebServer.work, owned.closePart_close there] at taken
      cases taken
      exact ⟨.closed rfl fd (places_finish doing rfl rfl rfl rfl) rfl, rfl⟩

/-- `OnProcess` throws or has something for the connection to wait for. -/
theorem process_cases (env : Environment) (thread fd : Nat) (client : Client) (server : WebServer) :
    (∃ fault, client.process env = .error fault ∧
        server.process env thread fd client = { server with crash := some (.thread fault) }) ∨
      ∃ after event, client.process env = .ok (after, event) ∧
        server.process env thread fd client = (server.setClient fd after).resume thread (.modFd fd event) := by
  rw [process]
  cases client.process env with
  | error fault => exact .inl ⟨fault, rfl, rfl⟩
  | ok done => exact .inr ⟨done.1, done.2, rfl, rfl⟩

/-- A call has been made for a connection, and its thread goes on with what is left of the task. -/
theorem served_of_call {event : Event} {input : Input} {client client' : Client} {work work' : Work} {stage : Stage}
    {after : Client × Option Event} (doing : server.workOf thread = some work) (due : work.place = (fd, .serves event))
    (known : server.users fd = some client) (done : client.serve config event input = some (.ok after))
    (left : Left client' stage after) (alive : client'.conn.isClose = client.conn.isClose) (rest : work'.place = (fd, stage)) :
    Effect config (some input) server ((server.setClient fd client').resume thread work') := by
  have there : work.place ∈ server.places config := mem_places_of_workOf doing
  have places : ((server.setClient fd client').resume thread work').places config + {work.place} =
      server.places config + {work'.place} := places_resume work' doing rfl rfl rfl
  rw [due] at there
  rw [due, rest] at places
  exact .served fd event input client client' stage after rfl there known done left alive places rfl

theorem Owned.read_effect (owned : Owned config server) {files : Files} {userVerify : Verifier} {results : List Readv}
    (doing : server.workOf thread = some (.onRead fd))
    (taken : server.readClient (config.environment files userVerify) thread fd results = some next) :
    Effect config (some (.read files userVerify results)) server next ∧ next.main = server.main := by
  have there : (fd, Stage.serves .EPOLLIN) ∈ server.places config := mem_places_of_workOf doing
  obtain ⟨client, known, _⟩ := owned.known fd _ there
  have call : client.serve config .EPOLLIN (.read files userVerify results) =
      client.onRead (config.environment files userVerify) results := rfl
  rw [Client.onRead] at call
  rw [readClient, known] at taken
  cases read : client.conn.read (config.environment files userVerify).isET results with
  | none => simp [read] at taken
  | some done =>
    rw [read] at call
    cases done with
    | error fault =>
      simp only [read, bind, Option.bind] at taken
      cases taken
      exact ⟨.crashed fault rfl, rfl⟩
    | ok done =>
      obtain ⟨conn, ret⟩ := done
      simp only [read, bind, Option.bind] at taken
      simp only [Option.map_some, bind, Except.bind] at call
      by_cases ends : ret = .received [] ∨ ret = .failed false
      · rw [if_pos ends] at taken call
        cases taken
        exact ⟨served_of_call doing rfl known call .ends (HttpConn.read_isClose read) rfl, rfl⟩
      · rw [if_neg ends] at taken call
        cases taken
        rcases process_cases (config.environment files userVerify) thread fd { client with conn } server with
          ⟨fault, threw, ended⟩ | ⟨after, event, processed, goes⟩
        · rw [ended]
          exact ⟨.crashed fault rfl, rfl⟩
        · rw [goes]
          rw [processed] at call
          exact ⟨served_of_call doing rfl known call (.again event) ((Client.process_isClose processed).trans (HttpConn.read_isClose read)) rfl, rfl⟩

theorem Owned.write_effect (owned : Owned config server) {files : Files} {userVerify : Verifier} {results : List Writev}
    (doing : server.workOf thread = some (.onWrite fd))
    (taken : server.writeClient (config.environment files userVerify) thread fd results = some next) :
    Effect config (some (.write files userVerify results)) server next ∧ next.main = server.main := by
  have there : (fd, Stage.serves .EPOLLOUT) ∈ server.places config := mem_places_of_workOf doing
  obtain ⟨client, known, _⟩ := owned.known fd _ there
  have call : client.serve config .EPOLLOUT (.write files userVerify results) =
      client.onWrite (config.environment files userVerify) results := rfl
  rw [Client.onWrite] at call
  rw [writeClient, known] at taken
  cases written : client.conn.write (config.environment files userVerify).isET results with
  | none => simp [written] at taken
  | some done =>
    rw [written] at call
    cases done with
    | error fault =>
      simp only [written, bind, Option.bind] at taken
      cases taken
      exact ⟨.crashed fault rfl, rfl⟩
    | ok done =>
      obtain ⟨conn, ret⟩ := done
      simp only [written, bind, Option.bind] at taken
      simp only [Option.map_some, bind, Except.bind] at call
      cases goes : afterWrite conn ret with
      | process =>
        rw [goes] at taken call
        cases taken
        rcases process_cases (config.environment files userVerify) thread fd
            { client with conn, sent := client.sent ++ client.conn.outgoing (config.environment files userVerify).isET results }
            server with
          ⟨fault, threw, ended⟩ | ⟨after, event, processed, goes⟩
        · rw [ended]
          exact ⟨.crashed fault rfl, rfl⟩
        · rw [goes]
          simp only [processed] at call
          exact ⟨served_of_call doing rfl known call (.again event) ((Client.process_isClose processed).trans (HttpConn.write_isClose written)) rfl, rfl⟩
      | rearm =>
        rw [goes] at taken call
        cases taken
        exact ⟨served_of_call doing rfl known call (.again .EPOLLOUT) (HttpConn.write_isClose written) rfl, rfl⟩
      | close =>
        rw [goes] at taken call
        cases taken
        exact ⟨served_of_call doing rfl known call .ends (HttpConn.write_isClose written) rfl, rfl⟩

def Action.input? : Action → Option Input
  | .read _ files userVerify results => some (.read files userVerify results)
  | .write _ files userVerify results => some (.write files userVerify results)
  | .pass .. | .wait _ | .accept .. | .notify _ | .go | .check _ | .wake _ | .work _ => none

/-- What a step does, without a time limit. -/
theorem Owned.step_effect (owned : Owned config server) (untimed : config.timeoutMS ≤ 0) {action : Action}
    (taken : server.step config action = some next) : next.main.Sane config.listenFd ∧ Effect config action.input? server next := by
  have sane := owned.sane
  rw [step] at taken
  split at taken
  · cases taken
  · cases action with
    | pass now later =>
      rw [act] at taken
      split at taken <;> cases taken
      next main =>
        rw [pass, if_neg (not_lt.mpr untimed)]
        exact ⟨trivial, moved_of_main (by rw [main]; rfl)⟩
    | wait reports =>
      rw [act] at taken
      split at taken
      next main => exact owned.wait_effect main taken
      next => cases taken
    | accept accepted now =>
      rw [act] at taken
      split at taken
      next main => exact owned.accept_effect untimed main taken
      next => cases taken
    | notify woken =>
      rw [act] at taken
      split at taken
      next reports main =>
        obtain ⟨pool, notified, rfl⟩ := Option.map_eq_some_iff.mp taken
        rw [main] at sane
        exact ⟨sane, moved_of_pool (by rw [main]; rfl) (notifyOne_places notified)⟩
      next => cases taken
    | go => exact owned.go_effect taken
    | check thread =>
      obtain ⟨pool, checked, rfl⟩ := Option.map_eq_some_iff.mp taken
      exact ⟨sane, moved_of_pool rfl (check_places checked)⟩
    | wake thread =>
      obtain ⟨pool, woken, rfl⟩ := Option.map_eq_some_iff.mp taken
      exact ⟨sane, moved_of_pool rfl (wake_places woken)⟩
    | read thread files userVerify results =>
      rw [act] at taken
      split at taken
      next fd doing =>
        obtain ⟨effect, main⟩ := owned.read_effect doing taken
        exact ⟨main ▸ sane, effect⟩
      next => cases taken
    | write thread files userVerify results =>
      rw [act] at taken
      split at taken
      next fd doing =>
        obtain ⟨effect, main⟩ := owned.write_effect doing taken
        exact ⟨main ▸ sane, effect⟩
      next => cases taken
    | work thread =>
      obtain ⟨work, doing, worked⟩ := Option.bind_eq_some_iff.mp taken
      obtain ⟨effect, main⟩ := owned.work_effect doing worked
      exact ⟨main ▸ sane, effect⟩

end HttpFramework.Code.WebServer
