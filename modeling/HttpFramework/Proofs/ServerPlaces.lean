import HttpFramework.Code.WebServer
import HttpFramework.Library.Custody
import HttpFramework.Library.Slots

/-! Where the connections of the web server are: they wait for an event, have been reported, are in
the hands of the thread that runs `Start`, wait in the queue of the pool, or are in the hands of
one of its threads. -/

namespace HttpFramework.Code.WebServer
open Custody

variable {config : Config} {server next : WebServer} {thread fd : Nat}

/-- How far a connection is between two waits. -/
inductive Stage where
  /-- It has been accepted and is not in the interest list. -/
  | fresh
  /-- What is done next for it is what is due at this event. -/
  | serves (event : Event)
  | closes (closing : Closing)
deriving DecidableEq

namespace Stage

/-- It is in the interest list. -/
def listed : Stage → Bool
  | .serves _ | .closes .delFd => true
  | .fresh | .closes .shut | .closes .close => false

/-- `userCount` counts it. -/
def counted : Stage → Bool
  | .closes .close => false
  | .fresh | .serves _ | .closes .delFd | .closes .shut => true

def event? : Stage → Option Event
  | .fresh => some .EPOLLIN
  | .serves event => some event
  | .closes _ => none

end Stage

def Work.place : Work → Nat × Stage
  | .onRead fd => (fd, .serves .EPOLLIN)
  | .onWrite fd => (fd, .serves .EPOLLOUT)
  | .modFd fd event => (fd, .serves event)
  | .closeConn fd closing => (fd, .closes closing)

def Report.place (report : Report) : Nat × Stage := (report.fd, .serves report.waited)

/-- The connections that are reported. -/
def reported (listenFd : Nat) (reports : List Report) : List (Nat × Stage) :=
  (reports.filter fun report => report.fd ≠ listenFd).map Report.place

def MainThread.places (listenFd : Nat) : MainThread → Multiset (Nat × Stage)
  | .pass | .expired _ | .wait => 0
  | .handle reports | .accept reports | .notify reports => reported listenFd reports
  | .addFd fd reports => (reported listenFd reports : Multiset (Nat × Stage)) + {(fd, .fresh)}
  | .closeConn fd closing next => next.places listenFd + {(fd, .closes closing)}

def armedPlaces (armed : List (Nat × Event)) : Multiset (Nat × Stage) := armed.map fun entry => (entry.1, Stage.serves entry.2)

def queuedPlaces (tasks : List Work) : Multiset (Nat × Stage) := tasks.map Work.place

def busyPlaces (threads : List (PoolThread Work)) : Multiset (Nat × Stage) :=
  (threads.filterMap PoolThread.task?).map Work.place

def places (config : Config) (server : WebServer) : Multiset (Nat × Stage) :=
  armedPlaces server.armed + server.main.places config.listenFd +
    (queuedPlaces server.pool.tasks + busyPlaces server.pool.threads)

theorem mem_armedPlaces {armed : List (Nat × Event)} {place : Nat × Stage} :
    place ∈ armedPlaces armed ↔ ∃ event, (place.1, event) ∈ armed ∧ place.2 = .serves event := by
  obtain ⟨fd, stage⟩ := place
  simp only [armedPlaces, Multiset.mem_coe, List.mem_map, Prod.mk.injEq, Prod.exists]
  constructor
  · rintro ⟨_, event, member, rfl, rfl⟩
    exact ⟨event, member, rfl⟩
  · rintro ⟨event, member, rfl⟩
    exact ⟨fd, event, member, rfl, rfl⟩

/-- A thread that is in something else now holds something else. -/
theorem busyPlaces_set {threads : List (PoolThread Work)} {item : PoolThread Work} (there : threads[thread]? = some item)
    (item' : PoolThread Work) :
    busyPlaces (threads.set thread item') + ((item.task?.toList.map Work.place : List _) : Multiset _) =
      busyPlaces threads + ((item'.task?.toList.map Work.place : List _) : Multiset _) := by
  have moved := (Slots.filterMap_set_perm PoolThread.task? item' there).map Work.place
  rw [List.map_append, List.map_append] at moved
  exact Multiset.coe_eq_coe.mpr moved

theorem busyPlaces_replicate (threads : Nat) : busyPlaces (List.replicate threads .awake) = 0 := by
  have idle : (List.replicate threads (PoolThread.awake : PoolThread Work)).filterMap PoolThread.task? = [] := by
    apply List.filterMap_eq_nil_iff.mpr
    intro item member
    rw [List.eq_of_mem_replicate member]
    rfl
  rw [busyPlaces, idle]
  rfl

theorem workOf_eq {work : Work} : server.workOf thread = some work ↔ server.pool.threads[thread]? = some (.running work) := by
  rw [workOf]
  cases there : server.pool.threads[thread]? with
  | none => simp
  | some item => cases item <;> simp [PoolThread.task?]

/-- What a thread is in is held by it. -/
theorem mem_busyPlaces {work : Work} (doing : server.workOf thread = some work) :
    work.place ∈ busyPlaces server.pool.threads := by
  have there := List.mem_of_getElem? (workOf_eq.mp doing)
  exact Multiset.mem_coe.mpr (List.mem_map_of_mem (List.mem_filterMap.mpr ⟨_, there, rfl⟩))

end HttpFramework.Code.WebServer
