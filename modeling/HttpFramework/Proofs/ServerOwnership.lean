import HttpFramework.Proofs.ServerSteps

/-! Who has a connection of the web server. However its threads take their steps, an open socket is in
one place: no two threads are at one connection, none is forgotten, and no call to the kernel is
refused. -/

namespace HttpFramework.Code

namespace WebServer
open Custody Transition

variable {config : Config} {offered : Option Input} {server next : WebServer} {thread fd : Nat}

/-- One connection has come to another stage, and its entries have been brought up to date. -/
theorem Owned.changed (owned : Owned config server) (sane : next.main.Sane config.listenFd) {stage stage' : Stage}
    (there : (fd, stage) ∈ server.places config)
    (balance : next.places config + {(fd, stage)} = server.places config + {(fd, stage')})
    (opened : next.opened = server.opened) (registered : next.registered.Nodup)
    (others : ∀ other, other ≠ fd → (other ∈ next.registered ↔ other ∈ server.registered))
    (own : fd ∈ next.registered ↔ stage'.listed = true) (users : ∀ other, other ≠ fd → next.users other = server.users other)
    (entry : ∃ client, next.users fd = some client ∧ stage'.Fits client)
    (userCount : next.userCount + (if stage.counted then 1 else 0 : Nat) = server.userCount + (if stage'.counted then 1 else 0 : Nat))
    (most : next.userCount ≤ server.userCount) (refused : next.refused = server.refused) (crash : next.crash = server.crash) :
    Owned config next := by
  have mem : ∀ place, place ∈ next.places config ↔ place = (fd, stage') ∨ place.1 ≠ fd ∧ place ∈ server.places config :=
    fun place => owned.complete.mem_exchange there balance
  have inside := owned.serves_open there
  refine ⟨?_, registered, ?_, opened ▸ owned.listen, ?_, ?_, ?_, most.trans owned.most, refused ▸ owned.granted,
    crash ▸ owned.crashed, sane⟩
  · rw [opened]
    exact owned.complete.exchange balance
  · intro other
    by_cases same : other = fd
    · subst same
      rw [own]
      constructor
      · exact fun listed => ⟨_, (mem _).mpr (.inl rfl), listed⟩
      · rintro ⟨stage, there', listed⟩
        rcases (mem _).mp there' with now | ⟨different, _⟩
        · rwa [← (Prod.mk.inj now).2]
        · exact absurd rfl different
    · rw [others other same, owned.listed other]
      constructor
      · rintro ⟨stage, there', listed⟩
        exact ⟨stage, (mem _).mpr (.inr ⟨same, there'⟩), listed⟩
      · rintro ⟨stage, there', listed⟩
        rcases (mem _).mp there' with now | ⟨_, before⟩
        · exact absurd (Prod.mk.inj now).1 same
        · exact ⟨stage, before, listed⟩
  · intro other stage there'
    rcases (mem _).mp there' with now | ⟨different, before⟩
    · obtain ⟨rfl, rfl⟩ := Prod.mk.inj now
      exact entry
    · rw [users other different]
      exact owned.known other stage before
  · intro other client unopened known
    rw [opened] at unopened
    have different : other ≠ fd := by
      rintro rfl
      exact unopened inside
    rw [users other different] at known
    exact owned.rested other client unopened known
  · have counts := count_exchange (fun place => place.2.counted) balance
    have counted := owned.counted
    dsimp only at counts
    omega

/-- A connection has been accepted. -/
theorem Owned.accepted (owned : Owned config server) (sane : next.main.Sane config.listenFd) {conn : HttpConn}
    (new : fd ∉ server.opened) (other : fd ≠ config.listenFd) (room : server.userCount < MAX_FD) (alive : conn.isClose = false)
    (places : next.places config = server.places config + {(fd, .fresh)})
    (books : next.books = { server.books with
      opened := fd :: server.opened, users := Function.update server.users fd (some { conn }), userCount := server.userCount + 1 }) :
    Owned config next := by
  obtain ⟨opened, registered, users, userCount, refused, crash⟩ := Books.mk.inj books
  have mem : ∀ place, place ∈ next.places config ↔ place ∈ server.places config ∨ place = (fd, .fresh) := by
    intro place
    rw [places, Multiset.mem_add, Multiset.mem_singleton]
  have absent : ∀ stage, (fd, stage) ∉ server.places config := fun stage there => new (owned.serves_open there)
  refine ⟨?_, ?_, ?_, ?_, ?_, ?_, ?_, ?_, refused.trans owned.granted, ?_, sane⟩
  · rw [opened, ← Multiset.cons_coe]
    exact owned.complete.insert (fun there => new (Multiset.mem_coe.mp there)) places
  · rw [registered]
    exact owned.registered
  · intro other'
    rw [registered]
    refine (owned.listed other').trans ⟨?_, ?_⟩
    · rintro ⟨stage, there, listed⟩
      exact ⟨stage, (mem _).mpr (.inl there), listed⟩
    · rintro ⟨stage, there, listed⟩
      rcases (mem _).mp there with before | now
      · exact ⟨stage, before, listed⟩
      · rw [(Prod.mk.inj now).2] at listed
        cases listed
  · rw [opened]
    exact fun member => (List.mem_cons.mp member).elim (fun same => other same.symm) owned.listen
  · intro other' stage there
    rw [users]
    rcases (mem _).mp there with before | now
    · have different : other' ≠ fd := by
        rintro rfl
        exact absent stage before
      rw [Function.update_of_ne different]
      exact owned.known other' stage before
    · obtain ⟨rfl, rfl⟩ := Prod.mk.inj now
      exact ⟨_, Function.update_self _ _ _, alive⟩
  · intro other' client unopened known
    rw [opened, List.mem_cons, not_or] at unopened
    rw [users, Function.update_of_ne unopened.1] at known
    exact owned.rested other' client unopened.2 known
  · have counts := count_add (fun place => place.2.counted) (server.places config) (fd, .fresh)
    have counted := owned.counted
    rw [← places] at counts
    rw [userCount, counts]
    show server.userCount + 1 = _
    rw [counted]
    rfl
  · rw [userCount]
    show server.userCount + 1 ≤ MAX_FD
    omega
  · intro crash' ended
    rw [crash] at ended
    exact owned.crashed crash' ended

/-- A socket has been closed. -/
theorem Owned.closed (owned : Owned config server) (sane : next.main.Sane config.listenFd)
    (places : next.places config + {(fd, .closes .close)} = server.places config)
    (books : next.books = { server.books with opened := server.opened.erase fd }) : Owned config next := by
  obtain ⟨opened, registered, users, userCount, refused, crash⟩ := Books.mk.inj books
  have mem : ∀ place, place ∈ next.places config ↔ place.1 ≠ fd ∧ place ∈ server.places config :=
    fun place => owned.complete.mem_remove places
  have there : (fd, Stage.closes .close) ∈ server.places config := by
    rw [← places]
    exact Multiset.mem_add.mpr (.inr (Multiset.mem_singleton_self _))
  have distinct : server.opened.Nodup := Multiset.coe_nodup.mp owned.complete.distinct
  refine ⟨?_, ?_, ?_, ?_, ?_, ?_, ?_, ?_, refused.trans owned.granted, ?_, sane⟩
  · rw [opened, ← Multiset.coe_erase]
    exact owned.complete.remove places
  · rw [registered]
    exact owned.registered
  · intro other
    rw [registered]
    refine (owned.listed other).trans ⟨?_, ?_⟩
    · rintro ⟨stage, there', listed⟩
      refine ⟨stage, (mem _).mpr ⟨?_, there'⟩, listed⟩
      rintro rfl
      cases owned.complete.unique there there'
      cases listed
    · rintro ⟨stage, there', listed⟩
      exact ⟨stage, ((mem _).mp there').2, listed⟩
  · rw [opened]
    exact fun member => owned.listen (List.mem_of_mem_erase member)
  · intro other stage there'
    rw [users]
    exact owned.known other stage ((mem _).mp there').2
  · intro other client unopened known
    rw [users] at known
    by_cases same : other = fd
    · subst same
      obtain ⟨client', known', ended⟩ := owned.known _ _ there
      cases known'.symm.trans known
      exact ended
    · rw [opened, List.mem_erase_of_ne same] at unopened
      exact owned.rested other client unopened known
  · have counts := count_add (fun place => place.2.counted) (next.places config) (fd, .closes .close)
    have counted := owned.counted
    rw [places] at counts
    rw [counts] at counted
    rw [userCount]
    exact counted
  · rw [userCount]
    exact owned.most
  · intro crash' ended
    rw [crash] at ended
    exact owned.crashed crash' ended

theorem Owned.moved (owned : Owned config server) (sane : next.main.Sane config.listenFd)
    (places : next.places config = server.places config) (books : next.books = server.books) : Owned config next := by
  obtain ⟨opened, registered, users, userCount, refused, crash⟩ := Books.mk.inj books
  refine ⟨?_, ?_, ?_, ?_, ?_, ?_, ?_, ?_, refused.trans owned.granted, ?_, sane⟩
  · rw [opened, places]
    exact owned.complete
  · rw [registered]
    exact owned.registered
  · rw [registered, places]
    exact owned.listed
  · rw [opened]
    exact owned.listen
  · rw [places, users]
    exact owned.known
  · rw [opened, users]
    exact owned.rested
  · rw [userCount, places]
    exact owned.counted
  · rw [userCount]
    exact owned.most
  · rw [crash]
    exact owned.crashed

theorem Owned.effect (owned : Owned config server) (sane : next.main.Sane config.listenFd)
    (effect : Effect config offered server next) : Owned config next := by
  cases effect with
  | moved call places books => exact owned.moved sane places books
  | crashed fault ended =>
    subst ended
    refine { owned with crashed := ?_ }
    intro crash same
    cases same
    exact ⟨fault, rfl⟩
  | accepted call fd conn new other room entry places books =>
    subst entry
    exact owned.accepted sane new other room rfl places books
  | listed call fd there places books =>
    obtain ⟨opened, registered, users, userCount, refused, crash⟩ := Books.mk.inj books
    have unlisted : fd ∉ server.registered := by
      intro listed
      obtain ⟨stage, there', listed⟩ := (owned.listed fd).mp listed
      cases owned.complete.unique there there'
      cases listed
    obtain ⟨client, known, fits⟩ := owned.known fd _ there
    refine owned.changed sane there places opened ?_ ?_ ?_ (fun other _ => congrFun users other)
      ⟨client, (congrFun users fd).trans known, fits⟩ ?_ (le_of_eq userCount) refused crash
    · rw [registered]
      exact List.nodup_cons.mpr ⟨unlisted, owned.registered⟩
    · intro other different
      rw [registered, List.mem_cons, or_iff_right different]
    · rw [registered]
      exact iff_of_true List.mem_cons_self rfl
    · rw [userCount]
      rfl
  | served fd event input client client' stage after call there known done left alive places books =>
    obtain ⟨opened, registered, users, userCount, refused, crash⟩ := Books.mk.inj books
    obtain ⟨client₀, known₀, fits⟩ := owned.known fd _ there
    cases known₀.symm.trans known
    have fits : client'.conn.isClose = false := alive.trans fits
    have listed : fd ∈ server.registered := (owned.listed fd).mpr ⟨_, there, rfl⟩
    have on : stage.listed = true ∧ stage.counted = true ∧ stage.Fits client' := by
      cases left with
      | again event => exact ⟨rfl, rfl, fits⟩
      | ends => exact ⟨rfl, rfl, fits⟩
    refine owned.changed sane there places opened (registered ▸ owned.registered) ?_ ?_ ?_ ?_ ?_ (le_of_eq userCount) refused crash
    · intro other _
      rw [registered]
      rfl
    · rw [registered]
      exact iff_of_true listed on.1
    · intro other different
      rw [users, Function.update_of_ne different]
    · rw [users, Function.update_self]
      exact ⟨client', rfl, on.2.2⟩
    · rw [userCount, on.2.1]
      rfl
  | gaveUp call fd event there places books =>
    obtain ⟨opened, registered, users, userCount, refused, crash⟩ := Books.mk.inj books
    obtain ⟨client, known, fits⟩ := owned.known fd _ there
    have listed : fd ∈ server.registered := (owned.listed fd).mpr ⟨_, there, rfl⟩
    refine owned.changed sane there places opened (registered ▸ owned.registered) ?_ ?_ (fun other _ => congrFun users other)
      ⟨client, (congrFun users fd).trans known, fits⟩ ?_ (le_of_eq userCount) refused crash
    · intro other _
      rw [registered]
    · rw [registered]
      exact iff_of_true listed rfl
    · rw [userCount]
      rfl
  | unlisted call fd there places books =>
    obtain ⟨opened, registered, users, userCount, refused, crash⟩ := Books.mk.inj books
    obtain ⟨client, known, fits⟩ := owned.known fd _ there
    refine owned.changed sane there places opened ?_ ?_ ?_ (fun other _ => congrFun users other)
      ⟨client, (congrFun users fd).trans known, fits⟩ ?_ (le_of_eq userCount) refused crash
    · rw [registered]
      exact owned.registered.erase fd
    · intro other different
      rw [registered, List.mem_erase_of_ne different]
    · rw [registered]
      exact iff_of_false (List.Nodup.not_mem_erase owned.registered) (by decide)
    · rw [userCount]
      rfl
  | shut call fd client there known places books =>
    obtain ⟨opened, registered, users, userCount, refused, crash⟩ := Books.mk.inj books
    have unlisted : fd ∉ server.registered := by
      intro listed
      obtain ⟨stage, there', listed⟩ := (owned.listed fd).mp listed
      cases owned.complete.unique there there'
      cases listed
    refine owned.changed sane there places opened (registered ▸ owned.registered) ?_ ?_ ?_ ?_ ?_ ?_ refused crash
    · intro other _
      rw [registered]
      rfl
    · rw [registered]
      exact iff_of_false unlisted (by decide)
    · intro other different
      rw [users, Function.update_of_ne different]
    · rw [users, Function.update_self]
      exact ⟨client.closed, rfl, rfl⟩
    · rw [userCount]
      show server.userCount - 1 + ((1 : Nat) : Int) = server.userCount + ((0 : Nat) : Int)
      omega
    · rw [userCount]
      show server.userCount - 1 ≤ server.userCount
      omega
  | closed call fd places books => exact owned.closed sane places books

theorem owned_new (config : Config) (threadNum : Nat) : Owned config (new threadNum) := by
  have none : (new threadNum).places config = 0 := by
    show armedPlaces [] + 0 + (queuedPlaces [] + busyPlaces (List.replicate threadNum .awake)) = 0
    rw [busyPlaces_replicate]
    rfl
  refine ⟨?_, List.nodup_nil, ?_, List.not_mem_nil, ?_, ?_, ?_, ?_, rfl, ?_, trivial⟩
  · rw [none]
    exact ⟨Multiset.nodup_zero, rfl⟩
  · intro fd
    rw [none]
    exact iff_of_false List.not_mem_nil fun ⟨_, there, _⟩ => Multiset.notMem_zero _ there
  · intro fd stage there
    rw [none] at there
    exact absurd there (Multiset.notMem_zero _)
  · intro fd client _ known
    cases known
  · rw [none]
    rfl
  · show (0 : Int) ≤ MAX_FD
    decide
  · intro crash ended
    cases ended

theorem Owned.step (owned : Owned config server) (untimed : config.timeoutMS ≤ 0) {action : Action}
    (taken : server.step config action = some next) : Owned config next := by
  obtain ⟨sane, effect⟩ := owned.step_effect untimed taken
  exact owned.effect sane effect

theorem owned_run (untimed : config.timeoutMS ≤ 0) {threadNum : Nat} {actions : List Action}
    (ran : Run (WebServer.step config) (new threadNum) actions server) : Owned config server :=
  Run.invariant (fun _ _ _ owned taken => Owned.step owned untimed taken) (owned_new config threadNum) ran

/-- The threads of the pool have different connections in their hands. -/
theorem Owned.thread_unique (owned : Owned config server) {other : Nat} {work work' : Work}
    (doing : server.workOf thread = some work) (doing' : server.workOf other = some work')
    (same : work.place.1 = work'.place.1) : thread = other := by
  have distinct := owned.complete.distinct_held
  simp only [places, Multiset.map_add, Multiset.nodup_add] at distinct
  have busy := Multiset.coe_nodup.mp distinct.2.1.2.1
  rw [List.map_map, List.map_filterMap] at busy
  exact Slots.place_unique busy (workOf_eq.mp doing) (workOf_eq.mp doing') rfl (congrArg some same.symm)

/-- In every run, however the thread of `Start` and those of the pool take their steps and whatever is
level- or edge-triggered: each open socket is in exactly one place, so that none is forgotten, and no
two threads are at one connection. -/
theorem connections_in_one_place (untimed : config.timeoutMS ≤ 0) {threadNum : Nat} {actions : List Action}
    (ran : Run (WebServer.step config) (new threadNum) actions server) :
    server.opened.Nodup ∧ (server.places config).map Prod.fst = server.opened ∧
      ∀ thread other work work', server.workOf thread = some work → server.workOf other = some work' →
        work.place.1 = work'.place.1 → thread = other := by
  have owned := owned_run untimed ran
  exact ⟨Multiset.coe_nodup.mp owned.complete.distinct, owned.complete.exact,
    fun _ _ _ _ doing doing' same => owned.thread_unique doing doing' same⟩

/-- Two connections are accepted, and each is given to a thread. -/
def twoClients : List Action :=
  [.pass (fun _ => 0) 0, .wait [⟨3, { EPOLLIN := true }, .EPOLLIN⟩], .go, .accept (some 5) 0, .go, .accept (some 6) 0, .go,
    .accept none 0, .go, .pass (fun _ => 0) 0,
    .wait [⟨6, { EPOLLIN := true }, .EPOLLIN⟩, ⟨5, { EPOLLIN := true }, .EPOLLIN⟩], .go, .notify none, .go,
    .notify none, .check 0, .check 1]

def edgeTriggered : Config where
  listenFd := 3
  timeoutMS := 0
  listenET := true
  isET := true
  srcDir := ascii "/resources/"

theorem twoClients_run : ∃ server, Run (WebServer.step edgeTriggered) (new 2) twoClients server ∧
    server.workOf 0 = some (.onRead 6) ∧ server.workOf 1 = some (.onRead 5) := by
  obtain ⟨server, ran, works⟩ := @run_of_check _ _ (WebServer.step edgeTriggered)
    (fun server => decide (server.workOf 0 = some (.onRead 6) ∧ server.workOf 1 = some (.onRead 5))) (new 2) twoClients
    (by decide)
  exact ⟨server, ran, of_decide_eq_true works⟩

theorem connections_in_one_place_two : ∃ server, Run (WebServer.step edgeTriggered) (new 2) twoClients server ∧
    server.opened.Nodup ∧ (server.places edgeTriggered).map Prod.fst = server.opened := by
  obtain ⟨server, ran, _⟩ := twoClients_run
  obtain ⟨distinct, exact', _⟩ := connections_in_one_place (by decide) ran
  exact ⟨server, ran, distinct, exact'⟩

/-- No call of `epoll_ctl` or `close` is refused, no assertion about `users_` fails, and the interest list is
made up of the connections that have been added to it and not yet been taken out. -/
theorem kernel_calls_succeed (untimed : config.timeoutMS ≤ 0) {threadNum : Nat} {actions : List Action}
    (ran : Run (WebServer.step config) (new threadNum) actions server) :
    server.refused = false ∧ server.crash ≠ some .users ∧ server.crash ≠ some .timer ∧
      ∀ fd, fd ∈ server.registered ↔ ∃ stage : Stage, (fd, stage) ∈ server.places config ∧ stage.listed = true := by
  have owned := owned_run untimed ran
  have thread : ∀ crash, server.crash = some crash → ∃ fault, crash = .thread fault := owned.crashed
  refine ⟨owned.granted, ?_, ?_, owned.listed⟩
  · intro ended
    obtain ⟨_, wrong⟩ := thread _ ended
    cases wrong
  · intro ended
    obtain ⟨_, wrong⟩ := thread _ ended
    cases wrong

theorem kernel_calls_succeed_two : ∃ server, Run (WebServer.step edgeTriggered) (new 2) twoClients server ∧
    server.refused = false ∧ server.crash ≠ some .users := by
  obtain ⟨server, ran, _⟩ := twoClients_run
  obtain ⟨granted, known, _⟩ := kernel_calls_succeed (by decide) ran
  exact ⟨server, ran, granted, known⟩

/-- The entry of the socket has not been closed. -/
def alive (server : WebServer) (fd : Nat) : Bool :=
  match server.users fd with
  | some client => !client.conn.isClose
  | none => false

theorem Owned.alive_counted (owned : Owned config server) {place : Nat × Stage} (there : place ∈ server.places config) :
    place.2.counted = true ↔ server.alive place.1 = true := by
  obtain ⟨fd, stage⟩ := place
  obtain ⟨client, known, fits⟩ := owned.known fd stage there
  rw [alive, known]
  by_cases last : stage = .closes .close
  · subst last
    have closed : client.closed = client := fits
    rw [← closed]
    exact iff_of_false (by simp [Stage.counted]) (by simp [Client.closed, HttpConn.close])
  · rw [Stage.Fits, if_neg last] at fits
    refine iff_of_true ?_ (by simp [fits])
    cases stage with
    | fresh => rfl
    | serves event => rfl
    | closes closing =>
      cases closing with
      | delFd => rfl
      | shut => rfl
      | close => exact absurd rfl last

/-- `userCount` is the number of the open sockets whose connections have not been closed, and it stays within
`MAX_FD`. -/
theorem users_counted (untimed : config.timeoutMS ≤ 0) {threadNum : Nat} {actions : List Action}
    (ran : Run (WebServer.step config) (new threadNum) actions server) :
    server.userCount = server.opened.countP server.alive ∧ server.userCount ≤ MAX_FD := by
  have owned := owned_run untimed ran
  refine ⟨?_, owned.most⟩
  have same : (server.places config).countP (fun place => place.2.counted = true) =
      ((server.places config).map Prod.fst).countP fun fd => server.alive fd = true := by
    rw [Multiset.countP_map, ← Multiset.countP_eq_card_filter]
    exact Multiset.countP_congr rfl fun place there => propext (owned.alive_counted there)
  rw [owned.counted, same, owned.complete.exact, Multiset.coe_countP]
  simp

theorem users_counted_two : ∃ server, Run (WebServer.step edgeTriggered) (new 2) twoClients server ∧
    server.userCount = server.opened.countP server.alive := by
  obtain ⟨server, ran, _⟩ := twoClients_run
  exact ⟨server, ran, (users_counted (by decide) ran).1⟩

end WebServer

end HttpFramework.Code
