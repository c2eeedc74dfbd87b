import HttpFramework.Library.Simulation
import HttpFramework.Proofs.ServerOwnership

/-! The web server refines the serial one. A call of `OnRead_` or `OnWrite_` takes its place where a
thread makes it; on the way there and from there to the next wait, nobody else touches the
connection. -/

namespace HttpFramework.Code.WebServer
open Transition

variable {config : Config} {offered : Option Input} {server next : WebServer} {service service' : Service} {fd : Nat}

/-- What is known of a connection is what the serial server knows, up to the entry of one that is being given
up, which the serial server has closed at once. -/
structure Represents (config : Config) (server : WebServer) (service : Service) : Prop where
  active : ∀ fd stage event, (fd, stage) ∈ server.places config → stage.event? = some event →
    ∃ client, server.users fd = some client ∧ service fd = some (client, some event)
  settled : ∀ fd, (∀ stage, (fd, stage) ∈ server.places config → stage.event? = none) →
    service fd = (server.users fd).map fun client => (client.closed, none)

theorem represents_new (config : Config) (threadNum : Nat) : Represents config (new threadNum) fun _ => none where
  active fd stage event there := by
    have open' := (owned_new config threadNum).serves_open there
    exact absurd open' List.not_mem_nil
  settled _ _ := rfl

namespace Represents

/-- One connection has come to another stage. -/
theorem changed (represents : Represents config server service) {stage : Stage}
    (mem : ∀ place, place ∈ next.places config ↔ place = (fd, stage) ∨ place.1 ≠ fd ∧ place ∈ server.places config)
    (users : ∀ other, other ≠ fd → next.users other = server.users other)
    (others : ∀ other, other ≠ fd → service' other = service other)
    (on : ∀ event, stage.event? = some event → ∃ client, next.users fd = some client ∧ service' fd = some (client, some event))
    (off : stage.event? = none → service' fd = (next.users fd).map fun client => (client.closed, none)) :
    Represents config next service' where
  active other stage' event there waits := by
    rcases (mem _).mp there with now | ⟨different, before⟩
    · obtain ⟨rfl, rfl⟩ := Prod.mk.inj now
      exact on event waits
    · obtain ⟨client, known, serves⟩ := represents.active other stage' event before waits
      exact ⟨client, (users other different).trans known, (others other different).trans serves⟩
  settled other quiet := by
    by_cases same : other = fd
    · subst same
      exact off (quiet stage ((mem _).mpr (.inl rfl)))
    · rw [others other same, users other same]
      apply represents.settled other
      intro stage' there
      exact quiet stage' ((mem _).mpr (.inr ⟨same, there⟩))

/-- Nothing that matters has changed. -/
theorem kept (represents : Represents config server service) (places : next.places config = server.places config)
    (users : next.users = server.users) : Represents config next service where
  active fd stage event there := by
    rw [places] at there
    rw [users]
    exact represents.active fd stage event there
  settled fd quiet := by
    rw [places] at quiet
    rw [users]
    exact represents.settled fd quiet

/-- The connection of a key that no socket has. -/
theorem unopened (represents : Represents config server service) (owned : Owned config server) (closed : fd ∉ server.opened) :
    service fd = (server.users fd).map fun client => (client, none) := by
  rw [represents.settled fd fun stage there => absurd (owned.serves_open there) closed]
  cases known : server.users fd with
  | none => rfl
  | some client =>
    rw [Option.map_some, Option.map_some, owned.rested fd client closed known]

theorem accept (represents : Represents config server service) (owned : Owned config server) {conn : HttpConn}
    (new : fd ∉ server.opened)
    (entry : conn = (match server.users fd with | some client => client.conn | none => HttpConn.new (config.memory fd)).init)
    (places : next.places config = server.places config + {(fd, .fresh)})
    (users : next.users = Function.update server.users fd (some { conn })) :
    service.step config (.accept fd) = some (service.set fd { conn } (some .EPOLLIN)) ∧
      Represents config next (service.set fd { conn } (some .EPOLLIN)) := by
  subst entry
  refine ⟨?_, ?_⟩
  · rw [Service.step, represents.unopened owned new]
    cases known : server.users fd <;> rfl
  · have mem : ∀ place, place ∈ next.places config ↔ place = (fd, .fresh) ∨ place.1 ≠ fd ∧ place ∈ server.places config := by
      intro place
      rw [places, Multiset.mem_add, Multiset.mem_singleton, or_comm]
      refine or_congr_right ⟨?_, And.right⟩
      intro there
      refine ⟨?_, there⟩
      rintro rfl
      exact new (owned.serves_open there)
    refine represents.changed mem ?_ (fun other different => Function.update_of_ne different _ _) ?_ nofun
    · intro other different
      rw [users, Function.update_of_ne different]
    · intro event waits
      cases waits
      exact ⟨_, by rw [users, Function.update_self], Function.update_self _ _ _⟩

/-- The socket of a connection that has been given up is closed. -/
theorem closed (represents : Represents config server service) (owned : Owned config server)
    (places : next.places config + {(fd, .closes .close)} = server.places config) (users : next.users = server.users) :
    Represents config next service := by
  have mem : ∀ place, place ∈ next.places config ↔ place.1 ≠ fd ∧ place ∈ server.places config :=
    fun place => owned.complete.mem_remove places
  have there : (fd, Stage.closes .close) ∈ server.places config := by
    rw [← places]
    exact Multiset.mem_add.mpr (.inr (Multiset.mem_singleton_self _))
  refine ⟨?_, ?_⟩
  · intro other stage event there' waits
    rw [users]
    exact represents.active other stage event ((mem _).mp there').2 waits
  · intro other quiet
    rw [users]
    apply represents.settled other
    intro stage there'
    by_cases same : other = fd
    · subst same
      cases owned.complete.unique there there'
      rfl
    · exact quiet stage ((mem _).mpr ⟨same, there'⟩)

end Represents

/-- The calls that an action makes. -/
def Action.inputs (action : Action) : List Input := action.input?.toList

def Service.Action.inputs : Service.Action → List Input
  | .serve _ input => [input]
  | .accept _ | .drop _ => []

/-- A step that the serial server does not see. -/
theorem Represents.unseen {action : Action} (call : action.input? = none) (represents : Represents config next service) :
    ∃ actions service', Run (Service.step config) service actions service' ∧
      actions.flatMap Service.Action.inputs = action.inputs ∧ Represents config next service' :=
  ⟨[], service, .nil service, by rw [Action.inputs, call]; rfl, represents⟩

/-- A connection comes to another stage, and the serial server does what it takes. -/
theorem Represents.seen {action : Action} {step : Service.Action} (taken : service.step config step = some service')
    (same : step.inputs = action.inputs) (represents : Represents config next service') :
    ∃ actions service', Run (Service.step config) service actions service' ∧
      actions.flatMap Service.Action.inputs = action.inputs ∧ Represents config next service' :=
  ⟨[step], service', .cons taken (.nil service'), by rw [List.flatMap_singleton, same], represents⟩

theorem Represents.step (represents : Represents config server service) (owned : Owned config server)
    (untimed : config.timeoutMS ≤ 0) {action : Action} (alive : next.crash = none) (taken : server.step config action = some next) :
    ∃ actions service', Run (Service.step config) service actions service' ∧
      actions.flatMap Service.Action.inputs = action.inputs ∧ Represents config next service' := by
  obtain ⟨_, effect⟩ := owned.step_effect untimed taken
  cases effect with
  | moved call places books => exact Represents.unseen call (represents.kept places (Books.mk.inj books).2.2.1)
  | crashed fault ended =>
    subst ended
    cases alive
  | accepted call fd conn new other room entry places books =>
    obtain ⟨accepted, represents'⟩ := represents.accept owned new entry places (Books.mk.inj books).2.2.1
    exact Represents.seen accepted (by rw [Action.inputs, call]; rfl) represents'
  | listed call fd there places books =>
    have users := (Books.mk.inj books).2.2.1
    refine Represents.unseen call (represents.changed (fun _ => owned.complete.mem_exchange there places)
      (fun other _ => congrFun users other) (fun _ _ => rfl) ?_ nofun)
    intro event waits
    cases waits
    obtain ⟨client, known, serves⟩ := represents.active fd _ .EPOLLIN there rfl
    exact ⟨client, (congrFun users fd).trans known, serves⟩
  | served fd event input client client' stage after call there known done left _ places books =>
    have users := (Books.mk.inj books).2.2.1
    obtain ⟨client₀, known₀, serves⟩ := represents.active fd _ event there rfl
    cases known₀.symm.trans known
    have taken : service.step config (.serve fd input) = some (service.set fd after.1 after.2) := by
      rw [Service.step, serves]
      simp only [done]
    refine Represents.seen taken (by rw [Action.inputs, call]; rfl) (represents.changed
      (fun _ => owned.complete.mem_exchange there places) ?_ (fun other different => Function.update_of_ne different _ _) ?_ ?_)
    · intro other different
      rw [users, Function.update_of_ne different]
    · intro event' waits
      cases left with
      | ends => cases waits
      | again event =>
        cases waits
        exact ⟨client', by rw [users, Function.update_self], Function.update_self _ _ _⟩
    · intro quiet
      cases left with
      | again event => cases quiet
      | ends =>
        rw [users, Function.update_self]
        exact Function.update_self _ _ _
  | gaveUp call fd event there places books =>
    have users := (Books.mk.inj books).2.2.1
    obtain ⟨client, known, serves⟩ := represents.active fd _ event there rfl
    have taken : service.step config (.drop fd) = some (service.set fd client.closed none) := by rw [Service.step, serves]
    refine Represents.seen taken (by rw [Action.inputs, call]; rfl) (represents.changed
      (fun _ => owned.complete.mem_exchange there places) (fun other _ => congrFun users other)
      (fun other different => Function.update_of_ne different _ _) nofun ?_)
    intro _
    rw [(congrFun users fd).trans known]
    exact Function.update_self _ _ _
  | unlisted call fd there places books =>
    have users := (Books.mk.inj books).2.2.1
    refine Represents.unseen call (represents.changed (fun _ => owned.complete.mem_exchange there places)
      (fun other _ => congrFun users other) (fun _ _ => rfl) nofun ?_)
    intro _
    rw [(congrFun users fd : next.users fd = server.users fd)]
    apply represents.settled fd
    intro stage there'
    cases owned.complete.unique there there'
    rfl
  | shut call fd client there known places books =>
    have users := (Books.mk.inj books).2.2.1
    refine Represents.unseen call (represents.changed (fun _ => owned.complete.mem_exchange there places) ?_ (fun _ _ => rfl) nofun ?_)
    · intro other different
      rw [users, Function.update_of_ne different]
    · intro _
      have settled := represents.settled fd fun stage there' => by
        cases owned.complete.unique there there'
        rfl
      rw [settled, known, users, Function.update_self]
      rfl
  | closed call fd places books =>
    exact Represents.unseen call (represents.closed owned places (Books.mk.inj books).2.2.1)

theorem Represents.run (represents : Represents config server service) (owned : Owned config server) (untimed : config.timeoutMS ≤ 0)
    {actions : List Action} (ran : Run (WebServer.step config) server actions next) (alive : next.crash = none) :
    ∃ actions' service', Run (Service.step config) service actions' service' ∧
      actions'.flatMap Service.Action.inputs = actions.flatMap Action.inputs ∧ Owned config next ∧ Represents config next service' := by
  have living : ∀ (server : WebServer) action next, server.step config action = some next → server.crash = none := by
    intro server action next taken
    rw [WebServer.step] at taken
    split at taken
    · cases taken
    next alive => exact Option.not_isSome_iff_eq_none.mp alive
  exact @Run.simulated _ _ _ _ _ _ (Service.step config)
    (fun server service => Owned config server ∧ Represents config server service) (fun server => server.crash = none)
    Action.inputs Service.Action.inputs living
    (fun server action next service related alive taken => by
      obtain ⟨actions', service', ran', same, represents⟩ := related.2.step related.1 untimed alive taken
      exact ⟨actions', service', ran', same, related.1.step untimed taken, represents⟩)
    _ _ _ _ ⟨owned, represents⟩ ran alive

/-- The web server refines the serial one: for every run there is one of the serial server that makes the same
calls in the same order and ends with the same connections, as long as the process lives. -/
theorem refines_serial (untimed : config.timeoutMS ≤ 0) {threadNum : Nat} {actions : List Action}
    (ran : Run (WebServer.step config) (new threadNum) actions server) (alive : server.crash = none) :
    ∃ actions' service, Run (Service.step config) (fun _ => none) actions' service ∧
      actions'.flatMap Service.Action.inputs = actions.flatMap Action.inputs ∧ Represents config server service := by
  obtain ⟨actions', service, ran', same, _, represents⟩ :=
    (represents_new config threadNum).run (owned_new config threadNum) untimed ran alive
  exact ⟨actions', service, ran', same, represents⟩

theorem refines_serial_two : ∃ server, Run (WebServer.step edgeTriggered) (new 2) twoClients server ∧
    ∃ actions' service, Run (Service.step edgeTriggered) (fun _ => none) actions' service ∧
      actions'.flatMap Service.Action.inputs = [] ∧ Represents edgeTriggered server service := by
  obtain ⟨server, ran, alive⟩ := @run_of_check _ _ (WebServer.step edgeTriggered) (fun server => server.crash.isNone) (new 2)
    twoClients (by decide)
  obtain ⟨actions', service, ran', same, represents⟩ := refines_serial (by decide) ran (Option.isNone_iff_eq_none.mp alive)
  exact ⟨server, ran, actions', service, ran', same, represents⟩

end HttpFramework.Code.WebServer
