import HttpFramework.Code.WebServer
import HttpFramework.Library.Fallible
import HttpFramework.Library.Transition

/-! What the web server is for: a server that sees to one connection at a time. Each connection waits
for its event, and then the whole of `OnRead_` or `OnWrite_` is done for it at once. -/

namespace HttpFramework.Code

namespace HttpConn

variable {env : Environment} {isET : Bool} {conn next : HttpConn}

theorem read_isClose {results : List Readv} {ret : Readv} (read : conn.read isET results = some (.ok (next, ret))) :
    next.isClose = conn.isClose := by
  induction results generalizing conn with
  | nil => cases read
  | cons result rest ih =>
    cases result with
    | failed eagain =>
      rw [HttpConn.read] at read
      split at read <;> cases read
      rfl
    | received data =>
      rw [HttpConn.read] at read
      split at read
      · cases read
      · split at read
        · split at read <;> cases read
        · split at read
          · have kept := ih read
            exact kept
          · split at read <;> cases read
            rfl

theorem advance_isClose {len : Nat} (advanced : conn.advance len = .ok next) : next.isClose = conn.isClose := by
  rw [HttpConn.advance] at advanced
  split at advanced
  · dsimp only at advanced
    split at advanced <;> cases advanced <;> rfl
  · split at advanced <;> cases advanced
    rfl

theorem write_isClose {results : List Writev} {ret : Writev} (written : conn.write isET results = some (.ok (next, ret))) :
    next.isClose = conn.isClose := by
  induction results generalizing conn with
  | nil => cases written
  | cons result rest ih =>
    cases result with
    | failed eagain =>
      rw [write] at written
      split at written <;> cases written
      rfl
    | sent len =>
      rw [write] at written
      split at written
      · cases written
      · split at written
        · split at written <;> cases written
          rfl
        · split at written
          · split at written <;> cases written
          next advanced =>
            split at written
            · exact (ih written).trans (advance_isClose advanced)
            · split at written <;> cases written
              exact advance_isClose advanced

theorem respond_isClose {code : Int} {isKeepAlive : Bool} (responded : conn.respond env code isKeepAlive = .ok next) :
    next.isClose = conn.isClose := by
  obtain ⟨initial, _, rest⟩ := Fallible.bind_ok responded
  obtain ⟨⟨response, texts⟩, _, rest⟩ := Fallible.bind_ok rest
  obtain ⟨writeBuff, _, rest⟩ := Fallible.bind_ok rest
  dsimp only at rest
  split at rest <;> cases rest <;> rfl

theorem process_isClose {produced : Bool} (processed : conn.process env = .ok (produced, next)) : next.isClose = conn.isClose := by
  rw [process] at processed
  dsimp only at processed
  split at processed
  · cases processed
    rfl
  · obtain ⟨⟨parsed, request, readBuff⟩, _, rest⟩ := Fallible.bind_ok processed
    dsimp only at rest
    split at rest
    · obtain ⟨after, responded, rest⟩ := Fallible.bind_ok rest
      cases rest
      have kept := respond_isClose responded
      exact kept
    · obtain ⟨after, responded, rest⟩ := Fallible.bind_ok rest
      cases rest
      have kept := respond_isClose responded
      exact kept

end HttpConn

namespace WebServer

/-- What a call of `OnRead_` or `OnWrite_` meets with. -/
inductive Input where
  | read (files : Files) (userVerify : Verifier) (results : List Readv)
  | write (files : Files) (userVerify : Verifier) (results : List Writev)

namespace Client

variable {env : Environment} {client : Client}

def closed (client : Client) : Client := { client with conn := client.conn.close }

def onRead (env : Environment) (results : List Readv) (client : Client) : Option (Except Fault (Client × Option Event)) :=
  (client.conn.read env.isET results).map fun taken => do
    let (conn, ret) ← taken
    let client := { client with conn }
    if ret = .received [] ∨ ret = .failed false then return (client.closed, none)
    else
      let (client, event) ← client.process env
      return (client, some event)

def onWrite (env : Environment) (results : List Writev) (client : Client) : Option (Except Fault (Client × Option Event)) :=
  (client.conn.write env.isET results).map fun written => do
    let (conn, ret) ← written
    let after := { client with conn, sent := client.sent ++ client.conn.outgoing env.isET results }
    match afterWrite conn ret with
    | .process =>
      let (client, event) ← after.process env
      return (client, some event)
    | .rearm => return (after, some .EPOLLOUT)
    | .close => return (after.closed, none)

/-- What is due at an event. A connection that is to be closed waits for none. -/
def serve (config : Config) (client : Client) : Event → Input → Option (Except Fault (Client × Option Event))
  | .EPOLLIN, .read files userVerify results => client.onRead (config.environment files userVerify) results
  | .EPOLLOUT, .write files userVerify results => client.onWrite (config.environment files userVerify) results
  | .EPOLLIN, .write .. | .EPOLLOUT, .read .. => none

/-- The histories apart, a call does what `OnRead_` does. -/
theorem onRead_conn (results : List Readv) :
    ((client.onRead env results).map fun done => done.map fun after => (after.1.conn, after.2)) =
      WebServer.onRead env results client.conn := by
  rw [onRead, WebServer.onRead, Option.map_map]
  congr 1
  funext taken
  cases taken with
  | error fault => rfl
  | ok taken =>
    simp only [Function.comp, bind, Except.bind]
    split
    · rfl
    · simp only [process, bind, Except.bind]
      cases onProcess env taken.1 <;> rfl

theorem onWrite_conn (results : List Writev) :
    ((client.onWrite env results).map fun done => done.map fun after => (after.1.conn, after.2)) =
      WebServer.onWrite env results client.conn := by
  rw [onWrite, WebServer.onWrite, Option.map_map]
  congr 1
  funext written
  cases written with
  | error fault => rfl
  | ok written =>
    simp only [Function.comp, bind, Except.bind]
    cases afterWrite written.1 written.2 with
    | process =>
      simp only [process, proceed, bind, Except.bind]
      cases onProcess env written.1 <;> rfl
    | rearm => rfl
    | close => rfl

theorem process_isClose {after : Client × Event}
    (processed : client.process env = .ok after) : after.1.conn.isClose = client.conn.isClose := by
  obtain ⟨⟨conn, event⟩, done, rest⟩ := Fallible.bind_ok processed
  obtain ⟨⟨produced, conn'⟩, done', rest'⟩ := Fallible.bind_ok done
  cases rest
  cases rest'
  have kept := HttpConn.process_isClose done'
  exact kept

/-- What is left of a call, by how it ends. -/
theorem onRead_cases {results : List Readv} {after : Client × Option Event}
    (done : client.onRead env results = some (.ok after)) :
    ∃ conn ret, client.conn.read env.isET results = some (.ok (conn, ret)) ∧
      ((after = (closed { client with conn }, none)) ∨
        ∃ event, process env { client with conn } = .ok (after.1, event) ∧ after.2 = some event) := by
  obtain ⟨taken, read, rest⟩ := Option.map_eq_some_iff.mp done
  obtain ⟨⟨conn, ret⟩, rfl, ends⟩ := Fallible.bind_ok rest
  refine ⟨conn, ret, read, ?_⟩
  dsimp only at ends
  split at ends
  · cases ends
    exact .inl rfl
  · obtain ⟨⟨client', event⟩, processed, last⟩ := Fallible.bind_ok ends
    cases last
    exact .inr ⟨event, processed, rfl⟩

theorem onWrite_cases {results : List Writev} {after : Client × Option Event}
    (done : client.onWrite env results = some (.ok after)) :
    ∃ conn ret moved, client.conn.write env.isET results = some (.ok (conn, ret)) ∧
      moved = { client with conn, sent := client.sent ++ client.conn.outgoing env.isET results } ∧
      ((afterWrite conn ret = .process ∧ ∃ event, process env moved = .ok (after.1, event) ∧ after.2 = some event) ∨
        (afterWrite conn ret = .rearm ∧ after = (moved, some .EPOLLOUT)) ∨
        (afterWrite conn ret = .close ∧ after = (moved.closed, none))) := by
  obtain ⟨taken, written, rest⟩ := Option.map_eq_some_iff.mp done
  obtain ⟨⟨conn, ret⟩, rfl, ends⟩ := Fallible.bind_ok rest
  refine ⟨conn, ret, _, written, rfl, ?_⟩
  dsimp only at ends
  cases goes : afterWrite conn ret with
  | process =>
    rw [goes] at ends
    obtain ⟨⟨client', event⟩, processed, last⟩ := Fallible.bind_ok ends
    cases last
    exact .inl ⟨rfl, event, processed, rfl⟩
  | rearm =>
    rw [goes] at ends
    cases ends
    exact .inr (.inl ⟨rfl, rfl⟩)
  | close =>
    rw [goes] at ends
    cases ends
    exact .inr (.inr ⟨rfl, rfl⟩)

end Client

/-- Every client there has been, with the event that its connection waits for as long as it is open. -/
def Service : Type := Nat → Option (Client × Option Event)

namespace Service

inductive Action where
  | accept (fd : Nat)
  | serve (fd : Nat) (input : Input)
  /-- The connection is given up without a call. -/
  | drop (fd : Nat)

def set (fd : Nat) (client : Client) (event : Option Event) (service : Service) : Service :=
  Function.update service fd (some (client, event))

def step (config : Config) (service : Service) : Action → Option Service
  | .accept fd =>
    match service fd with
    | none => some (service.set fd { conn := (HttpConn.new (config.memory fd)).init } (some .EPOLLIN))
    | some (client, none) => some (service.set fd { conn := client.conn.init } (some .EPOLLIN))
    | some (_, some _) => none
  | .serve fd input =>
    match service fd with
    | some (client, some event) =>
      match client.serve config event input with
      | some (.ok (client, event)) => some (service.set fd client event)
      | _ => none
    | _ => none
  | .drop fd =>
    match service fd with
    | some (client, some _) => some (service.set fd client.closed none)
    | _ => none

end Service

end WebServer

end HttpFramework.Code
