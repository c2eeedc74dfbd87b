import HttpFramework.Code.HttpConn
import HttpFramework.Code.ThreadPool
import HttpFramework.Code.Timer

/-! `WebServer`: the loop of `Start` and the threads of its pool. A step is a system call, a section
under a mutex, or what a thread does in between with the one connection it has been given. The
descriptors, the interest list of `epoll` and what it reports are the kernel's. -/

namespace HttpFramework.Code

namespace HttpConn

/-- `HttpConn()`, which leaves `iov_` as the memory was. -/
def new (iov1 : Iovec) : HttpConn where
  iov1
  readBuff := { buffer := List.replicate 1024 0 }
  writeBuff := { buffer := List.replicate 1024 0 }

/-- The bytes that `writev` is given. -/
def gathered (conn : HttpConn) : Bytes :=
  (conn.writeBuff.buffer.drop conn.iov0.base).take conn.iov0.len ++
    if conn.iovCnt = 2 then ((conn.response.mmFile.getD []).drop conn.iov1.base).take conn.iov1.len else []

/-- The bytes that `write` sends, given what its calls of `writev` return. -/
def outgoing (isET : Bool) : HttpConn → List Writev → Bytes
  | _, [] => []
  | _, .failed _ :: _ => []
  | conn, .sent len :: rest =>
    if len = 0 ∨ conn.iov0.len + conn.iov1.len = 0 then conn.gathered.take len
    else
      match conn.advance len with
      | .error _ => conn.gathered.take len
      | .ok next =>
        conn.gathered.take len ++ if isET ∨ 10240 < next.toWriteBytes then outgoing isET next rest else []

end HttpConn

namespace WebServer

/-- `InitEventMode_`: whether the socket that listens is edge-triggered, and whether the connections are. -/
def initEventMode (trigMode : Int) : Bool × Bool :=
  if trigMode = 0 then (false, false)
  else if trigMode = 1 then (false, true)
  else if trigMode = 2 then (true, false)
  else (true, true)

/-- What does not change while the server runs. -/
structure Config where
  listenFd : Nat
  timeoutMS : Int
  listenET : Bool
  isET : Bool
  srcDir : Bytes
  /-- What the memory of an entry of `users_` holds for `iov_[1]` before the entry is made. -/
  memory : Nat → Iovec := fun _ => {}

def Config.environment (config : Config) (files : Files) (userVerify : Verifier) : Environment :=
  { files, userVerify, srcDir := config.srcDir, isET := config.isET }

structure Events where
  EPOLLIN : Bool := false
  EPOLLOUT : Bool := false
  EPOLLRDHUP : Bool := false
  EPOLLHUP : Bool := false
  EPOLLERR : Bool := false
deriving DecidableEq, Repr

namespace Events

/-- `events & (EPOLLRDHUP | EPOLLHUP | EPOLLERR)` -/
def hangsUp (events : Events) : Bool := events.EPOLLRDHUP || events.EPOLLHUP || events.EPOLLERR

/-- What `epoll_wait` may report to one who waits for `event`. All wait for `EPOLLRDHUP`, and the last two
are always reported. -/
def reportable (event : Event) (events : Events) : Bool :=
  (!events.EPOLLIN || event = .EPOLLIN) && (!events.EPOLLOUT || event = .EPOLLOUT) &&
    (events.EPOLLIN || events.EPOLLOUT || events.hangsUp)

end Events

/-- One of `events_`, with what the descriptor waited for. -/
structure Report where
  fd : Nat
  events : Events
  waited : Event
deriving DecidableEq, Repr

/-- How far `CloseConn_` has come. -/
inductive Closing where
  /-- At `DelFd`. -/
  | delFd
  /-- In `Close`, before `userCount` is decremented. -/
  | shut
  /-- At `close`. -/
  | close
deriving DecidableEq, Repr

/-- What a thread of the pool is at. -/
inductive Work where
  | onRead (fd : Nat)
  | onWrite (fd : Nat)
  /-- The request or the response has been seen to, and the connection is to wait for the event. -/
  | modFd (fd : Nat) (event : Event)
  | closeConn (fd : Nat) (closing : Closing)
deriving DecidableEq, Repr

/-- Where the thread that runs `Start` is. -/
inductive MainThread where
  /-- At the head of the loop. -/
  | pass
  /-- `tick` has these callbacks to call. -/
  | expired (fds : List Nat)
  | wait
  | handle (reports : List Report)
  /-- In the loop of `DealListen_`. -/
  | accept (reports : List Report)
  /-- `AddClient_`, at `AddFd`. -/
  | addFd (fd : Nat) (reports : List Report)
  | closeConn (fd : Nat) (closing : Closing) (next : MainThread)
  /-- `AddTask`, at `notify_one`. -/
  | notify (reports : List Report)
deriving DecidableEq, Repr

/-- An entry of `users_`. The last two fields are history: the bytes sent on the connection and the
responses prepared for it. -/
structure Client where
  conn : HttpConn
  sent : Bytes := []
  responses : List Bytes := []

/-- `OnProcess`, with the event that the connection is to wait for. -/
def Client.process (env : Environment) (client : Client) : Except Fault (Client × Event) := do
  let (conn, event) ← onProcess env client.conn
  let responses := if event = .EPOLLOUT then client.responses ++ [conn.gathered] else client.responses
  return ({ client with conn, responses }, event)

/-- How the process has ended. -/
inductive Crash where
  | thread (fault : Fault)
  /-- An assertion about `users_` does not hold. -/
  | users
  /-- `front` of an empty heap. -/
  | timer
deriving DecidableEq

def MAX_FD : Int := 65536

end WebServer

open WebServer in
structure WebServer where
  main : MainThread := .pass
  pool : ThreadPool Work
  users : Nat → Option Client := fun _ => none
  userCount : Int := 0
  timer : Timer Nat := {}
  /-- The sockets of clients that are open. -/
  opened : List Nat := []
  /-- Those in the interest list, and those that wait for an event. -/
  registered : List Nat := []
  armed : List (Nat × WebServer.Event) := []
  /-- A call of `epoll_ctl` or `close` has failed. -/
  refused : Bool := false
  crash : Option Crash := none

namespace WebServer

def new (threadNum : Nat) : WebServer := { pool := .new threadNum }

def setClient (fd : Nat) (client : Client) (server : WebServer) : WebServer :=
  { server with users := Function.update server.users fd (some client) }

/-- `Epoller::AddFd` -/
def addFd (fd : Nat) (event : Event) (server : WebServer) : WebServer :=
  if fd ∈ server.registered then { server with refused := true }
  else { server with registered := fd :: server.registered, armed := (fd, event) :: server.armed }

/-- `Epoller::ModFd` -/
def modFd (fd : Nat) (event : Event) (server : WebServer) : WebServer :=
  if fd ∈ server.registered then { server with armed := (fd, event) :: server.armed.filter (·.1 ≠ fd) }
  else { server with refused := true }

/-- `Epoller::DelFd` -/
def delFd (fd : Nat) (server : WebServer) : WebServer :=
  if fd ∈ server.registered then
    { server with registered := server.registered.erase fd, armed := server.armed.filter (·.1 ≠ fd) }
  else { server with refused := true }

/-- `close`, which takes the descriptor out of the interest list. -/
def closeFd (fd : Nat) (server : WebServer) : WebServer :=
  if fd ∈ server.opened then
    { server with
      opened := server.opened.erase fd, registered := server.registered.erase fd, armed := server.armed.filter (·.1 ≠ fd) }
  else { server with refused := true }

/-- A part of `CloseConn_`, and what comes next of it. -/
def closePart (fd : Nat) (server : WebServer) : Closing → WebServer × Option Closing
  | .delFd => (server.delFd fd, some .shut)
  | .shut =>
    match server.users fd with
    | none => ({ server with crash := some .users }, none)
    | some client =>
      let closed := server.setClient fd { client with conn := client.conn.close }
      if client.conn.isClose then (closed, none) else ({ closed with userCount := server.userCount - 1 }, some .close)
  | .close => (server.closeFd fd, none)

/-- `HttpConn::init` of the entry, which is made if it is not there. -/
def initClient (config : Config) (fd : Nat) (server : WebServer) : WebServer :=
  let conn := match server.users fd with
    | some client => client.conn
    | none => HttpConn.new (config.memory fd)
  { server.setClient fd { conn := conn.init } with userCount := server.userCount + 1, opened := fd :: server.opened }

/-- `AddClient_`, up to `AddFd`. The socket has just been accepted. -/
def addClient (config : Config) (fd : Nat) (now : Int) (reports : List Report) (server : WebServer) :
    Option WebServer :=
  if 0 < config.timeoutMS then do
    let timer ← server.timer.add fd config.timeoutMS fd now
    return { server.initClient config fd with timer, main := .addFd fd reports }
  else return { server.initClient config fd with main := .addFd fd reports }

/-- `DealRead_` and `DealWrite_`. Without a time limit `ExtentTime_` does nothing; with one the loop does not
come this far. -/
def deal (work : Work) (reports : List Report) (server : WebServer) : WebServer :=
  { server with pool := server.pool.addTask work, main := .notify reports }

/-- One pass of the loop over the reports. -/
def handle (config : Config) (report : Report) (reports : List Report) (server : WebServer) : WebServer :=
  if report.fd = config.listenFd then { server with main := .accept reports }
  else if report.events.hangsUp then
    if (server.users report.fd).isSome then { server with main := .closeConn report.fd .delFd (.handle reports) }
    else { server with crash := some .users }
  else if report.events.EPOLLIN then
    if (server.users report.fd).isSome then server.deal (.onRead report.fd) reports else { server with crash := some .users }
  else if report.events.EPOLLOUT then
    if (server.users report.fd).isSome then server.deal (.onWrite report.fd) reports else { server with crash := some .users }
  else { server with main := .handle reports }

/-- `Epoller::Wait`. A connection that is reported waits no longer. -/
def wait (config : Config) (reports : List Report) (server : WebServer) : Option WebServer :=
  if reports.length ≤ 1024 ∧ (reports.map Report.fd).Nodup ∧ (∀ report ∈ reports,
      (if report.fd = config.listenFd then report.waited = .EPOLLIN else (report.fd, report.waited) ∈ server.armed) ∧
        report.events.reportable report.waited = true) then
    some { server with
      main := .handle reports, armed := server.armed.filter fun entry => entry.1 ∉ reports.map Report.fd }
  else none

/-- What comes of `accept`. A new descriptor is none that is open. -/
def accept (config : Config) (accepted : Option Nat) (now : Int) (reports : List Report) (server : WebServer) :
    Option WebServer :=
  match accepted with
  | none => some { server with main := .handle reports }
  | some fd =>
    if fd = 0 ∨ fd = config.listenFd ∨ fd ∈ server.opened then none
    else if MAX_FD ≤ server.userCount then some { server with main := .handle reports }
    else server.addClient config fd now reports

/-- The loop of `Start` and what it calls. -/
def go (config : Config) (server : WebServer) : MainThread → Option WebServer
  | .expired [] => some { server with main := .wait }
  | .expired (fd :: fds) => some { server with main := .closeConn fd .delFd (.expired fds) }
  | .handle [] => some { server with main := .pass }
  | .handle (report :: reports) => some (server.handle config report reports)
  | .addFd fd reports =>
    some { server.addFd fd .EPOLLIN with main := if config.listenET then .accept reports else .handle reports }
  | .closeConn fd closing next =>
    match server.closePart fd closing with
    | (server, some closing) => some { server with main := .closeConn fd closing next }
    | (server, none) => some { server with main := next }
  | .pass | .wait | .accept _ | .notify _ => none

/-- The head of the loop, given what the clock shows in `getNextTick`. -/
def pass (config : Config) (now : Nat → Int) (later : Int) (server : WebServer) : WebServer :=
  if 0 < config.timeoutMS then
    match server.timer.getNextTick now later with
    | none => { server with crash := some .timer }
    | some (_, fired, timer) => { server with timer, main := .expired (fired.map TimerNode.cb) }
  else { server with main := .wait }

/-- The thread is done with its task. -/
def finish (thread : Nat) (server : WebServer) : WebServer :=
  { server with pool := { server.pool with threads := server.pool.threads.set thread .awake } }

/-- The thread goes on with what is left of its task. -/
def resume (thread : Nat) (work : Work) (server : WebServer) : WebServer :=
  { server with pool := server.pool.resume thread work }

/-- `OnProcess`, up to `ModFd`. -/
def process (env : Environment) (thread fd : Nat) (client : Client) (server : WebServer) : WebServer :=
  match client.process env with
  | .error fault => { server with crash := some (.thread fault) }
  | .ok (client, event) => (server.setClient fd client).resume thread (.modFd fd event)

/-- `OnRead_`, up to `ModFd` or `CloseConn_`. -/
def readClient (env : Environment) (thread fd : Nat) (results : List Readv) (server : WebServer) : Option WebServer := do
  let client ← server.users fd
  match ← client.conn.read env.isET results with
  | .error fault => return { server with crash := some (.thread fault) }
  | .ok (conn, ret) =>
    if ret = .received [] ∨ ret = .failed false then
      return (server.setClient fd { client with conn }).resume thread (.closeConn fd .delFd)
    else return server.process env thread fd { client with conn }

/-- `OnWrite_`, up to `ModFd` or `CloseConn_`. -/
def writeClient (env : Environment) (thread fd : Nat) (results : List Writev) (server : WebServer) : Option WebServer := do
  let client ← server.users fd
  match ← client.conn.write env.isET results with
  | .error fault => return { server with crash := some (.thread fault) }
  | .ok (conn, ret) =>
    let client := { client with conn, sent := client.sent ++ client.conn.outgoing env.isET results }
    match afterWrite conn ret with
    | .process => return server.process env thread fd client
    | .rearm => return (server.setClient fd client).resume thread (.modFd fd .EPOLLOUT)
    | .close => return (server.setClient fd client).resume thread (.closeConn fd .delFd)

/-- The rest of a task. -/
def work (thread : Nat) (server : WebServer) : Work → Option WebServer
  | .onRead _ | .onWrite _ => none
  | .modFd fd event => some ((server.modFd fd event).finish thread)
  | .closeConn fd closing =>
    match server.closePart fd closing with
    | (server, some closing) => some (server.resume thread (.closeConn fd closing))
    | (server, none) => some (server.finish thread)

inductive Action where
  | pass (now : Nat → Int) (later : Int)
  | wait (reports : List Report)
  | accept (accepted : Option Nat) (now : Int)
  | notify (thread : Option Nat)
  /-- The thread of `Start` goes on. -/
  | go
  | check (thread : Nat)
  | wake (thread : Nat)
  | read (thread : Nat) (files : Files) (userVerify : Verifier) (results : List Readv)
  | write (thread : Nat) (files : Files) (userVerify : Verifier) (results : List Writev)
  /-- A thread of the pool goes on. -/
  | work (thread : Nat)

/-- The work that a thread is in. -/
def workOf (thread : Nat) (server : WebServer) : Option Work := server.pool.threads[thread]? >>= PoolThread.task?

def setPool (server : WebServer) (pool : ThreadPool Work) : WebServer := { server with pool }

def act (config : Config) (server : WebServer) : Action → Option WebServer
  | .pass now later => if server.main = .pass then some (server.pass config now later) else none
  | .wait reports => if server.main = .wait then server.wait config reports else none
  | .accept accepted now =>
    match server.main with
    | .accept reports => server.accept config accepted now reports
    | _ => none
  | .notify thread =>
    match server.main with
    | .notify reports => (server.pool.step (.notifyOne thread)).map fun pool => { server with pool, main := .handle reports }
    | _ => none
  | .go => server.go config server.main
  | .check thread => (server.pool.step (.check thread)).map server.setPool
  | .wake thread => (server.pool.step (.wake thread)).map server.setPool
  | .read thread files userVerify results =>
    match server.workOf thread with
    | some (.onRead fd) => server.readClient (config.environment files userVerify) thread fd results
    | _ => none
  | .write thread files userVerify results =>
    match server.workOf thread with
    | some (.onWrite fd) => server.writeClient (config.environment files userVerify) thread fd results
    | _ => none
  | .work thread => server.workOf thread >>= server.work thread

/-- A process that has ended takes no steps. -/
def step (config : Config) (server : WebServer) (action : Action) : Option WebServer :=
  if server.crash.isSome then none else server.act config action

end WebServer

end HttpFramework.Code
