import HttpFramework.Http.Context
import HttpFramework.Http.Response

/-! `http::HttpServer` on one plain connection (`useSSL_` is off): every batch of
bytes that muduo reads is appended to the input buffer and handed to `onMessage`.
Closing the sending half with `shutdown` does not stop later batches. -/

namespace HttpFramework.Http

/-- What an installed callback may throw: `onMessage` catches a `std::exception`,
anything else ends the process. -/
inductive Thrown where
  | stdException
  | other
deriving DecidableEq, Repr

abbrev HttpCallback := HttpRequest → HttpResponse → Except Thrown HttpResponse

structure TcpConnection where
  context : HttpContext := {}
  inputBuffer : Bytes := []
  connected : Bool := true
  sent : Bytes := []
deriving DecidableEq

namespace TcpConnection

/-- Data sent after `shutdown` is given up. -/
def send (connection : TcpConnection) (data : Bytes) : TcpConnection :=
  if connection.connected then { connection with sent := connection.sent ++ data } else connection

def shutdown (connection : TcpConnection) : TcpConnection :=
  { connection with connected := false }

def badRequest (connection : TcpConnection) : TcpConnection :=
  (connection.send (ascii "HTTP/1.1 400 Bad Request" ++ CRLF ++ CRLF)).shutdown

end TcpConnection

/-- One batch of received bytes. A callback object may keep state between requests,
so each batch comes with what the installed callback does at that time. -/
structure Arrival where
  bytes : Bytes
  receiveTime : Timestamp := 0
  callback : HttpCallback

/-- What one call of `onMessage` did: the arguments of its `parseRequest` call, how
that call ended (`none` when it does not return), the request that was passed to
`onRequest`, and what the callback threw. -/
structure Report where
  context : HttpContext
  buf : Bytes
  verdict : Option Verdict
  dispatched : Option HttpRequest := none
  thrown : Option Thrown := none
deriving DecidableEq

/-- A connection lives on as long as `onMessage` returns. -/
inductive Life where
  | live (connection : TcpConnection)
  | aborted
  | hung
  | terminated
deriving DecidableEq

def onRequest (connection : TcpConnection) (request : HttpRequest) (callback : HttpCallback) :
    Except Thrown TcpConnection := do
  let header := request.getHeader (ascii "Connection")
  let close := header = ascii "close" ∨ (request.version = ascii "HTTP/1.0" ∧ header ≠ ascii "Keep-Alive")
  let response ← callback request { closeConnection := close }
  let connection := connection.send response.appendToBuffer
  return if response.closeConnection then connection.shutdown else connection

/-- The branch `context->gotAll()`. An exception of the callback leaves it before
the context is reset. -/
def dispatch (report : Report) (connection : TcpConnection) (callback : HttpCallback) : Report × Life :=
  let request := connection.context.request
  match onRequest connection request callback with
  | .ok connection =>
    ({ report with dispatched := some request }, .live { connection with context := connection.context.reset })
  | .error .stdException =>
    ({ report with dispatched := some request, thrown := some .stdException }, .live connection.badRequest)
  | .error .other => ({ report with dispatched := some request, thrown := some .other }, .terminated)

def onMessage (connection : TcpConnection) (receiveTime : Timestamp) (callback : HttpCallback) : Report × Life :=
  let report : Report := { context := connection.context, buf := connection.inputBuffer, verdict := none }
  match connection.context.parseRequest connection.inputBuffer receiveTime with
  | none => (report, .hung)
  | some ⟨verdict, context, unread⟩ =>
    let report := { report with verdict := some verdict }
    let connection := { connection with context, inputBuffer := unread }
    match verdict with
    | .asserted => (report, .aborted)
    | .threw _ => (report, .live connection.badRequest)
    | .returned ok =>
      let connection := if ok then connection else connection.badRequest
      if connection.context.gotAll then dispatch report connection callback
      else (report, .live connection)

def receive (connection : TcpConnection) (arrival : Arrival) : Report × Life :=
  onMessage { connection with inputBuffer := connection.inputBuffer ++ arrival.bytes }
    arrival.receiveTime arrival.callback

/-- The calls of `onMessage` for a sequence of batches, in order. -/
def serve : Life → List Arrival → List Report
  | .live connection, arrival :: arrivals =>
    (receive connection arrival).1 :: serve (receive connection arrival).2 arrivals
  | _, _ => []

/-- What has become of the connection after a sequence of batches. -/
def after : Life → List Arrival → Life
  | .live connection, arrival :: arrivals => after (receive connection arrival).2 arrivals
  | life, _ => life

/-- `onConnection` gives a new connection a fresh context. -/
def opened : Life := .live {}

end HttpFramework.Http
