import HttpFramework.Http.Request
import HttpFramework.Library.Loop
import HttpFramework.Library.Search

/-! `http::HttpContext`: the incremental request parser of a connection. The input
buffer of muduo is a queue of bytes; the parser looks at its front and retrieves
what it has used. -/

namespace HttpFramework.Http
open Loop

inductive ParseState where
  | kExpectRequestLine | kExpectHeaders | kExpectBody | kGotAll
deriving DecidableEq, Repr

structure HttpContext where
  state : ParseState := .kExpectRequestLine
  request : HttpRequest := {}
deriving DecidableEq

/-- The first CR LF of the readable bytes. -/
def findCRLF (buf : Bytes) : Option Nat := Search.firstPair CR LF buf

/-- How a call of `parseRequest` ends. -/
inductive Verdict where
  | returned (ok : Bool)
  | threw (exception : StdException)
  | asserted
deriving DecidableEq, Repr

/-- The end of a call with the context and the unread bytes it leaves behind. -/
structure Parsed where
  verdict : Verdict
  context : HttpContext
  unread : Bytes
deriving DecidableEq

namespace HttpContext

def gotAll (context : HttpContext) : Bool := context.state = .kGotAll

def reset (context : HttpContext) : HttpContext :=
  { state := .kExpectRequestLine, request := (context.request.swap {}).1 }

/-- What follows the first `?` of the target is the query. -/
def storeTarget (request : HttpRequest) (target : Bytes) : HttpRequest :=
  let argumentStart := target.idxOf (chr '?')
  if argumentStart ≠ target.length then
    (request.setPath (target.take argumentStart)).setQueryParameters (target.drop (argumentStart + 1))
  else
    request.setPath target

def acceptVersion (text : Bytes) : Option Bytes :=
  if text.length = 8 ∧ text.take 7 = ascii "HTTP/1." then
    if text.getLast? = some (chr '1') then some (ascii "HTTP/1.1")
    else if text.getLast? = some (chr '0') then some (ascii "HTTP/1.0")
    else none
  else
    none

/-- `none` is the failed assertion of `setMethod`. The request keeps whatever was
stored before the line was found to be wrong. -/
def processRequestLine (request : HttpRequest) (line : Bytes) : Option (Bool × HttpRequest) :=
  let space := line.idxOf (chr ' ')
  if space ≠ line.length then
    match request.setMethod (line.take space) with
    | none => none
    | some (false, request) => some (false, request)
    | some (true, request) =>
      let rest := line.drop (space + 1)
      let space := rest.idxOf (chr ' ')
      if space ≠ rest.length then
        let request := storeTarget request (rest.take space)
        match acceptVersion (rest.drop (space + 1)) with
        | some version => some (true, request.setVersion version)
        | none => some (false, request)
      else
        some (false, request)
  else
    some (false, request)

/-- The blank line after the headers decides whether a body follows. The exception
of `stoi` leaves the loop before the blank line is retrieved. -/
def endHeaders (context : HttpContext) (buf rest : Bytes) : Pass (HttpContext × Bytes) Parsed :=
  let request := context.request
  if request.method = .kPost ∨ request.method = .kPut then
    let contentLength := request.getHeader (ascii "Content-Length")
    if contentLength ≠ [] then
      match stoi contentLength with
      | .error exception => .leave ⟨.threw exception, context, buf⟩
      | .ok length =>
        let request := request.setContentLength (toSizeT length)
        if 0 < request.contentLength then .again ({ state := .kExpectBody, request }, rest)
        else .leave ⟨.returned true, { state := .kGotAll, request }, rest⟩
    else
      .leave ⟨.returned false, context, rest⟩
  else
    .leave ⟨.returned true, { context with state := .kGotAll }, rest⟩

/-- One pass through the body of the `while (hasMore)` loop. In the state `kGotAll`
no branch of it applies, and nothing changes. -/
def parsePass (receiveTime : Timestamp) : HttpContext × Bytes → Pass (HttpContext × Bytes) Parsed
  | (context, buf) =>
    match context.state with
    | .kExpectRequestLine =>
      match findCRLF buf with
      | some crlf =>
        match processRequestLine context.request (buf.take crlf) with
        | none => .leave ⟨.asserted, context, buf⟩
        | some (true, request) =>
          .again ({ state := .kExpectHeaders, request := request.setReceiveTime receiveTime }, buf.drop (crlf + 2))
        | some (false, request) => .leave ⟨.returned false, { context with request }, buf⟩
      | none => .leave ⟨.returned true, context, buf⟩
    | .kExpectHeaders =>
      match findCRLF buf with
      | some crlf =>
        let line := buf.take crlf
        let colon := line.idxOf (chr ':')
        let rest := buf.drop (crlf + 2)
        if colon < crlf then .again ({ context with request := context.request.addHeader line colon }, rest)
        else if crlf = 0 then endHeaders context buf rest
        else .leave ⟨.returned false, context, rest⟩
      | none => .leave ⟨.returned true, context, buf⟩
    | .kExpectBody =>
      let length := context.request.contentLength
      if buf.length < length then .leave ⟨.returned true, context, buf⟩
      else .leave ⟨.returned true, { state := .kGotAll, request := context.request.setBody (buf.take length) },
        buf.drop length⟩
    | .kGotAll => .again (context, buf)

/-- `none` says that the call does not return. Every pass outside `kGotAll` that
goes round again retrieves a line, so the fuel is never short otherwise. -/
def parseRequest (context : HttpContext) (buf : Bytes) (receiveTime : Timestamp) : Option Parsed :=
  run (parsePass receiveTime) (buf.length + 1) (context, buf)

end HttpContext

end HttpFramework.Http
