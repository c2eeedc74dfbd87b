import HttpFramework.Code.Buffer
import HttpFramework.Library.Loop
import HttpFramework.Library.Search

/-! `HttpRequest` of the web server: the request is read line by line from the buffer, as far as
the buffer goes. `UserVerify`, which asks the database, is a parameter; it may abort. -/

namespace HttpFramework.Code
open Loop Search

inductive ParseState where
  | REQUEST_LINE | HEADERS | BODY | FINISH
deriving DecidableEq, Repr

/-- How a call can end other than by returning. -/
inductive Fault where
  | failed (failure : Failure)
  /-- A string or a mapping has been accessed outside. -/
  | outside
  /-- `UserVerify` has aborted. -/
  | aborted
  /-- A loop has used up its fuel. -/
  | unfinished
deriving DecidableEq

structure HttpRequest where
  state : ParseState := .REQUEST_LINE
  method : Bytes := []
  path : Bytes := []
  version : Bytes := []
  body : Bytes := []
  header : Dict := ∅
  post : Dict := ∅

abbrev Verifier := Bytes → Bytes → Bool → Option Bool

namespace HttpRequest

def DEFAULT_HTML : List Bytes :=
  [ascii "/index", ascii "/register", ascii "/login", ascii "/welcome", ascii "/video", ascii "/picture"]

def DEFAULT_HTML_TAG : List (Bytes × Int) := [(ascii "/register.html", 0), (ascii "/login.html", 1)]

def init : HttpRequest := {}

def isKeepAlive (request : HttpRequest) : Bool :=
  match request.header[ascii "Connection"]? with
  | some value => value = ascii "keep-alive" ∧ request.version = ascii "1.1"
  | none => false

def parsePath (request : HttpRequest) : HttpRequest :=
  if request.path = ascii "/" then { request with path := ascii "/index.html" }
  else if DEFAULT_HTML.contains request.path then { request with path := request.path ++ ascii ".html" }
  else request

/-- A match of `^([^ ]*) ([^ ]*) HTTP/([^ ]*)$`: the line has two blanks. -/
def matchRequestLine (line : Bytes) : Option (Bytes × Bytes × Bytes) :=
  match line.splitOn (chr ' ') with
  | [method, path, protocol] => if (ascii "HTTP/").isPrefixOf protocol then some (method, path, protocol.drop 5) else none
  | _ => none

def parseRequestLine (line : Bytes) (request : HttpRequest) : Option HttpRequest :=
  (matchRequestLine line).map fun (method, path, version) => { request with method, path, version, state := .HEADERS }

/-- A match of `^([^:]*): ?(.*)$`. The dot stands for any character that does not end a line. -/
def matchHeader (line : Bytes) : Option (Bytes × Bytes) :=
  match line.dropWhile (· != chr ':') with
  | [] => none
  | _ :: rest =>
    let value := if rest.head? = some (chr ' ') then rest.tail else rest
    if value.contains CR ∨ value.contains LF then none else some (line.takeWhile (· != chr ':'), value)

def parseHeader (line : Bytes) (request : HttpRequest) : HttpRequest :=
  match matchHeader line with
  | some (key, value) => { request with header := request.header.insert key value }
  | none => { request with state := .BODY }

/-- A `char` as the number it stands for. -/
def signedChar (ch : UInt8) : Int := if ch < 128 then ch.toNat else ch.toNat - 256

/-- The conversion of an `int` to `char`. -/
def toChar (n : Int) : UInt8 := (n % 256).toNat.toUInt8

def converHex (ch : UInt8) : Int :=
  if chr 'A' ≤ ch ∧ ch ≤ chr 'F' then signedChar ch - signedChar (chr 'A') + 10
  else if chr 'a' ≤ ch ∧ ch ≤ chr 'f' then signedChar ch - signedChar (chr 'a') + 10
  else signedChar ch

/-- The variables of the loop in `ParseFromUrlencoded_`. -/
structure Scan where
  body : Bytes
  i : Nat := 0
  j : Nat := 0
  key : Bytes := []
  post : Dict

namespace Scan

/-- `body_.substr(j, i - j)` -/
def slice (scan : Scan) : Bytes := (scan.body.drop scan.j).take (scan.i - scan.j)

/-- `body_[k]`. What an `int` cannot hold is negative there, and no position. -/
def char? (scan : Scan) (k : Nat) : Option UInt8 := if k < 2 ^ 31 then scan.body[k]? else none

/-- The body of the loop and the `i++` behind it. -/
def step (scan : Scan) : Except Fault Scan :=
  match scan.char? scan.i with
  | none => .error .outside
  | some ch =>
    if ch = chr '=' then .ok { scan with key := scan.slice, j := scan.i + 1, i := scan.i + 1 }
    else if ch = chr '+' then .ok { scan with body := scan.body.set scan.i (chr ' '), i := scan.i + 1 }
    else if ch = chr '%' then
      match scan.char? (scan.i + 1), scan.char? (scan.i + 2) with
      | some high, some low =>
        let num := converHex high * 16 + converHex low
        let body := scan.body.set (scan.i + 2) (toChar (num.tmod 10 + 48))
        .ok { scan with body := body.set (scan.i + 1) (toChar (num.tdiv 10 + 48)), i := scan.i + 3 }
      | _, _ => .error .outside
    else if ch = chr '&' then
      .ok { scan with post := scan.post.insert scan.key scan.slice, j := scan.i + 1, i := scan.i + 1 }
    else .ok { scan with i := scan.i + 1 }

/-- Every round moves `i` forward, so that as many rounds as there are characters are enough. Where
`i` overflows it is below `n` again, and one round more fails. -/
def run (n : Int) : Nat → Scan → Except Fault Scan
  | 0, scan => .ok scan
  | fuel + 1, scan => if toInt scan.i < n then do run n fuel (← scan.step) else .ok scan

end Scan

def parseFromUrlencoded (request : HttpRequest) : Except Fault HttpRequest :=
  if request.body = [] then .ok request
  else do
    let n := toInt request.body.length
    let scan ← Scan.run n (n.toNat + 1) { body := request.body, post := request.post }
    if scan.j ≤ scan.i then
      if ¬ scan.post.contains scan.key ∧ scan.j < scan.i then
        return { request with body := scan.body, post := scan.post.insert scan.key scan.slice }
      else
        return { request with body := scan.body, post := scan.post }
    else .error (.failed .asserted)

/-- `operator[]` makes the entries that it does not find. -/
def parsePost (userVerify : Verifier) (request : HttpRequest) : Except Fault HttpRequest :=
  if request.method = ascii "POST" then
    let request := { request with header := request.header.insertIfNew (ascii "Content-Type") [] }
    if request.header[ascii "Content-Type"]? = some (ascii "application/x-www-form-urlencoded") then do
      let request ← request.parseFromUrlencoded
      match DEFAULT_HTML_TAG.lookup request.path with
      | none => return request
      | some tag =>
        if tag = 0 ∨ tag = 1 then
          let post := (request.post.insertIfNew (ascii "username") []).insertIfNew (ascii "password") []
          match userVerify (post.getD (ascii "username") []) (post.getD (ascii "password") []) (tag = 1) with
          | some true => return { request with post, path := ascii "/welcome.html" }
          | some false => return { request with post, path := ascii "/error.html" }
          | none => .error .aborted
        else
          return request
    else
      .ok request
  else
    .ok request

def parseBody (userVerify : Verifier) (line : Bytes) (request : HttpRequest) : Except Fault HttpRequest := do
  let request ← ({ request with body := line } : HttpRequest).parsePost userVerify
  return { request with state := .FINISH }

/-- The `switch` of `parse`. A request line that does not match has no result. -/
def parseLine (userVerify : Verifier) (line : Bytes) (readable : Nat) (request : HttpRequest) :
    Except Fault (Option HttpRequest) :=
  match request.state with
  | .REQUEST_LINE => .ok ((request.parseRequestLine line).map parsePath)
  | .HEADERS =>
    let request := request.parseHeader line
    .ok (some (if readable ≤ 2 then { request with state := .FINISH } else request))
  | .BODY => do return some (← request.parseBody userVerify line)
  | .FINISH => .ok (some request)

/-- What `parse` returns, with the request and the buffer as it leaves them. -/
abbrev Parsed := Bool × HttpRequest × Buffer

def pass (userVerify : Verifier) (current : HttpRequest × Buffer) : Pass (HttpRequest × Buffer) (Except Fault Parsed) :=
  let buff := current.2
  if buff.readableBytes = 0 ∨ current.1.state = .FINISH then .leave (.ok (true, current.1, buff))
  else
    let readable := buff.peek buff.readableBytes
    let lineEnd := (firstPair CR LF readable).getD readable.length
    match current.1.parseLine userVerify (readable.take lineEnd) buff.readableBytes with
    | .error fault => .leave (.error fault)
    | .ok none => .leave (.ok (false, current.1, buff))
    | .ok (some request) =>
      if lineEnd = readable.length then .leave (.ok (true, request, buff))
      else
        match buff.retrieveUntil (lineEnd + 2) with
        | .ok rest => .again (request, rest)
        | .error failure => .leave (.error (.failed failure))

/-- Every pass but the last takes something from the buffer, which bounds their number. -/
def parse (userVerify : Verifier) (request : HttpRequest) (buff : Buffer) : Except Fault Parsed :=
  if buff.readableBytes = 0 then .ok (false, request, buff)
  else (Loop.run (pass userVerify) (buff.readableBytes + 1) (request, buff)).getD (.error .unfinished)

end HttpRequest

end HttpFramework.Code
