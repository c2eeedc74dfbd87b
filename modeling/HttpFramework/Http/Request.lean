import HttpFramework.Cpp

/-! `http::HttpRequest`: the request that the parser fills in field by field. -/

namespace HttpFramework.Http

inductive Method where
  | kInvalid | kGet | kPost | kHead | kPut | kDelete | kOptions
deriving DecidableEq, Repr

/-- Microseconds since the epoch, as in `muduo::Timestamp`. -/
abbrev Timestamp := Nat

structure HttpRequest where
  method : Method := .kInvalid
  version : Bytes := ascii "Unknown"
  path : Bytes := []
  pathParameters : Dict := ∅
  queryParameters : Dict := ∅
  receiveTime : Timestamp := 0
  headers : Dict := ∅
  content : Bytes := []
  contentLength : Nat := 0
deriving DecidableEq

namespace HttpRequest

def setReceiveTime (request : HttpRequest) (t : Timestamp) : HttpRequest :=
  { request with receiveTime := t }

/-- `none` is the failure of the assertion at the head of the function. Note that
`HEAD` is not among the methods that are recognised. -/
def setMethod (request : HttpRequest) (m : Bytes) : Option (Bool × HttpRequest) :=
  if request.method = .kInvalid then
    let method : Method :=
      if m = ascii "GET" then .kGet
      else if m = ascii "POST" then .kPost
      else if m = ascii "PUT" then .kPut
      else if m = ascii "DELETE" then .kDelete
      else if m = ascii "OPTIONS" then .kOptions
      else .kInvalid
    some (method != .kInvalid, { request with method })
  else
    none

def setPath (request : HttpRequest) (path : Bytes) : HttpRequest :=
  { request with path }

def setPathParameters (request : HttpRequest) (key value : Bytes) : HttpRequest :=
  { request with pathParameters := request.pathParameters.insert key value }

def getPathParameters (request : HttpRequest) (key : Bytes) : Bytes :=
  request.pathParameters[key]?.getD []

def getQueryParameters (request : HttpRequest) (key : Bytes) : Bytes :=
  request.queryParameters[key]?.getD []

/-- A piece between two `&`: it is dropped when it has no `=`. -/
def addParameter (parameters : Dict) (pair : Bytes) : Dict :=
  let equalPos := pair.idxOf (chr '=')
  if equalPos ≠ pair.length then
    parameters.insert (pair.take equalPos) (pair.drop (equalPos + 1))
  else
    parameters

/-- The loop over the pieces in front of each `&`, then the last piece. Every pass
drops at least the `&`, so the length of the text is enough fuel. -/
def addParameters : Nat → Dict → Bytes → Dict
  | 0, parameters, _ => parameters
  | fuel + 1, parameters, text =>
    let pos := text.idxOf (chr '&')
    if pos ≠ text.length then
      addParameters fuel (addParameter parameters (text.take pos)) (text.drop (pos + 1))
    else
      addParameter parameters text

def setQueryParameters (request : HttpRequest) (argumentStr : Bytes) : HttpRequest :=
  { request with
    queryParameters := addParameters (argumentStr.length + 1) request.queryParameters argumentStr }

def setVersion (request : HttpRequest) (version : Bytes) : HttpRequest :=
  { request with version }

/-- White space in front of and after a header's value is removed. -/
def trim (text : Bytes) : Bytes := (text.dropWhile isspace).rdropWhile isspace

/-- `line` is the header line without its CRLF and `colon` the place of its first colon. -/
def addHeader (request : HttpRequest) (line : Bytes) (colon : Nat) : HttpRequest :=
  { request with headers := request.headers.insert (line.take colon) (trim (line.drop (colon + 1))) }

def getHeader (request : HttpRequest) (field : Bytes) : Bytes :=
  request.headers[field]?.getD []

def setBody (request : HttpRequest) (body : Bytes) : HttpRequest :=
  { request with content := body }

def setContentLength (request : HttpRequest) (length : Nat) : HttpRequest :=
  { request with contentLength := length }

/-- Only these seven members change places; `content_` and `contentLength_` are
not among them. The first result is what `this` becomes. -/
def swap (this that : HttpRequest) : HttpRequest × HttpRequest :=
  ({ this with
      method := that.method, path := that.path, pathParameters := that.pathParameters,
      queryParameters := that.queryParameters, version := that.version, headers := that.headers,
      receiveTime := that.receiveTime },
   { that with
      method := this.method, path := this.path, pathParameters := this.pathParameters,
      queryParameters := this.queryParameters, version := this.version, headers := this.headers,
      receiveTime := this.receiveTime })

end HttpRequest

end HttpFramework.Http
