import HttpFramework.Http.Middleware
import HttpFramework.Http.Server
import HttpFramework.StdRegex

/-! `Router` and `HttpServer::handleRequest`, the callback that is installed by default. Handlers work
on the state of an application, and a handler may do something undefined. -/

namespace HttpFramework.Http

/-- What a handler throws, and the response and the state as it leaves them. -/
abbrev Handler (σ : Type) := HttpRequest → HttpResponse → σ → Option (Option Exception × HttpResponse × σ)

structure RouteKey where
  method : Method
  path : Bytes
deriving DecidableEq

/-- A pattern as `std::regex_match` uses it: the captured parts of a path that matches. -/
abbrev PathRegex := Bytes → Option (List Bytes)

structure RegexRoute (σ : Type) where
  method : Method
  pathRegex : PathRegex
  handler : Handler σ

structure Router (σ : Type) where
  handlers : RouteKey → Option (Handler σ) := fun _ => none
  callbacks : RouteKey → Option (Handler σ) := fun _ => none
  regexHandlers : List (RegexRoute σ) := []
  regexCallbacks : List (RegexRoute σ) := []

namespace Router

variable {σ : Type}

def registerHandler (method : Method) (path : Bytes) (handler : Handler σ) (router : Router σ) : Router σ :=
  { router with handlers := Function.update router.handlers ⟨method, path⟩ (some handler) }

def registerCallback (method : Method) (path : Bytes) (callback : Handler σ) (router : Router σ) : Router σ :=
  { router with callbacks := Function.update router.callbacks ⟨method, path⟩ (some callback) }

def addRegexHandler (method : Method) (pathRegex : PathRegex) (handler : Handler σ) (router : Router σ) : Router σ :=
  { router with regexHandlers := router.regexHandlers ++ [⟨method, pathRegex, handler⟩] }

def addRegexCallback (method : Method) (pathRegex : PathRegex) (callback : Handler σ) (router : Router σ) : Router σ :=
  { router with regexCallbacks := router.regexCallbacks ++ [⟨method, pathRegex, callback⟩] }

/-- `:name` behind a slash stands for anything up to the next slash. -/
def convertToRegex (pathPattern : Bytes) : Option PathRegex := do
  let parameter ← StdRegex.ofText (ascii "/:([^/]+)")
  let regexPattern := ascii "^" ++ parameter.regexReplace pathPattern (ascii "/([^/]+)") ++ ascii "$"
  let regex ← StdRegex.ofText regexPattern
  return regex.regexMatch

def extractPathParameters (groups : List Bytes) (request : HttpRequest) : HttpRequest :=
  (groups.zipIdx 1).foldl (fun request group => request.setPathParameters (ascii "param" ++ decimal group.2) group.1) request

/-- The first dynamic route that takes the request, with what it has captured. -/
def matching (routes : List (RegexRoute σ)) (request : HttpRequest) : Option (Handler σ × List Bytes) :=
  routes.findSome? fun route =>
    if route.method = request.method then (route.pathRegex request.path).map (route.handler, ·) else none

/-- What `route` calls, with the request that it passes on. A dynamic callback is passed the
original request. -/
def target? (router : Router σ) (request : HttpRequest) : Option (Handler σ × HttpRequest) :=
  match router.handlers ⟨request.method, request.path⟩ with
  | some handler => some (handler, request)
  | none =>
    match router.callbacks ⟨request.method, request.path⟩ with
    | some callback => some (callback, request)
    | none =>
      match matching router.regexHandlers request with
      | some (handler, groups) => some (handler, extractPathParameters groups request)
      | none => (matching router.regexCallbacks request).map fun found => (found.1, request)

/-- The calls that `route` makes, and what comes of them. -/
structure Routed (σ : Type) where
  calls : List (Handler σ × HttpRequest) := []
  outcome : Option (Except Exception Bool × HttpResponse × σ)

/-- The call of a handler, behind which `route` returns `true`. -/
def invoke (handler : Handler σ) (request : HttpRequest) (resp : HttpResponse) (state : σ) : Routed σ where
  calls := [(handler, request)]
  outcome := (handler request resp state).map fun left => (left.1.elim (.ok true) .error, left.2)

def route (router : Router σ) (request : HttpRequest) (resp : HttpResponse) (state : σ) : Routed σ :=
  match router.handlers ⟨request.method, request.path⟩ with
  | some handler => invoke handler request resp state
  | none =>
    match router.callbacks ⟨request.method, request.path⟩ with
    | some callback => invoke callback request resp state
    | none =>
      match matching router.regexHandlers request with
      | some (handler, groups) => invoke handler (extractPathParameters groups request) resp state
      | none =>
        match matching router.regexCallbacks request with
        | some (callback, _) => invoke callback request resp state
        | none => { outcome := some (.ok false, resp, state) }

end Router

structure HttpServer (σ : Type) where
  router : Router σ := {}
  middlewares : List Middleware := []

namespace HttpServer

variable {σ : Type}

/-- The two `catch` blocks of `handleRequest`. -/
def caught (thrown : Exception) (resp : HttpResponse) (state : σ) : Except Thrown (HttpResponse × σ) :=
  match thrown with
  | .response res => .ok (res, state)
  | .std what => .ok ({ resp with statusCode := .k500InternalServerError, body := what }, state)
  | .other => .error .other

def notFound (resp : HttpResponse) : HttpResponse :=
  { resp with statusCode := .k404NotFound, statusMessage := ascii "Not Found", closeConnection := true }

def processAfter (server : HttpServer σ) (resp : HttpResponse) (state : σ) : Except Thrown (HttpResponse × σ) :=
  match MiddlewareChain.processAfter server.middlewares resp with
  | (none, resp) => .ok (resp, state)
  | (some thrown, resp) => caught thrown resp state

/-- `handleRequest` once a handler has returned or thrown. -/
def finish (server : HttpServer σ) : Option Exception × HttpResponse × σ → Except Thrown (HttpResponse × σ)
  | (none, resp, state) => server.processAfter resp state
  | (some thrown, resp, state) => caught thrown resp state

def handleRequest (server : HttpServer σ) (request : HttpRequest) (resp : HttpResponse) (state : σ) :
    Option (Except Thrown (HttpResponse × σ)) :=
  match MiddlewareChain.processBefore server.middlewares request with
  | .error thrown => some (caught thrown resp state)
  | .ok mutableReq =>
    match server.router.target? mutableReq with
    | none => some (server.processAfter (notFound resp) state)
    | some (handler, request) => (handler request resp state).map server.finish

end HttpServer

/-- The test at the start of `onRequest`. -/
def wantsClose (request : HttpRequest) : Bool :=
  request.getHeader (ascii "Connection") = ascii "close" ∨
    (request.version = ascii "HTTP/1.0" ∧ request.getHeader (ascii "Connection") ≠ ascii "Keep-Alive")

namespace HttpServer

variable {σ : Type}

/-- `onRequest` with the default callback, and what becomes of the state. -/
def onRequest (server : HttpServer σ) (connection : TcpConnection) (request : HttpRequest) (state : σ) :
    Option (Except Thrown (TcpConnection × σ)) := do
  let handled ← server.handleRequest request { closeConnection := wantsClose request } state
  return do
    let connection ← Http.onRequest connection request fun _ _ => handled.map Prod.fst
    let (_, state) ← handled
    return (connection, state)

end HttpServer

end HttpFramework.Http
