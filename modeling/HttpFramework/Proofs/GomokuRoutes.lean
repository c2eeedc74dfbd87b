import HttpFramework.Gomoku.Routes
import HttpFramework.Proofs.HandlerEffects
import HttpFramework.Proofs.StatusLine

/-! Which handler of `GomokuServer` a request reaches, and what `handleRequest` makes of its result. -/

namespace HttpFramework.Gomoku
open Http

/-- What can be requested of the server. -/
inductive Resource where
  | entry
  | login
  | register
  | logout
  | menu
  | aiStart
  | aiMove
  | aiRestart
  | backend
  | backendData
deriving DecidableEq, Repr

namespace Resource

def handle (moment : Moment) (arrival : Arrival) (exchange : Exchange) : Resource → Option Handled
  | .entry => some (EntryHandler.handle moment.site arrival exchange)
  | .login => some (LoginHandler.handle moment.site.toServices arrival exchange)
  | .register => some (RegisterHandler.handle moment.site arrival exchange)
  | .logout => some (LogoutHandler.handle moment.site.toServices arrival exchange)
  | .menu => some (MenuHandler.handle moment.site.toServices arrival exchange)
  | .aiStart => some (AiGameStartHandler.handle moment.site.toServices arrival exchange)
  | .aiMove => AiGameMoveHandler.handle moment.site.toServices arrival moment.rand exchange
  | .aiRestart => some (restartChessGameVsAi moment.site.toServices arrival exchange)
  | .backend => some (GameBackendHandler.handle moment.site arrival exchange)
  | .backendData => some (getBackendData moment.site arrival exchange)

def ofKey (key : RouteKey) : Option Resource :=
  if key = ⟨.kGet, ascii "/backend"⟩ then some .backend
  else if key = ⟨.kPost, ascii "/aiBot/move"⟩ then some .aiMove
  else if key = ⟨.kGet, ascii "/aiBot/start"⟩ then some .aiStart
  else if key = ⟨.kGet, ascii "/menu"⟩ then some .menu
  else if key = ⟨.kPost, ascii "/user/logout"⟩ then some .logout
  else if key = ⟨.kPost, ascii "/register"⟩ then some .register
  else if key = ⟨.kPost, ascii "/login"⟩ then some .login
  else if key = ⟨.kGet, ascii "/entry"⟩ ∨ key = ⟨.kGet, ascii "/"⟩ then some .entry
  else if key = ⟨.kGet, ascii "/backend_data"⟩ then some .backendData
  else if key = ⟨.kGet, ascii "/aiBot/restart"⟩ then some .aiRestart
  else none

/-- The resource of a request that the middleware lets through. -/
def of (request : HttpRequest) : Option Resource := ofKey ⟨request.method, request.path⟩

end Resource

theorem target_initializeRouter (moment : Moment) (request : HttpRequest) :
    (initializeRouter moment).target? request =
      (Resource.of request).map fun resource =>
        (moment.handler fun arrival exchange => resource.handle moment arrival exchange, request) := by
  unfold initializeRouter Resource.of Resource.ofKey
  simp only [Router.target?, Router.registerHandler, Router.registerCallback, Function.update_apply, Router.matching,
    List.findSome?_nil, Option.map_none]
  generalize (⟨request.method, request.path⟩ : RouteKey) = key
  by_cases backend : key = ⟨.kGet, ascii "/backend"⟩
  · subst backend
    rfl
  by_cases move : key = ⟨.kPost, ascii "/aiBot/move"⟩
  · subst move
    rfl
  by_cases start : key = ⟨.kGet, ascii "/aiBot/start"⟩
  · subst start
    rfl
  by_cases menu : key = ⟨.kGet, ascii "/menu"⟩
  · subst menu
    rfl
  by_cases logout : key = ⟨.kPost, ascii "/user/logout"⟩
  · subst logout
    rfl
  by_cases register : key = ⟨.kPost, ascii "/register"⟩
  · subst register
    rfl
  by_cases login : key = ⟨.kPost, ascii "/login"⟩
  · subst login
    rfl
  by_cases entry : key = ⟨.kGet, ascii "/entry"⟩
  · subst entry
    rfl
  by_cases root : key = ⟨.kGet, ascii "/"⟩
  · subst root
    rfl
  by_cases data : key = ⟨.kGet, ascii "/backend_data"⟩
  · subst data
    rfl
  by_cases restart : key = ⟨.kGet, ascii "/aiBot/restart"⟩
  · subst restart
    rfl
  simp only [backend, move, start, menu, logout, register, login, entry, root, data, restart, if_false, or_self, Option.map_none]

variable {moment : Moment} {request : HttpRequest} {resp : HttpResponse} {server : GomokuServer}

/-- The response once the middleware has added its headers. -/
def dressed (resp : HttpResponse) : HttpResponse := CorsMiddleware.after .defaultConfig resp

theorem processBefore_httpServer (passes : request.method ≠ .kOptions) :
    MiddlewareChain.processBefore (httpServer moment).middlewares request = .ok request := by
  have passed : CorsMiddleware.before .defaultConfig request = .ok request := if_neg passes
  show CorsMiddleware.before .defaultConfig request >>= _ = _
  rw [passed]
  rfl

theorem handleRequest_preflight (options : request.method = .kOptions) :
    (httpServer moment).handleRequest request resp server =
      some (.ok (CorsMiddleware.handlePreflightRequest .defaultConfig request {}, server)) := by
  have stopped : CorsMiddleware.before .defaultConfig request =
      .error (.response (CorsMiddleware.handlePreflightRequest .defaultConfig request {})) := if_pos options
  have chain : MiddlewareChain.processBefore (httpServer moment).middlewares request =
      .error (.response (CorsMiddleware.handlePreflightRequest .defaultConfig request {})) := by
    show CorsMiddleware.before .defaultConfig request >>= _ = _
    rw [stopped]
    rfl
  rw [HttpServer.handleRequest, chain]
  rfl

theorem handleRequest_unknown (passes : request.method ≠ .kOptions) (unknown : Resource.of request = none) :
    (httpServer moment).handleRequest request resp server = some (.ok (dressed (HttpServer.notFound resp), server)) := by
  have target : (httpServer moment).router.target? request = none := by
    show (initializeRouter moment).target? request = none
    rw [target_initializeRouter, unknown]
    rfl
  simp only [HttpServer.handleRequest, processBefore_httpServer passes, target]
  rfl

/-- A handler that returns has its response dressed, and the text of an exception is the body. -/
def replied : Handled → HttpResponse × GomokuServer
  | (.ok (), exchange) => (dressed exchange.resp, exchange.server)
  | (.error what, exchange) =>
    ({ exchange.resp with statusCode := .k500InternalServerError, body := what }, exchange.server)

@[simp] theorem replied_server (handled : Handled) : (replied handled).2 = handled.2.server := by
  rcases handled with ⟨_ | ⟨⟩, exchange⟩ <;> rfl

theorem handleRequest_known (passes : request.method ≠ .kOptions) {resource : Resource} (known : Resource.of request = some resource) :
    (httpServer moment).handleRequest request resp server =
      (resource.handle moment ⟨request, moment.clock, moment.generated⟩ { resp, server }).map fun handled =>
        .ok (replied handled) := by
  have target : (httpServer moment).router.target? request =
      some (moment.handler fun arrival exchange => resource.handle moment arrival exchange, request) := by
    show (initializeRouter moment).target? request = _
    rw [target_initializeRouter, known]
    rfl
  simp only [HttpServer.handleRequest, processBefore_httpServer passes, target, Moment.handler, Option.map_map]
  congr 1
  funext handled
  rcases handled with ⟨_ | ⟨⟩, exchange⟩ <;> rfl

/-- The server changes only through the handler of a resource. -/
theorem handleRequest_cases {response : HttpResponse} {next : GomokuServer}
    (handled : (httpServer moment).handleRequest request resp server = some (.ok (response, next))) :
    (request.method = .kOptions ∨ Resource.of request = none) ∧ next = server ∨
      ∃ resource handled, request.method ≠ .kOptions ∧ Resource.of request = some resource ∧
        resource.handle moment ⟨request, moment.clock, moment.generated⟩ { resp, server } = some handled ∧
        next = handled.2.server := by
  by_cases options : request.method = .kOptions
  · rw [handleRequest_preflight options] at handled
    cases handled
    exact .inl ⟨.inl options, rfl⟩
  · cases known : Resource.of request with
    | none =>
      rw [handleRequest_unknown options known] at handled
      cases handled
      exact .inl ⟨.inr rfl, rfl⟩
    | some resource =>
      rw [handleRequest_known options known] at handled
      obtain ⟨left, found, same⟩ := Option.map_eq_some_iff.mp handled
      refine .inr ⟨resource, left, options, rfl, found, ?_⟩
      rw [← replied_server, Except.ok.inj same]

end HttpFramework.Gomoku
