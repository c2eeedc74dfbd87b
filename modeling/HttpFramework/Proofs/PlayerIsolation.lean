import HttpFramework.Proofs.GomokuReplies

/-! Whose game a request can change. The handlers take the player from the session, where only
`LoginHandler` puts one, and only for a name and a password that the database knows. -/

namespace HttpFramework.Gomoku
open Http Transition

/-- The server, with the id that the database returned for the last successful check of a name and
a password on each session. -/
structure Checked where
  server : GomokuServer := {}
  checked : Bytes → Option Int := fun _ => none

namespace Checked

/-- Nothing has been checked on a session that is made for the request. -/
def met (moment : Moment) (request : HttpRequest) (state : Checked) : Bytes → Option Int :=
  if (state.server.sessionManager.current request moment.clock).isNone then
    Function.update state.checked moment.generated none
  else
    state.checked

/-- What has been checked once the request is handled. -/
def checks (moment : Moment) (request : HttpRequest) (state : Checked) : Bytes → Option Int :=
  match Resource.of request with
  | some .login =>
    match LoginHandler.recognised moment.site.toServices request with
    | some (_, userId) =>
      Function.update (state.met moment request)
        (state.server.sessionManager.idFor request moment.clock moment.generated) (some userId)
    | none => state.checked
  | some .logout => if acceptable request then state.met moment request else state.checked
  | some .menu | some .aiStart | some .aiMove | some .aiRestart => state.met moment request
  | some .entry | some .register | some .backend | some .backendData | none => state.checked

/-- A request is handled. There is no step when its handler does not return. -/
def step (state : Checked) (arrival : Moment × HttpRequest) : Option Checked :=
  let (moment, request) := arrival
  match (httpServer moment).handleRequest request { closeConnection := wantsClose request } state.server with
  | some (.ok (_, server)) => some { server, checked := state.checks moment request }
  | some (.error _) | none => none

end Checked

/-- Each session that is logged in has the number of the user for whom it was checked. -/
def Vouched (manager : SessionManager) (checked : Bytes → Option Int) : Prop :=
  ∀ id session, manager.objects id = some session → session.getValue (ascii "isLoggedIn") = ascii "true" →
    ∃ userId, checked id = some userId ∧ session.getValue (ascii "userId") = decimalInt userId ∧
      stoi (session.getValue (ascii "userId")) = .ok userId

namespace Vouched

variable {manager : SessionManager} {checked : Bytes → Option Int}

theorem not_loggedIn_of_empty {session : Session} (empty : session.data = ∅) :
    session.getValue (ascii "isLoggedIn") ≠ ascii "true" := by
  have blank : ascii "true" ≠ [] := by decide
  simpa [Session.getValue, empty] using blank.symm

theorem getSession {request : HttpRequest} {clock : Nat → Int} {generated : Bytes} {response : HttpResponse}
    (vouched : Vouched manager checked) :
    Vouched (manager.getSession request clock generated response).2.2
      (if (manager.current request clock).isNone then Function.update checked generated none else checked) := by
  intro id session there loggedIn
  rcases SessionManager.getSession_objects there with ⟨_, _, empty⟩ | ⟨old, before, object, same⟩
  · exact absurd loggedIn (not_loggedIn_of_empty empty)
  · have value (key : Bytes) : session.getValue key = before.getValue key := by
      rw [Session.getValue, same]
      rfl
    rw [value] at loggedIn ⊢
    obtain ⟨userId, found, number⟩ := vouched id before object loggedIn
    refine ⟨userId, ?_, number⟩
    split
    next none => rwa [Function.update_of_ne fun new => old ⟨none, new⟩]
    next => exact found

theorem mark (id username : Bytes) {userId : Int} (vouched : Vouched manager checked)
    (inside : - 2 ^ 31 ≤ userId ∧ userId < 2 ^ 31) :
    Vouched (LoginHandler.mark id username userId manager) (Function.update checked id (some userId)) := by
  intro other session there loggedIn
  rw [LoginHandler.objects_mark] at there
  split at there
  next own =>
    obtain ⟨before, _, rfl⟩ := Option.map_eq_some_iff.mp there
    obtain ⟨number, _, _⟩ := @LoginHandler.getValue_markData username userId before
    rw [number]
    exact ⟨userId, by rw [own, Function.update_self], rfl, stoi_decimalInt inside⟩
  next different =>
    rw [Function.update_of_ne different]
    exact vouched other session there loggedIn

theorem clear {id : Bytes} (vouched : Vouched manager checked) : Vouched (manager.clear id) checked := by
  intro other session there loggedIn
  by_cases own : other = id
  · simp only [SessionManager.clear, SessionManager.change, own, Function.update_self] at there
    obtain ⟨before, _, rfl⟩ := Option.map_eq_some_iff.mp there
    exact absurd loggedIn (not_loggedIn_of_empty rfl)
  · simp only [SessionManager.clear, SessionManager.change, Function.update_of_ne own] at there
    exact vouched other session there loggedIn

end Vouched

theorem showPage_server {page : Except Bytes Bytes} {arrival : Arrival} {exchange : Exchange} :
    (showPage page arrival exchange).2.server = exchange.server := by
  cases page <;> rfl

theorem RegisterHandler.handle_server {site : Site} {arrival : Arrival} {exchange : Exchange} :
    (handle site arrival exchange).2.server = exchange.server := by
  rw [handle]
  split
  · rfl
  · split <;> exact Exchange.withBody_server fun _ _ => rfl

theorem getBackendData_server {site : Site} {arrival : Arrival} {exchange : Exchange} :
    (getBackendData site arrival exchange).2.server = exchange.server := by
  have attempted : (backendAttempt site arrival exchange).2.server = exchange.server := by
    rw [backendAttempt]
    split
    · rfl
    · exact Exchange.withBody_server fun _ _ => rfl
  rw [getBackendData]
  split
  next handled => rwa [handled] at attempted
  next handled =>
    rw [handled] at attempted
    apply Eq.trans (Exchange.withBody_server _) attempted
    intro body exchange
    rfl

theorem LogoutHandler.stoi_of_leaving {arrival : Arrival} {exchange : Exchange} {userId : Int}
    (names : leaving arrival exchange = some userId) :
    stoi ((exchange.given arrival).getValue (ascii "userId")) = .ok userId := by
  rw [leaving] at names
  split at names
  · cases number : stoi ((exchange.given arrival).getValue (ascii "userId")) with
    | ok found =>
      rw [number] at names
      cases names
      rfl
    | error =>
      rw [number] at names
      cases names
  · cases names

namespace Checked

variable {state : Checked} {moment : Moment} {request : HttpRequest} {resp : HttpResponse} {handled : Handled}

abbrev arrival (moment : Moment) (request : HttpRequest) : Arrival := ⟨request, moment.clock, moment.generated⟩

theorem handled_of_step {next : Checked} (taken : state.step (moment, request) = some next) :
    ∃ response, (httpServer moment).handleRequest request { closeConnection := wantsClose request } state.server =
        some (.ok (response, next.server)) ∧
      next.checked = state.checks moment request := by
  rw [step] at taken
  split at taken
  next response server handled =>
    cases taken
    exact ⟨response, handled, rfl⟩
  next => cases taken
  next => cases taken

theorem checks_ignored (ignored : request.method = .kOptions ∨ Resource.of request = none) :
    state.checks moment request = state.checked := by
  have unknown : Resource.of request = none := by
    rcases ignored with options | unknown
    · simp [Resource.of, Resource.ofKey, options]
    · exact unknown
  rw [checks, unknown]

theorem vouched_visited (vouched : Vouched state.server.sessionManager state.checked) :
    Vouched (Exchange.visited (arrival moment request) { resp, server := state.server }).sessionManager
      (state.met moment request) :=
  vouched.getSession

theorem login_vouched (login : Resource.of request = some .login)
    (vouched : Vouched state.server.sessionManager state.checked) :
    Vouched (LoginHandler.handle moment.site.toServices (arrival moment request) { resp, server := state.server }).2.server.sessionManager
      (state.checks moment request) := by
  rw [← answered_server]
  cases known : LoginHandler.recognised moment.site.toServices request with
  | none =>
    rw [(LoginHandler.handle_unrecognised known).1]
    simpa only [checks, login, known] using vouched
  | some user =>
    obtain ⟨username, userId⟩ := user
    obtain ⟨_, found, _⟩ := LoginHandler.recognised_eq_some_iff.mp known
    obtain ⟨password, queried⟩ := LoginHandler.queried_of_credentials found
    have marked := (@vouched_visited state moment request resp vouched).mark
      (Exchange.givenId (arrival moment request) { resp, server := state.server }) username (moment.site.queried _ _ _ queried)
    rw [(LoginHandler.handle_recognised known).1, LoginHandler.entered]
    simp only [checks, login, known]
    split <;> exact marked

theorem logout_vouched (logout : Resource.of request = some .logout)
    (vouched : Vouched state.server.sessionManager state.checked) :
    Vouched (LogoutHandler.handle moment.site.toServices (arrival moment request) { resp, server := state.server }).2.server.sessionManager
      (state.checks moment request) := by
  rw [← answered_server]
  simp only [checks, logout]
  have visited := @vouched_visited state moment request resp vouched
  split
  next accepts =>
    cases names : LogoutHandler.leaving (arrival moment request) { resp, server := state.server } with
    | none =>
      rw [(LogoutHandler.handle_unnamed accepts names).1]
      exact visited
    | some userId =>
      cases read : LogoutHandler.gameType moment.site.toServices request with
      | error what =>
        rw [(LogoutHandler.handle_failed names read).1]
        exact visited.clear
      | ok game =>
        rw [(LogoutHandler.handle_left names read).1]
        exact visited.clear
  next refuses =>
    rw [(LogoutHandler.handle_refused refuses).1]
    exact vouched

theorem handle_vouched {resource : Resource} (known : Resource.of request = some resource)
    (vouched : Vouched state.server.sessionManager state.checked)
    (done : resource.handle moment (arrival moment request) { resp, server := state.server } = some handled) :
    Vouched handled.2.server.sessionManager (state.checks moment request) := by
  have played (plays : Plays (arrival moment request) { resp, server := state.server } (answered handled).server) :
      Vouched handled.2.server.sessionManager (state.met moment request) := by
    rw [← answered_server, plays.sessionManager]
    exact vouched_visited vouched
  have kept (same : handled.2.server = state.server) : Vouched handled.2.server.sessionManager state.checked := by
    rw [same]
    exact vouched
  cases resource with
  | login =>
    cases done
    exact login_vouched known vouched
  | logout =>
    cases done
    exact logout_vouched known vouched
  | menu =>
    cases done
    simpa only [checks, known] using played MenuHandler.handle_plays
  | aiStart =>
    cases done
    simpa only [checks, known] using played AiGameStartHandler.handle_plays
  | aiMove => simpa only [checks, known] using played (AiGameMoveHandler.handle_plays done)
  | aiRestart =>
    cases done
    simpa only [checks, known] using played restartChessGameVsAi_plays
  | entry =>
    cases done
    simpa only [checks, known] using kept showPage_server
  | register =>
    cases done
    simpa only [checks, known] using kept RegisterHandler.handle_server
  | backend =>
    cases done
    simpa only [checks, known] using kept showPage_server
  | backendData =>
    cases done
    simpa only [checks, known] using kept getBackendData_server

theorem login_games {server : GomokuServer} {other : Int}
    (done : Resource.login.handle moment (arrival moment request) { resp, server } = some handled) :
    handled.2.server.aiGames[other]? = server.aiGames[other]? := by
  cases done
  rw [← answered_server]
  cases known : LoginHandler.recognised moment.site.toServices request with
  | none => rw [(LoginHandler.handle_unrecognised known).1]
  | some user =>
    rw [(LoginHandler.handle_recognised known).1, LoginHandler.entered]
    split <;> rfl

/-- A logout takes away the game of the user who leaves. -/
theorem logout_games {server : GomokuServer} {other : Int}
    (done : Resource.logout.handle moment (arrival moment request) { resp, server } = some handled)
    (unnamed : stoi ((Exchange.given (arrival moment request) { resp, server }).getValue (ascii "userId")) ≠ .ok other) :
    handled.2.server.aiGames[other]? = server.aiGames[other]? := by
  cases done
  rw [← answered_server]
  by_cases accepts : acceptable request
  · cases names : LogoutHandler.leaving (arrival moment request) { resp, server } with
    | none =>
      rw [(LogoutHandler.handle_unnamed accepts names).1]
      rfl
    | some userId =>
      have different : userId ≠ other := Plays.other_ne (LogoutHandler.stoi_of_leaving names) unnamed
      cases read : LogoutHandler.gameType moment.site.toServices request with
      | error what =>
        rw [(LogoutHandler.handle_failed names read).1]
        rfl
      | ok game =>
        rw [(LogoutHandler.handle_left names read).1, LogoutHandler.leave]
        dsimp only
        split
        · rw [Std.ExtTreeMap.getElem?_erase, if_neg (by simpa using different)]
          rfl
        · rfl
  · rw [(LogoutHandler.handle_refused accepts).1]

/-- Only the game of the user whom the session names can change. -/
theorem handle_games {resource : Resource} {server : GomokuServer} {other : Int}
    (done : resource.handle moment (arrival moment request) { resp, server } = some handled)
    (unnamed : stoi ((Exchange.given (arrival moment request) { resp, server }).getValue (ascii "userId")) ≠ .ok other) :
    handled.2.server.aiGames[other]? = server.aiGames[other]? := by
  have played (plays : Plays (arrival moment request) { resp, server } (answered handled).server) :
      handled.2.server.aiGames[other]? = server.aiGames[other]? := by
    rw [← answered_server, plays.aiGames other unnamed]
  have kept (same : handled.2.server = server) : handled.2.server.aiGames[other]? = server.aiGames[other]? := by
    rw [same]
  cases resource with
  | login => exact login_games done
  | logout => exact logout_games done unnamed
  | menu =>
    cases done
    exact played MenuHandler.handle_plays
  | aiStart =>
    cases done
    exact played AiGameStartHandler.handle_plays
  | aiMove => exact played (AiGameMoveHandler.handle_plays done)
  | aiRestart =>
    cases done
    exact played restartChessGameVsAi_plays
  | entry =>
    cases done
    exact kept showPage_server
  | register =>
    cases done
    exact kept RegisterHandler.handle_server
  | backend =>
    cases done
    exact kept showPage_server
  | backendData =>
    cases done
    exact kept getBackendData_server

/-- A request that comes with a session of a user changes no game of another. -/
def LeavesOthers (state : Checked) (request : HttpRequest) (next : Checked) : Prop :=
  ∀ session userId, state.server.sessionManager.objects (SessionManager.getSessionIdFromCookie request) = some session →
    session.getValue (ascii "isLoggedIn") = ascii "true" →
    state.checked (SessionManager.getSessionIdFromCookie request) = some userId →
    ∀ other, other ≠ userId → next.server.aiGames[other]? = state.server.aiGames[other]?

/-- A session of the cookie that the store has no more, or that has expired, is replaced by a new one,
which names nobody. -/
theorem given_unnamed {session : Session} {userId other : Int}
    (object : state.server.sessionManager.objects (SessionManager.getSessionIdFromCookie request) = some session)
    (number : stoi (session.getValue (ascii "userId")) = .ok userId) (different : other ≠ userId) :
    stoi ((Exchange.given (arrival moment request) { resp, server := state.server }).getValue (ascii "userId")) ≠ .ok other := by
  rw [Exchange.given, Session.getValue_refresh]
  cases found : state.server.sessionManager.current request moment.clock with
  | none =>
    have failed : stoi [] = .error .invalidArgument := by decide
    rw [Option.getD_none, Session.getValue_new, failed]
    intro same
    cases same
  | some loaded =>
    have stored := SessionManager.objects_of_stored (SessionManager.stored_of_current found).1
    rw [object] at stored
    cases stored
    rw [Option.getD_some, number]
    intro same
    cases same
    exact different rfl

theorem step_isolates {next : Checked} {action : Moment × HttpRequest}
    (vouched : Vouched state.server.sessionManager state.checked) (taken : state.step action = some next) :
    Vouched next.server.sessionManager next.checked ∧ LeavesOthers state action.2 next := by
  obtain ⟨moment, request⟩ := action
  obtain ⟨response, handled, checked⟩ := handled_of_step taken
  rw [checked]
  rcases handleRequest_cases handled with ⟨ignored, same⟩ | ⟨resource, handled, _, known, done, same⟩
  · rw [same, checks_ignored ignored]
    exact ⟨vouched, fun _ _ _ _ _ _ _ => by rw [same]⟩
  · rw [same]
    refine ⟨handle_vouched known vouched done, ?_⟩
    intro session userId object loggedIn found other different
    obtain ⟨userId', found', _, number⟩ := vouched _ session object loggedIn
    cases found.symm.trans found'
    rw [same]
    exact handle_games done (given_unnamed object number different)

/-- In every run, a session that is logged in names the user for whom the database knew the name and the
password of its last login, and no request with the session, whether it starts, restarts or plays a game
or logs out, changes the game of another user. -/
theorem players_isolated {arrivals : List (Moment × HttpRequest)} {final : Checked} (ran : Run step {} arrivals final) :
    Throughout step (fun state arrival next =>
      Vouched next.server.sessionManager next.checked ∧ LeavesOthers state arrival.2 next) {} arrivals := by
  have preserves (state : Checked) (arrival : Moment × HttpRequest) (next : Checked)
      (vouched : Vouched state.server.sessionManager state.checked) (taken : state.step arrival = some next) :
      (Vouched next.server.sessionManager next.checked ∧ LeavesOthers state arrival.2 next) ∧
        Vouched next.server.sessionManager next.checked :=
    ⟨step_isolates vouched taken, (step_isolates vouched taken).1⟩
  apply Run.throughout preserves _ ran
  intro id session there
  cases there

/-- A game is asked for with the session of the login. -/
def startOfBob : HttpRequest :=
  { method := .kGet, path := ascii "/aiBot/start", headers := (∅ : Dict).insert (ascii "Cookie") (ascii "sessionId=a1") }

theorem players_isolated_start :
    ∃ final, Run step {} [(momentForBob, (loginOfBob "a1").request), (momentForBob, startOfBob)] final ∧
      final.checked (ascii "a1") = some 7 ∧ (final.server.aiGames[(7 : Int)]?).isSome ∧
      Throughout step (fun state arrival next =>
        Vouched next.server.sessionManager next.checked ∧ LeavesOthers state arrival.2 next) {}
        [(momentForBob, (loginOfBob "a1").request), (momentForBob, startOfBob)] := by
  refine ⟨_, .cons rfl (.cons rfl (.nil _)), ?_, ?_, players_isolated (.cons rfl (.cons rfl (.nil _)))⟩
  · decide
  · decide

end Checked

end HttpFramework.Gomoku
