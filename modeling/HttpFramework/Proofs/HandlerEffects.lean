import HttpFramework.Gomoku.Handlers
import HttpFramework.Library.Fallible
import HttpFramework.Proofs.SessionStore

/-! What the handlers do to the server and which status they answer with. Every path is among the
cases here, with those through a `catch` block and those that leave the handler with an exception. -/

namespace HttpFramework.Gomoku
open Http

variable {services : Services} {arrival : Arrival} {exchange : Exchange}

@[simp] theorem answered_server (handled : Handled) : (answered handled).server = handled.2.server := by
  rcases handled with ⟨_ | ⟨⟩, exchange⟩ <;> rfl

namespace Exchange

variable {json : Json} {indent : Int} {send : Bytes → Exchange → Exchange}

@[simp] theorem respond_statusCode {version message contentType body : Bytes} {statusCode : HttpStatusCode} {close : Bool} :
    (exchange.respond version statusCode message close contentType body).resp.statusCode = statusCode := rfl

theorem withBody_of_printable (printable : json.printable = true) :
    ∃ body, exchange.withBody services indent json send = (.ok (), send body exchange) := by
  obtain ⟨body, dumped⟩ := services.json.dumps indent json printable
  exact ⟨body, by rw [withBody, dumped]⟩

/-- A reply is sent, or the value cannot be printed. -/
theorem withBody_cases : (∃ body, exchange.withBody services indent json send = (.ok (), send body exchange)) ∨
    ∃ what, exchange.withBody services indent json send = (.error what, exchange) := by
  cases dumped : services.json.dump indent json with
  | ok body => exact .inl ⟨body, by rw [withBody, dumped]⟩
  | error what => exact .inr ⟨what, by rw [withBody, dumped]⟩

theorem withBody_server (keeps : ∀ body exchange, (send body exchange).server = exchange.server) :
    (exchange.withBody services indent json send).2.server = exchange.server := by
  rcases @withBody_cases services exchange json indent send with ⟨body, sent⟩ | ⟨what, threw⟩
  · rw [sent]
    exact keeps body exchange
  · rw [threw]

theorem withBody_status {statusCode : HttpStatusCode}
    (sets : ∀ body exchange, (send body exchange).resp.statusCode = statusCode) (other : statusCode ≠ .k200Ok) :
    (answered (exchange.withBody services indent json send)).resp.statusCode ≠ .k200Ok := by
  rcases @withBody_cases services exchange json indent send with ⟨body, sent⟩ | ⟨what, threw⟩
  · rw [sent]
    simpa [answered, sets] using other
  · rw [threw]
    simp [answered]

/-- The session that the handlers get for the request. -/
def given (arrival : Arrival) (exchange : Exchange) : Session :=
  ((exchange.server.sessionManager.current arrival.request arrival.clock).getD { expiryTime := 0 }).refresh (arrival.clock 3)

def givenId (arrival : Arrival) (exchange : Exchange) : Bytes :=
  exchange.server.sessionManager.idFor arrival.request arrival.clock arrival.generated

/-- The server once `getSession` has returned. -/
def visited (arrival : Arrival) (exchange : Exchange) : GomokuServer := (exchange.getSession arrival).2.server

@[simp] theorem visited_onlineUsers : (exchange.visited arrival).onlineUsers = exchange.server.onlineUsers := rfl

@[simp] theorem visited_aiGames : (exchange.visited arrival).aiGames = exchange.server.aiGames := rfl

theorem visited_stored : (exchange.visited arrival).sessionManager.stored (exchange.givenId arrival) =
    some (exchange.given arrival) := by
  obtain ⟨response, changed, made, stored, _⟩ := @SessionManager.getSession_spec exchange.server.sessionManager
    arrival.generated arrival.request arrival.clock exchange.resp
  rw [visited, getSession, made]
  exact stored

theorem visited_stored_other {other : Bytes} (different : other ≠ exchange.givenId arrival) :
    (exchange.visited arrival).sessionManager.stored other = exchange.server.sessionManager.stored other ∨
      (exchange.visited arrival).sessionManager.stored other = none ∧
        ∃ session, exchange.server.sessionManager.stored other = some session ∧ session.isExpired (arrival.clock 0) := by
  obtain ⟨response, changed, made, _, others⟩ := @SessionManager.getSession_spec exchange.server.sessionManager
    arrival.generated arrival.request arrival.clock exchange.resp
  rw [visited, getSession, made]
  exact others other different

theorem getSession_eq : ∃ resp, exchange.getSession arrival = (exchange.givenId arrival, { resp, server := exchange.visited arrival }) := by
  obtain ⟨response, changed, made, _, _⟩ := @SessionManager.getSession_spec exchange.server.sessionManager
    arrival.generated arrival.request arrival.clock exchange.resp
  exact ⟨response, by rw [visited, getSession, made]; rfl⟩

theorem getValue_visited {resp : HttpResponse} {key : Bytes} :
    getValue (exchange.givenId arrival) key { resp, server := exchange.visited arrival } =
      (exchange.given arrival).getValue key := by
  rw [getValue, SessionManager.objects_of_stored visited_stored]
  rfl

end Exchange

theorem catching_server (handled : Handled) : (catching services arrival.request handled).2.server = handled.2.server := by
  rcases handled with ⟨_ | ⟨⟩, exchange⟩
  · exact Exchange.withBody_server fun _ _ => rfl
  · rfl

theorem catching_error_status (what : Bytes) :
    (answered (catching services arrival.request (.error what, exchange))).resp.statusCode ≠ .k200Ok :=
  Exchange.withBody_status (fun _ _ => rfl) (by decide)

/-- A reply that can be printed is what is answered. -/
theorem catching_reply {json : Json} {indent : Int} {statusCode : HttpStatusCode} {version message contentType : Bytes} {close : Bool}
    (printable : json.printable = true) (exchange : Exchange) :
    let reply := answered (catching services arrival.request
      (exchange.withBody services indent json (Exchange.respond version statusCode message close contentType)))
    reply.server = exchange.server ∧ reply.resp.statusCode = statusCode := by
  obtain ⟨body, sent⟩ := @Exchange.withBody_of_printable services exchange json indent
    (Exchange.respond version statusCode message close contentType) printable
  rw [sent]
  exact ⟨rfl, rfl⟩

namespace LoginHandler

/-- The user whose name and password the request has. -/
def recognised (services : Services) (request : HttpRequest) : Option (Bytes × Int) :=
  if acceptable request then
    match credentials services request with
    | .ok (username, userId) => if userId ≠ -1 then some (username, userId) else none
    | .error _ => none
  else
    none

theorem recognised_eq_some_iff {request : HttpRequest} {username : Bytes} {userId : Int} :
    recognised services request = some (username, userId) ↔
      acceptable request ∧ credentials services request = .ok (username, userId) ∧ userId ≠ -1 := by
  rw [recognised]
  cases accepts : acceptable request with
  | false => simp
  | true =>
    cases found : credentials services request with
    | error what => simp
    | ok user =>
      obtain ⟨name, number⟩ := user
      by_cases real : number = -1
      · simp only [real, ne_eq, not_true_eq_false, if_false, reduceCtorEq, Except.ok.injEq, Prod.mk.injEq, true_and, if_true,
          false_iff, not_and, not_not]
        rintro ⟨_, same⟩
        exact same.symm
      · simp only [real, ne_eq, not_false_eq_true, if_true, Option.some.injEq, Except.ok.injEq, Prod.mk.injEq, true_and]
        refine ⟨fun same => ⟨same, ?_⟩, fun same => same.1⟩
        rw [← same.2]
        exact real

theorem queried_of_credentials {request : HttpRequest} {username : Bytes} {userId : Int}
    (found : credentials services request = .ok (username, userId)) :
    ∃ password, services.queryUserId username password = .ok userId := by
  obtain ⟨parsed, _, found⟩ := Fallible.bind_ok found
  obtain ⟨nameField, _, found⟩ := Fallible.bind_ok found
  obtain ⟨name, _, found⟩ := Fallible.bind_ok found
  obtain ⟨passwordField, _, found⟩ := Fallible.bind_ok found
  obtain ⟨password, _, found⟩ := Fallible.bind_ok found
  obtain ⟨id, queried, found⟩ := Fallible.bind_ok found
  cases found
  exact ⟨password, queried⟩

def marked (username : Bytes) (userId : Int) (arrival : Arrival) (exchange : Exchange) : GomokuServer :=
  let server := exchange.visited arrival
  { server with sessionManager := mark (exchange.givenId arrival) username userId server.sessionManager }

/-- The server when the session has been marked, and the user is online. -/
def entered (username : Bytes) (userId : Int) (arrival : Arrival) (exchange : Exchange) : GomokuServer :=
  if exchange.server.onlineUsers[userId]? = some true then marked username userId arrival exchange
  else enter userId (marked username userId arrival exchange)

theorem handle_unrecognised (unknown : recognised services arrival.request = none) :
    (answered (handle services arrival exchange)).server = exchange.server ∧
      (answered (handle services arrival exchange)).resp.statusCode ≠ .k200Ok := by
  rw [recognised] at unknown
  rw [handle]
  split at unknown
  next accepts =>
    rw [if_pos accepts, attempt]
    split at unknown
    next username userId found =>
      have wrong : userId = -1 := by
        by_contra known
        simp [known] at unknown
      subst wrong
      simp only [found, ne_eq, not_true_eq_false, if_false]
      obtain ⟨same, status⟩ := @catching_reply services arrival (statusError (ascii "Invalid username or password")) 4
        .k401Unauthorized arrival.request.version (ascii "Unauthorized") applicationJson false (by decide) exchange
      exact ⟨same, by rw [status]; decide⟩
    next what failed =>
      simp only [failed]
      exact ⟨by rw [answered_server, catching_server], catching_error_status what⟩
  next refuses =>
    rw [if_neg refuses]
    exact ⟨rfl, by simp [answered, refuse]⟩

theorem printable_alreadyOnline : alreadyOnline.printable = true := by
  decide +kernel

theorem handle_recognised {username : Bytes} {userId : Int} (known : recognised services arrival.request = some (username, userId)) :
    (answered (handle services arrival exchange)).server = entered username userId arrival exchange ∧
      (answered (handle services arrival exchange)).resp.statusCode =
        if exchange.server.onlineUsers[userId]? = some true then .k403Forbidden else .k200Ok := by
  obtain ⟨accepts, found, real⟩ := recognised_eq_some_iff.mp known
  obtain ⟨resp, session⟩ := @Exchange.getSession_eq arrival exchange
  rw [handle, if_pos accepts, attempt]
  simp only [found, session, if_pos real, Exchange.sessions, entered]
  by_cases online : exchange.server.onlineUsers[userId]? = some true
  · simp only [Exchange.visited_onlineUsers, ne_eq, online, not_true_eq_false, if_false]
    exact catching_reply printable_alreadyOnline { resp, server := marked username userId arrival exchange }
  · simp only [Exchange.visited_onlineUsers, ne_eq, online, not_false_eq_true, if_true]
    exact catching_reply (by simp only [Json.printable, printableFields, Bool.and_true]; decide)
      { resp, server := enter userId (marked username userId arrival exchange) }

end LoginHandler

namespace LogoutHandler

/-- The user of the session, when the body is looked at and the session names one. -/
def leaving (arrival : Arrival) (exchange : Exchange) : Option Int :=
  if acceptable arrival.request then (stoi ((exchange.given arrival).getValue (ascii "userId"))).toOption else none

/-- The server when the session has been destroyed. -/
def parted (arrival : Arrival) (exchange : Exchange) : GomokuServer :=
  let server := exchange.visited arrival
  { server with
    sessionManager := (server.sessionManager.clear (exchange.givenId arrival)).destroySession (exchange.givenId arrival) }

theorem handle_refused (refuses : ¬ acceptable arrival.request) :
    (answered (handle services arrival exchange)).server = exchange.server ∧
      (answered (handle services arrival exchange)).resp.statusCode ≠ .k200Ok := by
  rw [handle, if_neg refuses]
  exact ⟨rfl, by simp [answered, refuse]⟩

theorem handle_unnamed (accepts : acceptable arrival.request) (unnamed : leaving arrival exchange = none) :
    (answered (handle services arrival exchange)).server = exchange.visited arrival ∧
      (answered (handle services arrival exchange)).resp.statusCode ≠ .k200Ok := by
  obtain ⟨resp, session⟩ := @Exchange.getSession_eq arrival exchange
  rw [leaving, if_pos accepts] at unnamed
  rw [handle, if_pos accepts, attempt]
  simp only [session, userIdOf, Exchange.getValue_visited]
  cases number : stoi ((exchange.given arrival).getValue (ascii "userId")) with
  | ok userId =>
    rw [number] at unnamed
    cases unnamed
  | error =>
    rw [answered_server, catching_server]
    exact ⟨rfl, catching_error_status _⟩

private theorem attempt_leaving {userId : Int} (names : leaving arrival exchange = some userId) :
    ∃ resp, answered (handle services arrival exchange) = answered (catching services arrival.request
      (match gameType services arrival.request with
      | .error what => (.error what, { resp, server := parted arrival exchange })
      | .ok gameType =>
        Exchange.withBody services 4 (.object [(ascii "message", .string (ascii "logout successful"))])
          (Exchange.respond arrival.request.version .k200Ok (ascii "OK") true applicationJson)
          { resp, server := leave userId gameType (parted arrival exchange) })) := by
  obtain ⟨resp, session⟩ := @Exchange.getSession_eq arrival exchange
  rw [leaving] at names
  split at names
  next accepts =>
    refine ⟨resp, ?_⟩
    rw [handle, if_pos accepts, attempt]
    simp only [session, userIdOf, Exchange.getValue_visited]
    cases number : stoi ((exchange.given arrival).getValue (ascii "userId")) with
    | ok userId' =>
      rw [number] at names
      cases names
      rfl
    | error =>
      rw [number] at names
      cases names
  next => cases names

theorem handle_failed {userId : Int} {what : Bytes} (names : leaving arrival exchange = some userId)
    (failed : gameType services arrival.request = .error what) :
    (answered (handle services arrival exchange)).server = parted arrival exchange ∧
      (answered (handle services arrival exchange)).resp.statusCode ≠ .k200Ok := by
  obtain ⟨resp, handled⟩ := @attempt_leaving services arrival exchange userId names
  rw [handled, failed, answered_server, catching_server]
  exact ⟨rfl, catching_error_status what⟩

theorem handle_left {userId game : Int} (names : leaving arrival exchange = some userId)
    (read : gameType services arrival.request = .ok game) :
    (answered (handle services arrival exchange)).server = leave userId game (parted arrival exchange) ∧
      (answered (handle services arrival exchange)).resp.statusCode = .k200Ok := by
  obtain ⟨resp, handled⟩ := @attempt_leaving services arrival exchange userId names
  rw [handled, read]
  exact catching_reply (by decide) { resp, server := leave userId game (parted arrival exchange) }

end LogoutHandler

/-- The server afterwards has seen the session of the request. The games may have changed. -/
structure Visits (arrival : Arrival) (exchange : Exchange) (server : GomokuServer) : Prop where
  sessionManager : server.sessionManager = (exchange.visited arrival).sessionManager
  onlineUsers : server.onlineUsers = exchange.server.onlineUsers

/-- Of the games at most that of the user whom the session names has changed. -/
structure Plays (arrival : Arrival) (exchange : Exchange) (server : GomokuServer) : Prop extends
    Visits arrival exchange server where
  aiGames : ∀ other, stoi ((exchange.given arrival).getValue (ascii "userId")) ≠ .ok other →
    server.aiGames[other]? = exchange.server.aiGames[other]?

namespace Plays

variable {start : Exchange} {userId : Int} {server : GomokuServer}

theorem visited : Plays arrival exchange (exchange.visited arrival) := ⟨⟨rfl, rfl⟩, fun _ _ => rfl⟩

theorem of_eq {other : GomokuServer} (plays : Plays arrival exchange server) (same : other = server) :
    Plays arrival exchange other := same ▸ plays

theorem other_ne {other : Int} (names : stoi ((start.given arrival).getValue (ascii "userId")) = .ok userId)
    (unnamed : stoi ((start.given arrival).getValue (ascii "userId")) ≠ .ok other) : userId ≠ other := by
  intro same
  subst same
  exact unnamed names

theorem keepGame {game : AiGame} (plays : Plays arrival start exchange.server)
    (names : stoi ((start.given arrival).getValue (ascii "userId")) = .ok userId) :
    Plays arrival start (keepGame userId game exchange).server := by
  refine ⟨⟨plays.sessionManager, plays.onlineUsers⟩, fun other unnamed => ?_⟩
  simpa [Gomoku.keepGame, Std.ExtTreeMap.getElem?_insert, other_ne names unnamed] using plays.aiGames other unnamed

theorem dropGame (plays : Plays arrival start exchange.server)
    (names : stoi ((start.given arrival).getValue (ascii "userId")) = .ok userId) :
    Plays arrival start (dropGame userId exchange).server := by
  refine ⟨⟨plays.sessionManager, plays.onlineUsers⟩, fun other unnamed => ?_⟩
  simpa [Gomoku.dropGame, Std.ExtTreeMap.getElem?_erase, other_ne names unnamed] using plays.aiGames other unnamed

end Plays

theorem authorize_cases :
    (∃ handled, authorize services arrival exchange = .error handled ∧ handled.2.server = exchange.visited arrival) ∨
      ∃ userId resp, authorize services arrival exchange = .ok (userId, { resp, server := exchange.visited arrival }) ∧
        stoi ((exchange.given arrival).getValue (ascii "userId")) = .ok userId := by
  obtain ⟨resp, session⟩ := @Exchange.getSession_eq arrival exchange
  rw [authorize]
  simp only [session, userIdOf, Exchange.getValue_visited]
  split
  · exact .inl ⟨_, rfl, Exchange.withBody_server fun _ _ => rfl⟩
  · cases number : stoi ((exchange.given arrival).getValue (ascii "userId")) with
    | error => exact .inl ⟨_, rfl, rfl⟩
    | ok userId => exact .inr ⟨userId, resp, rfl, rfl⟩

theorem MenuHandler.handle_plays : Plays arrival exchange (answered (handle services arrival exchange)).server := by
  apply Plays.visited.of_eq
  rw [answered_server, handle, catching_server, attempt]
  rcases @authorize_cases services arrival exchange with ⟨handled, ends, same⟩ | ⟨userId, resp, goes, _⟩
  · rw [ends]
    exact same
  · rw [goes]
    cases services.menuPage <;> rfl

theorem AiGameStartHandler.handle_plays : Plays arrival exchange (answered (handle services arrival exchange)).server := by
  rw [answered_server, handle]
  rcases @authorize_cases services arrival exchange with ⟨handled, ends, same⟩ | ⟨userId, resp, goes, names⟩
  · rw [ends]
    exact Plays.visited.of_eq same
  · rw [goes]
    have kept := @Plays.keepGame arrival { resp, server := exchange.visited arrival } exchange userId { userId } .visited names
    cases services.gamePage <;> exact kept

theorem restartChessGameVsAi_plays :
    Plays arrival exchange (answered (restartChessGameVsAi services arrival exchange)).server := by
  rw [answered_server, restartChessGameVsAi]
  rcases @authorize_cases services arrival exchange with ⟨handled, ends, same⟩ | ⟨userId, resp, goes, names⟩
  · rw [ends]
    exact Plays.visited.of_eq same
  · rw [goes]
    have kept := @Plays.keepGame arrival { resp, server := exchange.visited arrival } exchange userId { userId } .visited names
    exact kept.of_eq (Exchange.withBody_server fun _ _ => rfl)

namespace AiGameMoveHandler

variable {start : Exchange} {request : HttpRequest} {userId x y : Int} {rand : Nat} {handled : Handled}

theorem answer_plays {game : AiGame} {winner nextTurn : Bytes} {extra : List (Bytes × Json)}
    (plays : Plays arrival start exchange.server) :
    Plays arrival start (answer services request game winner nextTurn extra exchange).2.server :=
  plays.of_eq (Exchange.withBody_server fun _ _ => rfl)

theorem ending_plays (names : stoi ((start.given arrival).getValue (ascii "userId")) = .ok userId)
    (plays : Plays arrival start handled.2.server) : Plays arrival start (ending userId handled).2.server := by
  rcases handled with ⟨_ | ⟨⟩, exchange⟩
  · exact plays
  · exact Plays.dropGame plays names

theorem play_plays (names : stoi ((start.given arrival).getValue (ascii "userId")) = .ok userId)
    (plays : Plays arrival start exchange.server)
    (played : play services request userId x y rand exchange = some handled) : Plays arrival start handled.2.server := by
  simp only [play, Option.bind_eq_bind, Option.bind_eq_some_iff] at played
  obtain ⟨⟨made, game⟩, _, played⟩ := played
  have kept := @Plays.keepGame arrival exchange start userId game plays names
  cases made with
  | false =>
    cases played
    exact kept.of_eq (Exchange.withBody_server fun _ _ => rfl)
  | true =>
    simp only [if_true] at played
    split at played
    · cases played
      exact ending_plays names (answer_plays kept)
    · split at played
      · cases played
        exact ending_plays names (answer_plays kept)
      · obtain ⟨game, _, played⟩ := Option.bind_eq_some_iff.mp played
        have kept := @Plays.keepGame arrival _ start userId game kept names
        split at played
        · cases played
          exact ending_plays names (answer_plays kept)
        · split at played <;> cases played
          · exact ending_plays names (answer_plays kept)
          · exact answer_plays kept

theorem handle_plays (done : handle services arrival rand exchange = some handled) :
    Plays arrival exchange (answered handled).server := by
  simp only [handle, Option.bind_eq_bind, Option.bind_eq_some_iff] at done
  obtain ⟨tried, attempted, done⟩ := done
  have plays : Plays arrival exchange tried.2.server := by
    rw [attempt] at attempted
    rcases @authorize_cases services arrival exchange with ⟨early, ends, same⟩ | ⟨userId, resp, goes, names⟩
    · rw [ends] at attempted
      cases attempted
      exact Plays.visited.of_eq same
    · rw [goes] at attempted
      dsimp only at attempted
      split at attempted
      · cases attempted
        exact Plays.visited
      · exact @play_plays services arrival { resp, server := exchange.visited arrival } exchange _ _ _ _ _ _ names .visited
          attempted
  rw [answered_server]
  rcases tried with ⟨_ | ⟨⟩, exchange⟩ <;> cases done
  · exact plays.of_eq (Exchange.withBody_server fun _ _ => rfl)
  · exact plays

end AiGameMoveHandler

end HttpFramework.Gomoku
