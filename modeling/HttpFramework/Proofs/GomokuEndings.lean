import HttpFramework.Proofs.GomokuRoutes

/-! How each handler of `GomokuServer` leaves the response: whether it says that the connection is
closed, and which length it announces. -/

namespace HttpFramework.Gomoku
open Http

/-- How the handler of a request leaves it. -/
inductive Ending where
  /-- The answer says that the connection is closed. -/
  | closed
  /-- The answer keeps the connection and has its length. -/
  | kept
  /-- The answer keeps the connection, and its length has been through `packageResp`. -/
  | packaged (body : Bytes)
  /-- An exception leaves the handler before it has answered. -/
  | threw
deriving DecidableEq

/-- The ending with the text of a value, if the value can be printed. -/
def printed (services : Services) (indent : Int) (json : Json) (ending : Bytes → Ending) : Ending :=
  match services.json.dump indent json with
  | .ok body => ending body
  | .error _ => .threw

def shown (page : Except Bytes Bytes) : Ending :=
  match page with
  | .ok _ => .kept
  | .error _ => .threw

/-- The user for whom the session of a request lets it through. -/
def authorized (arrival : Arrival) (exchange : Exchange) : Option (Except Bytes Int) :=
  if (exchange.given arrival).getValue (ascii "isLoggedIn") ≠ ascii "true" then none
  else
    match stoi ((exchange.given arrival).getValue (ascii "userId")) with
    | .ok userId => some (.ok userId)
    | .error _ => some (.error (ascii "stoi"))

def restarted (userId : Int) : Json :=
  .object [(ascii "status", .string (ascii "ok")), (ascii "message", .string (ascii "restart successful")),
    (ascii "userId", .number userId)]

namespace Resource

/-- The ending, given the request, the tables and the services. -/
def ending (moment : Moment) (arrival : Arrival) (exchange : Exchange) : Resource → Ending
  | .entry => shown moment.site.entryPage
  | .backend => shown moment.site.backendPage
  | .login =>
    if acceptable arrival.request then
      match LoginHandler.credentials moment.site.toServices arrival.request with
      | .error what => printed moment.site.toServices 4 (statusError what) fun _ => .closed
      | .ok (_, userId) => if userId ≠ -1 ∧ exchange.server.onlineUsers[userId]? = some true then .closed else .kept
    else .closed
  | .register =>
    match RegisterHandler.inserted moment.site arrival.request with
    | .error _ => .threw
    | .ok _ => .kept
  | .logout =>
    if (LogoutHandler.leaving arrival exchange).isSome then
      match LogoutHandler.gameType moment.site.toServices arrival.request with
      | .error what => printed moment.site.toServices 4 (statusError what) fun _ => .closed
      | .ok _ => .closed
    else .closed
  | .menu =>
    match authorized arrival exchange with
    | some (.ok _) =>
      match moment.site.menuPage with
      | .error what => printed moment.site.toServices 4 (statusError what) fun _ => .closed
      | .ok _ => .kept
    | _ => .closed
  | .aiStart =>
    match authorized arrival exchange with
    | none => .closed
    | some (.error _) => .threw
    | some (.ok _) => shown moment.site.gamePage
  | .aiMove =>
    match authorized arrival exchange with
    | none => .closed
    | some (.error what) => printed moment.site.toServices (-1) (statusError what) .packaged
    | some (.ok _) =>
      match AiGameMoveHandler.coordinates moment.site.toServices arrival.request with
      | .error what => printed moment.site.toServices (-1) (statusError what) .packaged
      | .ok _ => .kept
  | .aiRestart =>
    match authorized arrival exchange with
    | none => .closed
    | some (.error _) => .threw
    | some (.ok userId) => printed moment.site.toServices 4 (restarted userId) .packaged
  | .backendData =>
    match moment.site.getUserCount with
    | .ok _ => .kept
    | .error what => printed moment.site.toServices (-1) (backendError what) fun _ => .closed

end Resource

/-- The ending of a request. The preflight answer and the one for an unknown path close the connection. -/
def endingOf (moment : Moment) (request : HttpRequest) (server : GomokuServer) : Ending :=
  if request.method = .kOptions then .closed
  else
    match Resource.of request with
    | none => .closed
    | some resource => resource.ending moment ⟨request, moment.clock, moment.generated⟩ { server }

/-- The length that a response announces. -/
def announced (resp : HttpResponse) : Option Bytes := resp.headers[ascii "Content-Length"]?

/-- What a handler leaves behind, for each ending. -/
def Ending.Holds (start : Exchange) (handled : Handled) : Ending → Prop
  | .closed => handled.1 = .ok () ∧ handled.2.resp.closeConnection = true
  | .kept => handled.1 = .ok () ∧ handled.2.resp.closeConnection = false ∧
      announced handled.2.resp = some (decimal handled.2.resp.body.length)
  | .packaged body => handled.1 = .ok () ∧ handled.2.resp.closeConnection = false ∧ handled.2.resp.body = body ∧
      announced handled.2.resp = some (decimal (toSizeT (toInt body.length)))
  | .threw => (∃ what, handled.1 = .error what) ∧
      handled.2.resp.closeConnection = start.resp.closeConnection ∧ announced handled.2.resp = announced start.resp

/-- Nothing has been answered yet. -/
def Unanswered (start exchange : Exchange) : Prop :=
  exchange.resp.closeConnection = start.resp.closeConnection ∧ announced exchange.resp = announced start.resp

/-- The texts that the handlers put into their answers. -/
def texts : List String :=
  ["status", "message", "error", "success", "userId", "Unauthorized", "stoi", "Invalid username or password",
    "Register successful", "username already exists", "logout successful", "curOnline", "maxOnline", "totalUser", "Invalid move",
    "ok", "board", "winner", "next_turn", "last_move", "x", "y", "empty", "white", "black", "human", "ai", "draw", "none"]

theorem isUtf8_text : ∀ text ∈ texts, isUtf8 (ascii text) = true := by
  decide +kernel

theorem printable_statusError (text : String) (listed : text ∈ texts) : (statusError (ascii text)).printable = true := by
  simp only [statusError, Json.printable, printableFields, isUtf8_text "status" (by decide), isUtf8_text "error" (by decide),
    isUtf8_text "message" (by decide), isUtf8_text text listed, Bool.and_true]

section

variable {start exchange : Exchange} {services : Services} {arrival : Arrival}

theorem announced_addHeader {resp : HttpResponse} {key value : Bytes} (other : key ≠ ascii "Content-Length") :
    announced (resp.addHeader key value) = announced resp := by
  rw [announced, HttpResponse.addHeader, Std.ExtTreeMap.getElem?_insert, if_neg]
  · rfl
  · exact fun same => other (Std.LawfulEqCmp.eq_of_compare same)

theorem announced_setContentLength {resp : HttpResponse} {length : Nat} :
    announced (resp.setContentLength length) = some (decimal length) := by
  rw [announced, HttpResponse.setContentLength, HttpResponse.addHeader, Std.ExtTreeMap.getElem?_insert_self]

theorem announced_setBody {resp : HttpResponse} {body : Bytes} : announced (resp.setBody body) = announced resp := rfl

theorem Ending.threw_of_unanswered {what : Bytes} (unanswered : Unanswered start exchange) :
    Ending.threw.Holds start (.error what, exchange) := ⟨⟨what, rfl⟩, unanswered⟩

theorem Ending.kept_respond {version message contentType body : Bytes} {statusCode : HttpStatusCode} :
    Ending.kept.Holds start (.ok (), exchange.respond version statusCode message false contentType body) := by
  refine ⟨rfl, rfl, ?_⟩
  simp only [Exchange.respond, announced_setBody, announced_setContentLength]
  rfl

theorem Ending.closed_respond {version message contentType body : Bytes} {statusCode : HttpStatusCode} :
    Ending.closed.Holds start (.ok (), exchange.respond version statusCode message true contentType body) := ⟨rfl, rfl⟩

theorem Ending.packaged_packageResp {version message contentType body : Bytes} {statusCode : HttpStatusCode} :
    (Ending.packaged body).Holds start (.ok (), exchange.packageResp version statusCode message false contentType body) := by
  refine ⟨rfl, rfl, rfl, ?_⟩
  simp only [Exchange.packageResp, announced_setBody, announced_setContentLength]

theorem printed_holds {indent : Int} {json : Json} {ending : Bytes → Ending} {send : Bytes → Exchange → Exchange}
    (unanswered : Unanswered start exchange) (sends : ∀ body, (ending body).Holds start (.ok (), send body exchange)) :
    (printed services indent json ending).Holds start (exchange.withBody services indent json send) := by
  cases dumped : services.json.dump indent json with
  | ok body =>
    simp only [printed, Exchange.withBody, dumped]
    exact sends body
  | error what =>
    simp only [printed, Exchange.withBody, dumped]
    exact Ending.threw_of_unanswered unanswered

/-- A value that can be printed is answered. -/
theorem printable_holds {indent : Int} {json : Json} {ending : Ending} {send : Bytes → Exchange → Exchange}
    (printable : json.printable = true) (sends : ∀ body, ending.Holds start (.ok (), send body exchange)) :
    ending.Holds start (exchange.withBody services indent json send) := by
  obtain ⟨body, sent⟩ := @Exchange.withBody_of_printable services exchange json indent send printable
  rw [sent]
  exact sends body

theorem catching_holds {what : Bytes} (unanswered : Unanswered start exchange) :
    (printed services 4 (statusError what) fun _ => .closed).Holds start
      (catching services arrival.request (.error what, exchange)) :=
  printed_holds unanswered fun _ => Ending.closed_respond

/-- The session may put a cookie into the response, and no more. -/
theorem getSession_resp :
    (exchange.getSession arrival).2.resp = exchange.resp ∨
      (exchange.getSession arrival).2.resp = SessionManager.setSessionCookie arrival.generated exchange.resp := by
  simp only [Exchange.getSession, SessionManager.getSession]
  split
  · split
    · exact .inr rfl
    · exact .inl rfl
  · exact .inr rfl

theorem getSession_unanswered : Unanswered exchange (exchange.getSession arrival).2 := by
  rcases @getSession_resp exchange arrival with same | cookie
  · rw [Unanswered, same]
    exact ⟨rfl, rfl⟩
  · rw [Unanswered, cookie]
    exact ⟨rfl, announced_addHeader (by decide)⟩

/-- What `authorize` does is read off the session. -/
theorem authorize_eq : ∃ resp, Unanswered exchange { resp, server := exchange.visited arrival } ∧
    (authorized arrival exchange = none ∧ (∃ handled, authorize services arrival exchange = .error handled ∧
        Ending.closed.Holds exchange handled) ∨
      (∃ what, authorized arrival exchange = some (.error what) ∧
        authorize services arrival exchange = .error (.error what, { resp, server := exchange.visited arrival })) ∨
      ∃ userId, authorized arrival exchange = some (.ok userId) ∧
        authorize services arrival exchange = .ok (userId, { resp, server := exchange.visited arrival })) := by
  obtain ⟨resp, session⟩ := @Exchange.getSession_eq arrival exchange
  have unanswered := @getSession_unanswered exchange arrival
  rw [session] at unanswered
  refine ⟨resp, unanswered, ?_⟩
  simp only [authorize, authorized, session, Exchange.getValue_visited, userIdOf]
  split
  · refine .inl ⟨rfl, _, rfl, ?_⟩
    exact printable_holds (printable_statusError "Unauthorized" (by decide)) fun _ => ⟨rfl, rfl⟩
  · cases stoi ((exchange.given arrival).getValue (ascii "userId")) with
    | ok userId => exact .inr (.inr ⟨userId, rfl, rfl⟩)
    | error => exact .inr (.inl ⟨_, rfl, rfl⟩)

variable {moment : Moment} {handled : Handled}

theorem unanswered_self : Unanswered exchange exchange := ⟨rfl, rfl⟩

theorem showPage_holds (page : Except Bytes Bytes) : (shown page).Holds exchange (showPage page arrival exchange) := by
  cases page with
  | error what => exact Ending.threw_of_unanswered unanswered_self
  | ok page => exact Ending.kept_respond

/-- A handler that has answered is not caught. -/
theorem caught_printable {indent : Int} {json : Json} {ending : Ending} {send : Bytes → Exchange → Exchange}
    (printable : json.printable = true) (sends : ∀ body, ending.Holds start (.ok (), send body exchange)) :
    ending.Holds start (catching services arrival.request (exchange.withBody services indent json send)) := by
  obtain ⟨body, sent⟩ := @Exchange.withBody_of_printable services exchange json indent send printable
  rw [sent]
  exact sends body

/-- The text of this exception can be printed. -/
theorem caught_stoi :
    Ending.closed.Holds start (catching services arrival.request (.error (ascii "stoi"), exchange)) :=
  printable_holds (printable_statusError "stoi" (by decide)) fun _ => Ending.closed_respond

theorem LoginHandler.ending_holds :
    (Resource.login.ending moment arrival exchange).Holds exchange (LoginHandler.handle moment.site.toServices arrival exchange) := by
  unfold Resource.ending
  simp only [LoginHandler.handle]
  split
  · cases found : LoginHandler.credentials moment.site.toServices arrival.request with
    | error what =>
      simp only [LoginHandler.attempt, found]
      exact catching_holds unanswered_self
    | ok user =>
      obtain ⟨username, userId⟩ := user
      obtain ⟨resp, session⟩ := @Exchange.getSession_eq arrival exchange
      simp only [LoginHandler.attempt, found, session, Exchange.sessions, Exchange.visited_onlineUsers]
      by_cases real : userId = -1
      · simp only [real, ne_eq, not_true_eq_false, false_and, if_false]
        exact caught_printable (printable_statusError "Invalid username or password" (by decide)) fun _ => Ending.kept_respond
      · by_cases online : exchange.server.onlineUsers[userId]? = some true
        · simp only [real, online, ne_eq, not_false_eq_true, true_and, if_true, not_true_eq_false, if_false]
          exact caught_printable LoginHandler.printable_alreadyOnline fun _ => Ending.closed_respond
        · simp only [real, online, ne_eq, not_false_eq_true, and_false, if_true, if_false]
          refine caught_printable ?_ fun _ => Ending.kept_respond
          simp only [Json.printable, printableFields, isUtf8_text "success" (by decide), isUtf8_text "userId" (by decide),
            Bool.and_true]
  · exact Ending.closed_respond

theorem RegisterHandler.ending_holds :
    (Resource.register.ending moment arrival exchange).Holds exchange (RegisterHandler.handle moment.site arrival exchange) := by
  unfold Resource.ending
  simp only [RegisterHandler.handle]
  cases inserted moment.site arrival.request with
  | error what => exact Ending.threw_of_unanswered unanswered_self
  | ok userId =>
    dsimp only
    split
    · refine printable_holds ?_ fun _ => Ending.kept_respond
      simp only [successful, Json.printable, printableFields, isUtf8_text "status" (by decide), isUtf8_text "success" (by decide),
        isUtf8_text "message" (by decide), isUtf8_text "Register successful" (by decide), isUtf8_text "userId" (by decide),
        Bool.and_true]
    · exact printable_holds (printable_statusError "username already exists" (by decide)) fun _ => Ending.kept_respond

theorem LogoutHandler.ending_holds :
    (Resource.logout.ending moment arrival exchange).Holds exchange (LogoutHandler.handle moment.site.toServices arrival exchange) := by
  obtain ⟨resp, session⟩ := @Exchange.getSession_eq arrival exchange
  have unanswered := @getSession_unanswered exchange arrival
  rw [session] at unanswered
  unfold Resource.ending
  simp only [LogoutHandler.handle, leaving]
  split
  · simp only [attempt, session, userIdOf, Exchange.getValue_visited]
    cases stoi ((exchange.given arrival).getValue (ascii "userId")) with
    | error =>
      simp only [Except.toOption, Option.isSome_none, Bool.false_eq_true, if_false]
      exact caught_stoi
    | ok userId =>
      simp only [Except.toOption, Option.isSome_some, if_true]
      cases gameType moment.site.toServices arrival.request with
      | error what => exact catching_holds unanswered
      | ok game =>
        refine caught_printable ?_ fun _ => Ending.closed_respond
        simp only [Json.printable, printableFields, isUtf8_text "message" (by decide),
          isUtf8_text "logout successful" (by decide), Bool.and_true]
  · exact Ending.closed_respond

theorem MenuHandler.ending_holds :
    (Resource.menu.ending moment arrival exchange).Holds exchange (MenuHandler.handle moment.site.toServices arrival exchange) := by
  obtain ⟨resp, unanswered, cases⟩ := @authorize_eq exchange moment.site.toServices arrival
  rcases cases with ⟨none, handled, ends, closed⟩ | ⟨what, some, ends⟩ | ⟨userId, some, goes⟩
  · unfold Resource.ending
    simp only [none, handle, attempt, ends]
    obtain ⟨result, exchange⟩ := handled
    cases closed.1
    exact closed
  · have text : what = ascii "stoi" := by
      rw [authorized] at some
      split at some
      · cases some
      · split at some <;> cases some
        rfl
    unfold Resource.ending
    simp only [some, handle, attempt, ends, text]
    exact caught_stoi
  · unfold Resource.ending
    simp only [some, handle, attempt, goes]
    cases moment.site.menuPage with
    | error what => exact catching_holds unanswered
    | ok page => exact Ending.kept_respond

theorem AiGameStartHandler.ending_holds :
    (Resource.aiStart.ending moment arrival exchange).Holds exchange
      (AiGameStartHandler.handle moment.site.toServices arrival exchange) := by
  obtain ⟨resp, unanswered, cases⟩ := @authorize_eq exchange moment.site.toServices arrival
  rcases cases with ⟨none, handled, ends, closed⟩ | ⟨what, some, ends⟩ | ⟨userId, some, goes⟩
  · unfold Resource.ending
    simp only [none, handle, ends]
    exact closed
  · unfold Resource.ending
    simp only [some, handle, ends]
    exact Ending.threw_of_unanswered unanswered
  · unfold Resource.ending
    simp only [some, handle, goes]
    cases moment.site.gamePage with
    | error what => exact Ending.threw_of_unanswered unanswered
    | ok page => exact Ending.kept_respond

theorem restartChessGameVsAi_ending_holds :
    (Resource.aiRestart.ending moment arrival exchange).Holds exchange
      (restartChessGameVsAi moment.site.toServices arrival exchange) := by
  obtain ⟨resp, unanswered, cases⟩ := @authorize_eq exchange moment.site.toServices arrival
  rcases cases with ⟨none, handled, ends, closed⟩ | ⟨what, some, ends⟩ | ⟨userId, some, goes⟩
  · unfold Resource.ending
    simp only [none, restartChessGameVsAi, ends]
    exact closed
  · unfold Resource.ending
    simp only [some, restartChessGameVsAi, ends]
    exact Ending.threw_of_unanswered unanswered
  · unfold Resource.ending
    simp only [some, restartChessGameVsAi, goes]
    exact printed_holds unanswered fun _ => Ending.packaged_packageResp

theorem getBackendData_ending_holds :
    (Resource.backendData.ending moment arrival exchange).Holds exchange (getBackendData moment.site arrival exchange) := by
  unfold Resource.ending
  simp only [getBackendData, backendAttempt]
  cases moment.site.getUserCount with
  | error what => exact printed_holds unanswered_self fun _ => ⟨rfl, rfl⟩
  | ok totalUser =>
    obtain ⟨body, sent⟩ := @Exchange.withBody_of_printable moment.site.toServices exchange
      (backendData (toInt exchange.server.onlineUsers.size) exchange.server.maxOnline totalUser) 4
      (Exchange.respond arrival.request.version .k200Ok (ascii "OK") false applicationJson)
      (by simp only [backendData, Json.printable, printableFields, isUtf8_text "curOnline" (by decide),
        isUtf8_text "maxOnline" (by decide), isUtf8_text "totalUser" (by decide), Bool.and_true])
    simp only [sent]
    exact Ending.kept_respond

namespace AiGameMoveHandler

variable {request : HttpRequest} {userId x y : Int} {rand : Nat}

theorem printableItems_map {α : Type} {f : α → Json} (items : List α) (each : ∀ item, (f item).printable = true) :
    printableItems (items.map f) = true := by
  induction items with
  | nil => rfl
  | cons item items ih => simp [printableItems, each item, ih]

theorem printable_getBoard (game : AiGame) : (getBoard game).printable = true := by
  simp only [getBoard, Json.printable]
  apply printableItems_map
  intro row
  simp only [Json.printable]
  apply printableItems_map
  intro cell
  cases cell
  · exact isUtf8_text "empty" (by decide)
  · exact isUtf8_text "white" (by decide)
  · exact isUtf8_text "black" (by decide)

theorem printableFields_append (first second : List (Bytes × Json)) :
    printableFields (first ++ second) = (printableFields first && printableFields second) := by
  induction first with
  | nil => simp [printableFields]
  | cons field first ih => simp [printableFields, ih, Bool.and_assoc]

theorem answer_kept {game : AiGame} {extra : List (Bytes × Json)} (winner nextTurn : String) (winnerText : winner ∈ texts)
    (turnText : nextTurn ∈ texts) (extraFields : printableFields extra = true) :
    Ending.kept.Holds start (answer services request game (ascii winner) (ascii nextTurn) extra exchange) := by
  apply printable_holds _ fun _ => Ending.kept_respond
  simp only [Json.printable, printableFields_append, printableFields, extraFields, printable_getBoard,
    isUtf8_text "status" (by decide), isUtf8_text "ok" (by decide), isUtf8_text "board" (by decide),
    isUtf8_text "winner" (by decide), isUtf8_text "next_turn" (by decide), isUtf8_text winner winnerText,
    isUtf8_text nextTurn turnText, Bool.and_true]

theorem printable_lastMove (game : AiGame) : printableFields (lastMove game) = true := by
  simp only [lastMove, printableFields, Json.printable, isUtf8_text "last_move" (by decide), isUtf8_text "x" (by decide),
    isUtf8_text "y" (by decide), Bool.and_true]

theorem ending_kept (kept : Ending.kept.Holds start handled) : Ending.kept.Holds start (ending userId handled) := by
  obtain ⟨result, exchange⟩ := handled
  cases kept.1
  exact kept

theorem play_kept (played : play services request userId x y rand exchange = some handled) : Ending.kept.Holds start handled := by
  simp only [play, Option.bind_eq_bind, Option.bind_eq_some_iff] at played
  obtain ⟨⟨made, game⟩, _, played⟩ := played
  have none : printableFields [] = true := rfl
  cases made with
  | false =>
    cases played
    exact printable_holds (printable_statusError "Invalid move" (by decide)) fun _ => Ending.kept_respond
  | true =>
    simp only [if_true] at played
    split at played
    · cases played
      exact ending_kept (answer_kept "human" "none" (by decide) (by decide) none)
    · split at played
      · cases played
        exact ending_kept (answer_kept "draw" "none" (by decide) (by decide) none)
      · obtain ⟨game, _, played⟩ := Option.bind_eq_some_iff.mp played
        split at played
        · cases played
          exact ending_kept (answer_kept "ai" "none" (by decide) (by decide) (printable_lastMove game))
        · split at played <;> cases played
          · exact ending_kept (answer_kept "draw" "none" (by decide) (by decide) (printable_lastMove game))
          · exact answer_kept "none" "human" (by decide) (by decide) (printable_lastMove game)

theorem ending_holds (done : handle moment.site.toServices arrival rand exchange = some handled) :
    (Resource.aiMove.ending moment arrival exchange).Holds exchange handled := by
  simp only [handle, Option.bind_eq_bind, Option.bind_eq_some_iff] at done
  obtain ⟨tried, attempted, done⟩ := done
  -- An attempt that has answered is what the handler leaves.
  have returned {left : Ending} (holds : left.Holds exchange tried) (ok : tried.1 = .ok ()) : left.Holds exchange handled := by
    obtain ⟨result, exchange⟩ := tried
    cases ok
    cases done
    exact holds
  have caught {what : Bytes} {thrown : Exchange} (unanswered : Unanswered exchange thrown) (failed : tried = (.error what, thrown)) :
      (printed moment.site.toServices (-1) (statusError what) .packaged).Holds exchange handled := by
    subst failed
    cases done
    exact printed_holds unanswered fun _ => Ending.packaged_packageResp
  obtain ⟨resp, unanswered, cases⟩ := @authorize_eq exchange moment.site.toServices arrival
  rcases cases with ⟨none, early, ends, closed⟩ | ⟨what, some, ends⟩ | ⟨userId, some, goes⟩
  · simp only [attempt, ends, Option.some.injEq] at attempted
    subst attempted
    unfold Resource.ending
    simp only [none]
    exact returned closed closed.1
  · simp only [attempt, ends, Option.some.injEq] at attempted
    unfold Resource.ending
    simp only [some]
    exact caught unanswered attempted.symm
  · simp only [attempt, goes] at attempted
    unfold Resource.ending
    simp only [some]
    cases read : coordinates moment.site.toServices arrival.request with
    | error what =>
      simp only [read, Option.some.injEq] at attempted
      exact caught unanswered attempted.symm
    | ok place =>
      simp only [read] at attempted
      have kept : Ending.kept.Holds exchange tried := play_kept attempted
      exact returned kept kept.1

end AiGameMoveHandler

theorem Resource.ending_holds {resource : Resource} (done : resource.handle moment arrival exchange = some handled) :
    (resource.ending moment arrival exchange).Holds exchange handled := by
  cases resource with
  | entry => cases done; exact showPage_holds _
  | backend => cases done; exact showPage_holds _
  | login => cases done; exact LoginHandler.ending_holds
  | register => cases done; exact RegisterHandler.ending_holds
  | logout => cases done; exact LogoutHandler.ending_holds
  | menu => cases done; exact MenuHandler.ending_holds
  | aiStart => cases done; exact AiGameStartHandler.ending_holds
  | aiMove => exact AiGameMoveHandler.ending_holds done
  | aiRestart => cases done; exact restartChessGameVsAi_ending_holds
  | backendData => cases done; exact getBackendData_ending_holds

/-- Only a move may do something undefined, and then it was about to be answered. -/
theorem Resource.handle_defined {resource : Resource} (other : resource.ending moment arrival exchange ≠ .kept) :
    ∃ handled, resource.handle moment arrival exchange = some handled := by
  cases resource with
  | aiMove =>
    obtain ⟨resp, unanswered, cases⟩ := @authorize_eq exchange moment.site.toServices arrival
    have tried : ∃ tried, AiGameMoveHandler.attempt moment.site.toServices arrival moment.rand exchange = some tried := by
      rcases cases with ⟨none, early, ends, _⟩ | ⟨what, some, ends⟩ | ⟨userId, some, goes⟩
      · exact ⟨early, by rw [AiGameMoveHandler.attempt, ends]⟩
      · exact ⟨_, by rw [AiGameMoveHandler.attempt, ends]⟩
      · simp only [AiGameMoveHandler.attempt, goes]
        simp only [Resource.ending, some] at other
        split
        · exact ⟨_, rfl⟩
        · next read =>
          rw [read] at other
          exact absurd rfl other
    obtain ⟨⟨_ | ⟨⟩, left⟩, attempted⟩ := tried
    all_goals exact ⟨_, by rw [Resource.handle, AiGameMoveHandler.handle, attempted]; rfl⟩
  | entry | login | register | logout | menu | aiStart | aiRestart | backend | backendData => exact ⟨_, rfl⟩

end

/-- The response that is sent, for each ending. -/
def Ending.Sent (close : Bool) (response : HttpResponse) : Ending → Prop
  | .closed => response.closeConnection = true
  | .kept => response.closeConnection = false ∧ announced response = some (decimal response.body.length)
  | .packaged body => response.closeConnection = false ∧ response.body = body ∧
      announced response = some (decimal (toSizeT (toInt body.length)))
  | .threw => response.closeConnection = close ∧ announced response = none

section

variable {moment : Moment} {request : HttpRequest} {server : GomokuServer} {close : Bool}

theorem dressed_eq (resp : HttpResponse) : (dressed resp).closeConnection = resp.closeConnection ∧
    (dressed resp).body = resp.body ∧ announced (dressed resp) = announced resp := by
  refine ⟨rfl, rfl, ?_⟩
  show announced ((((resp.addHeader _ _).addHeader _ _).addHeader _ _).addHeader _ _) = _
  rw [announced_addHeader (by decide), announced_addHeader (by decide), announced_addHeader (by decide),
    announced_addHeader (by decide)]

theorem Ending.Holds.sent {ending : Ending} {handled : Handled}
    (holds : ending.Holds { resp := { closeConnection := close }, server } handled) : ending.Sent close (replied handled).1 := by
  obtain ⟨result, exchange⟩ := handled
  obtain ⟨flag, body, length⟩ := dressed_eq exchange.resp
  cases ending with
  | closed =>
    cases holds.1
    exact flag.trans holds.2
  | kept =>
    cases holds.1
    refine ⟨flag.trans holds.2.1, length.trans ?_⟩
    rw [holds.2.2]
    rfl
  | packaged text =>
    cases holds.1
    exact ⟨flag.trans holds.2.1, body.trans holds.2.2.1, length.trans holds.2.2.2⟩
  | threw =>
    obtain ⟨⟨what, same⟩, kept, none⟩ := holds
    cases same
    exact ⟨kept, none.trans Std.ExtTreeMap.getElem?_empty⟩

theorem sent_of_handled {response : HttpResponse} {next : GomokuServer}
    (handled : (httpServer moment).handleRequest request { closeConnection := close } server = some (.ok (response, next))) :
    (endingOf moment request server).Sent close response := by
  rw [endingOf]
  by_cases options : request.method = .kOptions
  · rw [handleRequest_preflight options] at handled
    cases handled
    rw [if_pos options]
    show (CorsMiddleware.handlePreflightRequest .defaultConfig request {}).closeConnection = true
    rw [CorsMiddleware.handlePreflightRequest]
    dsimp only
    split <;> rfl
  · rw [if_neg options]
    cases known : Resource.of request with
    | none =>
      rw [handleRequest_unknown options known] at handled
      cases handled
      rfl
    | some resource =>
      rw [handleRequest_known options known] at handled
      obtain ⟨left, found, same⟩ := Option.map_eq_some_iff.mp handled
      have holds := (Resource.ending_holds found).sent
      rw [Except.ok.inj same] at holds
      exact holds

theorem handled_of_ending (other : endingOf moment request server ≠ .kept) :
    ∃ response next, (httpServer moment).handleRequest request { closeConnection := close } server =
      some (.ok (response, next)) := by
  rw [endingOf] at other
  by_cases options : request.method = .kOptions
  · exact ⟨_, _, handleRequest_preflight options⟩
  · rw [if_neg options] at other
    cases known : Resource.of request with
    | none => exact ⟨_, _, handleRequest_unknown options known⟩
    | some resource =>
      rw [known] at other
      obtain ⟨handled, found⟩ := @Resource.handle_defined { resp := { closeConnection := close }, server }
        ⟨request, moment.clock, moment.generated⟩ moment resource other
      refine ⟨(replied handled).1, (replied handled).2, ?_⟩
      rw [handleRequest_known options known, found]
      rfl

end

end HttpFramework.Gomoku
