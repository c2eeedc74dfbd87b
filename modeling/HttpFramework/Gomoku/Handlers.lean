import HttpFramework.Gomoku.AiGame
import HttpFramework.Http.Json
import HttpFramework.Http.Session

/-! The handlers of `GomokuServer` for logging in and out, for the menu and for the games. Each
works on the response and on the server's tables. An exception that leaves a handler is given by
its text. -/

namespace HttpFramework.Gomoku
open Http

structure GomokuServer where
  sessionManager : SessionManager := {}
  aiGames : Std.ExtTreeMap Int AiGame compare := ∅
  onlineUsers : Std.ExtTreeMap Int Bool compare := ∅
  maxOnline : Int := 0

/-- What the handlers rely on: the JSON library, the database, and the pages on the disk. -/
structure Services where
  json : JsonLibrary
  /-- `LoginHandler::queryUserId`, or the text of an exception of the database. -/
  queryUserId (username password : Bytes) : Except Bytes Int
  queried : ∀ username password id, queryUserId username password = .ok id → - 2 ^ 31 ≤ id ∧ id < 2 ^ 31
  /-- The two pages. That neither a page nor the default one can be opened shows when the vector
  for its bytes is made. -/
  menuPage : Except Bytes Bytes
  gamePage : Except Bytes Bytes

/-- What belongs to a request besides its text: the readings of the clock and the id that would
be generated for a new session. -/
structure Arrival where
  request : HttpRequest
  clock : Nat → Int
  generated : Bytes

/-- The response that is being made, and the server. -/
structure Exchange where
  resp : HttpResponse := {}
  server : GomokuServer

abbrev Handled := Except Bytes Unit × Exchange

namespace Exchange

def getSession (arrival : Arrival) (exchange : Exchange) : Bytes × Exchange :=
  let (id, resp, sessionManager) :=
    exchange.server.sessionManager.getSession arrival.request arrival.clock arrival.generated exchange.resp
  (id, { resp, server := { exchange.server with sessionManager } })

def sessions (update : SessionManager → SessionManager) (exchange : Exchange) : Exchange :=
  { exchange with server := { exchange.server with sessionManager := update exchange.server.sessionManager } }

def getValue (id key : Bytes) (exchange : Exchange) : Bytes :=
  ((exchange.server.sessionManager.objects id).map fun session => session.getValue key).getD []

def respond (version : Bytes) (statusCode : HttpStatusCode) (message : Bytes) (close : Bool) (contentType body : Bytes)
    (exchange : Exchange) : Exchange :=
  { exchange with
    resp := ((((exchange.resp.setStatusLine version statusCode message).setCloseConnection close).setContentType
      contentType).setContentLength body.length).setBody body }

/-- `GomokuServer::packageResp` takes the length as an `int`. -/
def packageResp (version : Bytes) (statusCode : HttpStatusCode) (message : Bytes) (close : Bool) (contentType body : Bytes)
    (exchange : Exchange) : Exchange :=
  { exchange with
    resp := ((((exchange.resp.setStatusLine version statusCode message).setCloseConnection close).setContentType
      contentType).setContentLength (toSizeT (toInt body.length))).setBody body }

/-- The value is printed first, and sent when that does not throw. -/
def withBody (services : Services) (indent : Int) (json : Json) (send : Bytes → Exchange → Exchange) (exchange : Exchange) :
    Handled :=
  match services.json.dump indent json with
  | .ok body => (.ok (), send body exchange)
  | .error what => (.error what, exchange)

end Exchange

def applicationJson : Bytes := ascii "application/json"

def statusError (what : Bytes) : Json :=
  .object [(ascii "status", .string (ascii "error")), (ascii "message", .string what)]

/-- The test that `LoginHandler` and `LogoutHandler` begin with. -/
def acceptable (request : HttpRequest) : Bool :=
  request.getHeader (ascii "Content-Type") = applicationJson && request.content ≠ []

def refuse (request : HttpRequest) (exchange : Exchange) : Exchange :=
  exchange.respond request.version .k400BadRequest (ascii "Bad Request") true applicationJson []

/-- The `catch` block of `LoginHandler`, `LogoutHandler` and `MenuHandler`. -/
def catching (services : Services) (request : HttpRequest) : Handled → Handled
  | (.ok (), exchange) => (.ok (), exchange)
  | (.error what, exchange) =>
    exchange.withBody services 4 (statusError what)
      (Exchange.respond request.version .k400BadRequest (ascii "Bad Request") true applicationJson)

namespace LoginHandler

/-- The user name and the id that the database has for the two texts. -/
def credentials (services : Services) (request : HttpRequest) : Except Bytes (Bytes × Int) := do
  let parsed ← services.json.parse request.content
  let username ← (← parsed.field (ascii "username")).toBytes
  let password ← (← parsed.field (ascii "password")).toBytes
  return (username, ← services.queryUserId username password)

/-- The three values that make a session a logged-in one. -/
def mark (id username : Bytes) (userId : Int) (manager : SessionManager) : SessionManager :=
  ((manager.setValue id (ascii "userId") (decimalInt userId)).setValue id (ascii "username") username).setValue id
    (ascii "isLoggedIn") (ascii "true")

def enter (userId : Int) (server : GomokuServer) : GomokuServer :=
  let onlineUsers := server.onlineUsers.insert userId true
  { server with onlineUsers, maxOnline := max server.maxOnline (toInt onlineUsers.size) }

def alreadyOnline : Json :=
  .object [(ascii "success", .boolean false), (ascii "error", .string "账号已在其他地方登录".toUTF8.toList)]

def attempt (services : Services) (arrival : Arrival) (exchange : Exchange) : Handled :=
  let request := arrival.request
  match credentials services request with
  | .error what => (.error what, exchange)
  | .ok (username, userId) =>
    if userId ≠ -1 then
      let (id, exchange) := exchange.getSession arrival
      let exchange := exchange.sessions (mark id username userId)
      if exchange.server.onlineUsers[userId]? ≠ some true then
        let exchange := { exchange with server := enter userId exchange.server }
        exchange.withBody services 4 (.object [(ascii "success", .boolean true), (ascii "userId", .number userId)])
          (Exchange.respond request.version .k200Ok (ascii "OK") false applicationJson)
      else
        exchange.withBody services 4 alreadyOnline
          (Exchange.respond request.version .k403Forbidden (ascii "Forbidden") true applicationJson)
    else
      exchange.withBody services 4 (statusError (ascii "Invalid username or password"))
        (Exchange.respond request.version .k401Unauthorized (ascii "Unauthorized") false applicationJson)

def handle (services : Services) (arrival : Arrival) (exchange : Exchange) : Handled :=
  if acceptable arrival.request then catching services arrival.request (attempt services arrival exchange)
  else (.ok (), refuse arrival.request exchange)

end LoginHandler

/-- The value `userId` of the session as a number. -/
def userIdOf (id : Bytes) (exchange : Exchange) : Except Bytes Int :=
  match stoi (exchange.getValue id (ascii "userId")) with
  | .ok userId => .ok userId
  | .error _ => .error (ascii "stoi")

namespace LogoutHandler

/-- `MAN_VS_AI`. -/
def manVsAi : Int := 1

def gameType (services : Services) (request : HttpRequest) : Except Bytes Int := do
  let parsed ← services.json.parse request.content
  (← parsed.field (ascii "gameType")).toInt

def leave (userId gameType : Int) (server : GomokuServer) : GomokuServer :=
  { server with
    onlineUsers := server.onlineUsers.erase userId
    aiGames := if gameType = manVsAi then server.aiGames.erase userId else server.aiGames }

/-- The session is gone before the body is looked at. -/
def attempt (services : Services) (arrival : Arrival) (exchange : Exchange) : Handled :=
  let request := arrival.request
  let (id, exchange) := exchange.getSession arrival
  match userIdOf id exchange with
  | .error what => (.error what, exchange)
  | .ok userId =>
    let exchange := exchange.sessions fun manager => (manager.clear id).destroySession id
    match gameType services request with
    | .error what => (.error what, exchange)
    | .ok gameType =>
      let exchange := { exchange with server := leave userId gameType exchange.server }
      exchange.withBody services 4 (.object [(ascii "message", .string (ascii "logout successful"))])
        (Exchange.respond request.version .k200Ok (ascii "OK") true applicationJson)

def handle (services : Services) (arrival : Arrival) (exchange : Exchange) : Handled :=
  if acceptable arrival.request then catching services arrival.request (attempt services arrival exchange)
  else (.ok (), refuse arrival.request exchange)

end LogoutHandler

/-- How the handlers for the menu and for the games begin: with the user of the session, or they
end at once. -/
def authorize (services : Services) (arrival : Arrival) (exchange : Exchange) : Except Handled (Int × Exchange) :=
  let (id, exchange) := exchange.getSession arrival
  if exchange.getValue id (ascii "isLoggedIn") ≠ ascii "true" then
    .error (exchange.withBody services 4 (statusError (ascii "Unauthorized"))
      (Exchange.packageResp arrival.request.version .k401Unauthorized (ascii "Unauthorized") true applicationJson))
  else
    match userIdOf id exchange with
    | .error what => .error (.error what, exchange)
    | .ok userId => .ok (userId, exchange)

def textHtml : Bytes := ascii "text/html"

namespace MenuHandler

def withUserId (userId : Int) (page : Bytes) : Bytes :=
  match SessionManager.find (ascii "</head>") page with
  | some headEnd =>
    page.take headEnd ++ ascii "<script>const userId = '" ++ decimalInt userId ++ ascii "';</script>" ++ page.drop headEnd
  | none => page

def attempt (services : Services) (arrival : Arrival) (exchange : Exchange) : Handled :=
  match authorize services arrival exchange with
  | .error handled => handled
  | .ok (userId, exchange) =>
    match services.menuPage with
    | .error what => (.error what, exchange)
    | .ok page =>
      (.ok (), exchange.respond arrival.request.version .k200Ok (ascii "OK") false textHtml (withUserId userId page))

def handle (services : Services) (arrival : Arrival) (exchange : Exchange) : Handled :=
  catching services arrival.request (attempt services arrival exchange)

end MenuHandler

def keepGame (userId : Int) (game : AiGame) (exchange : Exchange) : Exchange :=
  { exchange with server := { exchange.server with aiGames := exchange.server.aiGames.insert userId game } }

def dropGame (userId : Int) (exchange : Exchange) : Exchange :=
  { exchange with server := { exchange.server with aiGames := exchange.server.aiGames.erase userId } }

/-- `AiGameStartHandler::handle`. It catches nothing. -/
def AiGameStartHandler.handle (services : Services) (arrival : Arrival) (exchange : Exchange) : Handled :=
  match authorize services arrival exchange with
  | .error handled => handled
  | .ok (userId, exchange) =>
    let exchange := keepGame userId { userId } exchange
    match services.gamePage with
    | .error what => (.error what, exchange)
    | .ok page => (.ok (), exchange.respond arrival.request.version .k200Ok (ascii "OK") false textHtml page)

/-- `GomokuServer::restartChessGameVsAi`. -/
def restartChessGameVsAi (services : Services) (arrival : Arrival) (exchange : Exchange) : Handled :=
  match authorize services arrival exchange with
  | .error handled => handled
  | .ok (userId, exchange) =>
    (keepGame userId { userId } exchange).withBody services 4
      (.object [(ascii "status", .string (ascii "ok")), (ascii "message", .string (ascii "restart successful")),
        (ascii "userId", .number userId)])
      (Exchange.packageResp arrival.request.version .k200Ok (ascii "OK") false applicationJson)

namespace AiGameMoveHandler

def coordinates (services : Services) (request : HttpRequest) : Except Bytes (Int × Int) := do
  let parsed ← services.json.parse request.content
  let x ← (← parsed.field (ascii "x")).toInt
  let y ← (← parsed.field (ascii "y")).toInt
  return (x, y)

def cellText : Cell → Bytes
  | .empty => ascii "empty"
  | .white => ascii "white"
  | .black => ascii "black"

def getBoard (game : AiGame) : Json :=
  .array (game.board.map fun row => .array (row.map fun cell => .string (cellText cell)))

def lastMove (game : AiGame) : List (Bytes × Json) :=
  [(ascii "last_move", .object [(ascii "x", .number game.lastMove.1), (ascii "y", .number game.lastMove.2)])]

/-- An answer with the board, after the move. The fields of `extra` come last. -/
def answer (services : Services) (request : HttpRequest) (game : AiGame) (winner nextTurn : Bytes)
    (extra : List (Bytes × Json)) (exchange : Exchange) : Handled :=
  exchange.withBody services (-1)
    (.object ([(ascii "status", .string (ascii "ok")), (ascii "board", getBoard game), (ascii "winner", .string winner),
      (ascii "next_turn", .string nextTurn)] ++ extra))
    (Exchange.respond request.version .k200Ok (ascii "OK") false applicationJson)

/-- The game is removed once the answer stands. -/
def ending (userId : Int) : Handled → Handled
  | (.ok (), exchange) => (.ok (), dropGame userId exchange)
  | (.error what, exchange) => (.error what, exchange)

/-- The rest of the handler, once the user and the coordinates are known. -/
def play (services : Services) (request : HttpRequest) (userId x y : Int) (rand : Nat) (exchange : Exchange) :
    Option Handled := do
  let game := exchange.server.aiGames[userId]?.getD { userId }
  let (made, game) ← game.humanMove x y
  let exchange := keepGame userId game exchange
  if made then
    if game.gameOver then
      return ending userId (answer services request game (ascii "human") (ascii "none") [] exchange)
    else if game.isDraw then
      return ending userId (answer services request game (ascii "draw") (ascii "none") [] exchange)
    else
      let game ← game.aiMove rand
      let exchange := keepGame userId game exchange
      if game.gameOver then
        return ending userId (answer services request game (ascii "ai") (ascii "none") (lastMove game) exchange)
      else if game.isDraw then
        return ending userId (answer services request game (ascii "draw") (ascii "none") (lastMove game) exchange)
      else
        return answer services request game (ascii "none") (ascii "human") (lastMove game) exchange
  else
    return exchange.withBody services (-1) (statusError (ascii "Invalid move"))
      (Exchange.respond request.version .k400BadRequest (ascii "Bad Request") false applicationJson)

def attempt (services : Services) (arrival : Arrival) (rand : Nat) (exchange : Exchange) : Option Handled :=
  match authorize services arrival exchange with
  | .error handled => some handled
  | .ok (userId, exchange) =>
    match coordinates services arrival.request with
    | .error what => some (.error what, exchange)
    | .ok (x, y) => play services arrival.request userId x y rand exchange

/-- `rand` is what `aiMove` gets from the function of this name. -/
def handle (services : Services) (arrival : Arrival) (rand : Nat) (exchange : Exchange) : Option Handled := do
  match ← attempt services arrival rand exchange with
  | (.ok (), exchange) => return (.ok (), exchange)
  | (.error what, exchange) =>
    return exchange.withBody services (-1) (statusError what)
      (Exchange.packageResp arrival.request.version .k500InternalServerError (ascii "Internal Server Error") false
        applicationJson)

end AiGameMoveHandler

/-- What `HttpServer::handleRequest` does with an exception of a handler. -/
def answered : Handled → Exchange
  | (.ok (), exchange) => exchange
  | (.error what, exchange) =>
    { exchange with resp := { exchange.resp with statusCode := .k500InternalServerError, body := what } }

/-- The routes that use sessions. -/
inductive Route where
  | login
  | logout
  | menu
  | aiStart
  | aiMove (rand : Nat)
  | aiRestart

def Route.handle (services : Services) (arrival : Arrival) (exchange : Exchange) : Route → Option Handled
  | .login => some (LoginHandler.handle services arrival exchange)
  | .logout => some (LogoutHandler.handle services arrival exchange)
  | .menu => some (MenuHandler.handle services arrival exchange)
  | .aiStart => some (AiGameStartHandler.handle services arrival exchange)
  | .aiMove rand => AiGameMoveHandler.handle services arrival rand exchange
  | .aiRestart => some (restartChessGameVsAi services arrival exchange)

/-- The server with the time. Requests are handled one after the other. -/
structure Running where
  server : GomokuServer := {}
  now : Int

namespace Running

inductive Action where
  /-- A request, with the services as they are then. -/
  | request (route : Route) (services : Services) (request : HttpRequest) (generated : Bytes)
  | advance (elapsed : Nat)

/-- No id is generated that a stored session has. -/
def step (running : Running) : Action → Option Running
  | .request route services request generated =>
    if (running.server.sessionManager.stored generated).isNone then do
      let handled ← route.handle services { request, clock := fun _ => running.now, generated } { server := running.server }
      return { running with server := (answered handled).server }
    else
      none
  | .advance elapsed => some { running with now := running.now + elapsed }

end Running

end HttpFramework.Gomoku
