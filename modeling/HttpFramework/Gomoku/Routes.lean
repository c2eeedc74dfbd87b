import HttpFramework.Gomoku.Handlers
import HttpFramework.Http.Router

/-! The rest of `GomokuServer`: the handlers that use no session, and the routes and the middleware
that the server registers. -/

namespace HttpFramework.Gomoku
open Http

/-- What the other handlers rely on. The results for the table of users are those of the queries
in `RegisterHandler` and `getUserCount`, or the texts of exceptions. -/
structure Site extends Services where
  entryPage : Except Bytes Bytes
  backendPage : Except Bytes Bytes
  isUserExist (username : Bytes) : Except Bytes Bool
  executeUpdate (sql : Bytes) : Except Bytes Unit
  /-- The id of the user that has been inserted, if there is a row. -/
  insertedId (username : Bytes) : Except Bytes (Option Int)
  getUserCount : Except Bytes Int

/-- `EntryHandler::handle` and `GameBackendHandler::handle`, which differ in the page. -/
def showPage (page : Except Bytes Bytes) (arrival : Arrival) (exchange : Exchange) : Handled :=
  match page with
  | .error what => (.error what, exchange)
  | .ok page => (.ok (), exchange.respond arrival.request.version .k200Ok (ascii "OK") false textHtml page)

def EntryHandler.handle (site : Site) : Arrival → Exchange → Handled := showPage site.entryPage

def GameBackendHandler.handle (site : Site) : Arrival → Exchange → Handled := showPage site.backendPage

namespace RegisterHandler

def insertUser (site : Site) (username password : Bytes) : Except Bytes Int := do
  if ← site.isUserExist username then
    return -1
  else
    site.executeUpdate (ascii "INSERT INTO users (username, password) VALUES ('" ++ username ++ ascii "', '" ++ password ++
      ascii "')")
    return (← site.insertedId username).getD (-1)

def inserted (site : Site) (request : HttpRequest) : Except Bytes Int := do
  let parsed ← site.json.parse request.content
  let username ← (← parsed.field (ascii "username")).toBytes
  let password ← (← parsed.field (ascii "password")).toBytes
  insertUser site username password

def successful (userId : Int) : Json :=
  .object [(ascii "status", .string (ascii "success")), (ascii "message", .string (ascii "Register successful")),
    (ascii "userId", .number userId)]

/-- It catches nothing. -/
def handle (site : Site) (arrival : Arrival) (exchange : Exchange) : Handled :=
  match inserted site arrival.request with
  | .error what => (.error what, exchange)
  | .ok userId =>
    if userId ≠ -1 then
      exchange.withBody site.toServices 4 (successful userId)
        (Exchange.respond arrival.request.version .k200Ok (ascii "OK") false applicationJson)
    else
      exchange.withBody site.toServices 4 (statusError (ascii "username already exists"))
        (Exchange.respond arrival.request.version .k409Conflict (ascii "Conflict") false applicationJson)

end RegisterHandler

/-- The error answer of `getBackendData`. It leaves the version as it is. -/
def backendFailed (body : Bytes) (exchange : Exchange) : Exchange :=
  let resp := { exchange.resp with
    statusCode := .k500InternalServerError, statusMessage := ascii "Internal Server Error" }
  { exchange with
    resp := (((resp.setContentType applicationJson).setBody body).setContentLength body.length).setCloseConnection true }

def backendData (curOnline maxOnline totalUser : Int) : Json :=
  .object [(ascii "curOnline", .number curOnline), (ascii "maxOnline", .number maxOnline),
    (ascii "totalUser", .number totalUser)]

def backendError (what : Bytes) : Json :=
  .object [(ascii "error", .string (ascii "Internal Server Error")), (ascii "message", .string what)]

def backendAttempt (site : Site) (arrival : Arrival) (exchange : Exchange) : Handled :=
  match site.getUserCount with
  | .error what => (.error what, exchange)
  | .ok totalUser =>
    exchange.withBody site.toServices 4 (backendData (toInt exchange.server.onlineUsers.size) exchange.server.maxOnline totalUser)
      (Exchange.respond arrival.request.version .k200Ok (ascii "OK") false applicationJson)

/-- `GomokuServer::getBackendData`. -/
def getBackendData (site : Site) (arrival : Arrival) (exchange : Exchange) : Handled :=
  match backendAttempt site arrival exchange with
  | (.ok (), exchange) => (.ok (), exchange)
  | (.error what, exchange) => exchange.withBody site.toServices (-1) (backendError what) backendFailed

/-- What a request meets besides its text. -/
structure Moment where
  site : Site
  clock : Nat → Int
  generated : Bytes
  rand : Nat

/-- All exceptions of these handlers are of `std::exception`. -/
def thrownBy : Handled → Option Exception × HttpResponse × GomokuServer
  | (.ok (), exchange) => (none, exchange.resp, exchange.server)
  | (.error what, exchange) => (some (.std what), exchange.resp, exchange.server)

def Moment.handler (moment : Moment) (handle : Arrival → Exchange → Option Handled) : Handler GomokuServer :=
  fun request resp server => (handle ⟨request, moment.clock, moment.generated⟩ { resp, server }).map thrownBy

def initializeRouter (moment : Moment) : Router GomokuServer :=
  let total (handle : Arrival → Exchange → Handled) := moment.handler fun arrival exchange => some (handle arrival exchange)
  let services := moment.site.toServices
  ({} : Router GomokuServer)
    |>.registerHandler .kGet (ascii "/") (total (EntryHandler.handle moment.site))
    |>.registerHandler .kGet (ascii "/entry") (total (EntryHandler.handle moment.site))
    |>.registerHandler .kPost (ascii "/login") (total (LoginHandler.handle services))
    |>.registerHandler .kPost (ascii "/register") (total (RegisterHandler.handle moment.site))
    |>.registerHandler .kPost (ascii "/user/logout") (total (LogoutHandler.handle services))
    |>.registerHandler .kGet (ascii "/menu") (total (MenuHandler.handle services))
    |>.registerHandler .kGet (ascii "/aiBot/start") (total (AiGameStartHandler.handle services))
    |>.registerHandler .kPost (ascii "/aiBot/move") (moment.handler (AiGameMoveHandler.handle services · moment.rand))
    |>.registerCallback .kGet (ascii "/aiBot/restart") (total (restartChessGameVsAi services))
    |>.registerHandler .kGet (ascii "/backend") (total (GameBackendHandler.handle moment.site))
    |>.registerCallback .kGet (ascii "/backend_data") (total (getBackendData moment.site))

/-- The HTTP server as `GomokuServer` sets it up. -/
def httpServer (moment : Moment) : HttpServer GomokuServer where
  router := initializeRouter moment
  middlewares := [corsMiddleware .defaultConfig]

end HttpFramework.Gomoku
