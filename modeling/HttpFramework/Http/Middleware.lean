import HttpFramework.Http.Request
import HttpFramework.Http.Response

/-! `MiddlewareChain` and `CorsMiddleware`. A middleware may throw the response to be sent. -/

namespace HttpFramework.Http

/-- What leaves a handler or a middleware: a response, a `std::exception` with its text, or
something else. -/
inductive Exception where
  | response (res : HttpResponse)
  | std (what : Bytes)
  | other

/-- The response may have been changed by the time `after` throws. -/
structure Middleware where
  before : HttpRequest → Except Exception HttpRequest
  after : HttpResponse → Option Exception × HttpResponse

namespace MiddlewareChain

def processBefore (middlewares : List Middleware) (request : HttpRequest) : Except Exception HttpRequest :=
  middlewares.foldlM (fun request middleware => middleware.before request) request

/-- The loop of `processAfter`, over the middlewares in reverse. -/
def afterAll : List Middleware → HttpResponse → Option Exception × HttpResponse
  | [], response => (none, response)
  | middleware :: rest, response =>
    match middleware.after response with
    | (none, response) => afterAll rest response
    | (some thrown, response) => (some thrown, response)

/-- A `std::exception` is logged. -/
def processAfter (middlewares : List Middleware) (response : HttpResponse) : Option Exception × HttpResponse :=
  match afterAll middlewares.reverse response with
  | (some (.std _), response) => (none, response)
  | processed => processed

end MiddlewareChain

structure CorsConfig where
  allowedOrigins : List Bytes := []
  allowedMethods : List Bytes := []
  allowedHeaders : List Bytes := []
  allowCredentials : Bool := false
  maxAge : Int := 3600

def CorsConfig.defaultConfig : CorsConfig where
  allowedOrigins := [ascii "*"]
  allowedMethods := [ascii "GET", ascii "POST", ascii "PUT", ascii "DELETE", ascii "OPTIONS"]
  allowedHeaders := [ascii "Content-Type", ascii "Authorization"]

namespace CorsMiddleware

def join (strings : List Bytes) (delimiter : Bytes) : Bytes := delimiter.intercalate strings

def isOriginAllowed (config : CorsConfig) (origin : Bytes) : Bool :=
  config.allowedOrigins.isEmpty || config.allowedOrigins.contains (ascii "*") || config.allowedOrigins.contains origin

def addCorsHeaders (config : CorsConfig) (origin : Bytes) (response : HttpResponse) : HttpResponse :=
  let response := response.addHeader (ascii "Access-Control-Allow-Origin") origin
  let response :=
    if config.allowCredentials then response.addHeader (ascii "Access-Control-Allow-Credentials") (ascii "true")
    else response
  let response :=
    if config.allowedMethods = [] then response
    else response.addHeader (ascii "Access-Control-Allow-Methods") (join config.allowedMethods (ascii ", "))
  let response :=
    if config.allowedHeaders = [] then response
    else response.addHeader (ascii "Access-Control-Allow-Headers") (join config.allowedHeaders (ascii ", "))
  response.addHeader (ascii "Access-Control-Max-Age") (decimalInt config.maxAge)

def handlePreflightRequest (config : CorsConfig) (request : HttpRequest) (response : HttpResponse) : HttpResponse :=
  let origin := request.getHeader (ascii "Origin")
  if isOriginAllowed config origin then { addCorsHeaders config origin response with statusCode := .k204NoContent }
  else { response with statusCode := .k403Forbidden }

def before (config : CorsConfig) (request : HttpRequest) : Except Exception HttpRequest :=
  if request.method = .kOptions then .error (.response (handlePreflightRequest config request {}))
  else .ok request

/-- The answer has the first origin of the configuration, whatever the request had. -/
def after (config : CorsConfig) (response : HttpResponse) : HttpResponse :=
  match config.allowedOrigins with
  | [] => response
  | first :: _ =>
    if config.allowedOrigins.contains (ascii "*") then addCorsHeaders config (ascii "*") response
    else addCorsHeaders config first response

end CorsMiddleware

def corsMiddleware (config : CorsConfig) : Middleware where
  before := CorsMiddleware.before config
  after response := (none, CorsMiddleware.after config response)

end HttpFramework.Http
