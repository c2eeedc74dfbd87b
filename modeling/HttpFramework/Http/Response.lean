import HttpFramework.Cpp

/-! `http::HttpResponse` and the bytes it is sent as. -/

namespace HttpFramework.Http

inductive HttpStatusCode where
  | kUnknown | k200Ok | k204NoContent | k301MovedPermanently | k400BadRequest | k401Unauthorized
  | k403Forbidden | k404NotFound | k409Conflict | k500InternalServerError
deriving DecidableEq, Repr

def HttpStatusCode.toNat : HttpStatusCode → Nat
  | kUnknown => 0
  | k200Ok => 200
  | k204NoContent => 204
  | k301MovedPermanently => 301
  | k400BadRequest => 400
  | k401Unauthorized => 401
  | k403Forbidden => 403
  | k404NotFound => 404
  | k409Conflict => 409
  | k500InternalServerError => 500

structure HttpResponse where
  httpVersion : Bytes := []
  statusCode : HttpStatusCode := .kUnknown
  statusMessage : Bytes := []
  closeConnection : Bool := true
  headers : Dict := ∅
  body : Bytes := []

namespace HttpResponse

def setStatusLine (response : HttpResponse) (version : Bytes) (statusCode : HttpStatusCode) (statusMessage : Bytes) :
    HttpResponse :=
  { response with httpVersion := version, statusCode, statusMessage }

def setCloseConnection (response : HttpResponse) (on : Bool) : HttpResponse := { response with closeConnection := on }

def addHeader (response : HttpResponse) (key value : Bytes) : HttpResponse :=
  { response with headers := response.headers.insert key value }

def setContentType (response : HttpResponse) (contentType : Bytes) : HttpResponse :=
  response.addHeader (ascii "Content-Type") contentType

def setContentLength (response : HttpResponse) (length : Nat) : HttpResponse :=
  response.addHeader (ascii "Content-Length") (decimal length)

def setBody (response : HttpResponse) (body : Bytes) : HttpResponse := { response with body }

/-- `snprintf` into an array of 32 characters keeps at most 31 of them. -/
def statusPrefix (response : HttpResponse) : Bytes :=
  (cString response.httpVersion ++ ascii " " ++ decimal response.statusCode.toNat ++ ascii " ").take 31

def headerLine (header : Bytes × Bytes) : Bytes := header.1 ++ ascii ": " ++ header.2 ++ CRLF

def appendToBuffer (response : HttpResponse) : Bytes :=
  response.statusPrefix ++ response.statusMessage ++ CRLF ++
    (if response.closeConnection then ascii "Connection: close" else ascii "Connection: Keep-Alive") ++ CRLF ++
    response.headers.toList.flatMap headerLine ++ CRLF ++ response.body

end HttpResponse

end HttpFramework.Http
