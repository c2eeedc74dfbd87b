import HttpFramework.Http.Request
import HttpFramework.Http.Response

/-! `Session`, `SessionManager` and `MemorySessionStorage`. Handlers hold sessions by shared
pointers, so a session lives on when the store has forgotten it. Its id, which is generated for
it, stands for the object here. Times count nanoseconds on the system clock. -/

namespace HttpFramework.Http

structure Session where
  data : Dict := ∅
  expiryTime : Int
  maxAge : Int := 3600

namespace Session

def isExpired (session : Session) (now : Int) : Bool := session.expiryTime < now

def refresh (session : Session) (now : Int) : Session :=
  { session with expiryTime := now + session.maxAge * 1000000000 }

def getValue (session : Session) (key : Bytes) : Bytes := session.data[key]?.getD []

def setData (session : Session) (key value : Bytes) : Session := { session with data := session.data.insert key value }

def removeData (session : Session) (key : Bytes) : Session := { session with data := session.data.erase key }

def clearData (session : Session) : Session := { session with data := ∅ }

end Session

/-- The sessions that have been made, and which of them the store has under their ids. -/
structure SessionManager where
  objects : Bytes → Option Session := fun _ => none
  sessions : Bytes → Bool := fun _ => false

namespace SessionManager

/-- `MemorySessionStorage::save`. -/
def save (id : Bytes) (manager : SessionManager) : SessionManager :=
  { manager with sessions := Function.update manager.sessions id true }

/-- `MemorySessionStorage::remove`, as `destroySession` calls it. -/
def destroySession (id : Bytes) (manager : SessionManager) : SessionManager :=
  { manager with sessions := Function.update manager.sessions id false }

/-- The session that the store has under an id. -/
def stored (manager : SessionManager) (id : Bytes) : Option Session :=
  if manager.sessions id then manager.objects id else none

/-- `MemorySessionStorage::load`: a session that has expired leaves the store. -/
def load (id : Bytes) (now : Int) (manager : SessionManager) : Option Session × SessionManager :=
  match manager.stored id with
  | none => (none, manager)
  | some session => if session.isExpired now then (none, manager.destroySession id) else (some session, manager)

/-- A change of a session that exists, wherever it is held. -/
def change (id : Bytes) (update : Session → Session) (manager : SessionManager) : SessionManager :=
  { manager with objects := Function.update manager.objects id ((manager.objects id).map update) }

/-- `Session::setValue`, which saves the session again. -/
def setValue (id key value : Bytes) (manager : SessionManager) : SessionManager :=
  (manager.change id fun session => session.setData key value).save id

def removeValue (id key : Bytes) (manager : SessionManager) : SessionManager :=
  manager.change id fun session => session.removeData key

def clear (id : Bytes) (manager : SessionManager) : SessionManager := manager.change id Session.clearData

/-- `std::string::find`. -/
def find (text : Bytes) : Bytes → Option Nat
  | [] => if text = [] then some 0 else none
  | c :: rest => if text.isPrefixOf (c :: rest) then some 0 else (find text rest).map (· + 1)

def getSessionIdFromCookie (request : HttpRequest) : Bytes :=
  let cookie := request.getHeader (ascii "Cookie")
  match find (ascii "sessionId=") cookie with
  | none => []
  | some pos => (cookie.drop (pos + 10)).takeWhile (· != chr ';')

def setSessionCookie (id : Bytes) (response : HttpResponse) : HttpResponse :=
  response.addHeader (ascii "Set-Cookie") (ascii "sessionId=" ++ id ++ ascii "; Path=/; HttpOnly")

/-- The session of a request, by its id. `generated` is what `generateSessionId` would return,
and the clock may go on between the readings. -/
def getSession (request : HttpRequest) (clock : Nat → Int) (generated : Bytes) (response : HttpResponse)
    (manager : SessionManager) : Bytes × HttpResponse × SessionManager :=
  let id := getSessionIdFromCookie request
  let (loaded, manager) := if id = [] then (none, manager) else manager.load id (clock 0)
  match loaded with
  | some session =>
    if session.isExpired (clock 1) then
      fresh response manager
    else
      (id, response, (manager.change id fun session => session.refresh (clock 3)).save id)
  | none => fresh response manager
where
  fresh (response : HttpResponse) (manager : SessionManager) : Bytes × HttpResponse × SessionManager :=
    let session : Session := { expiryTime := 0 }
    let made := (session.refresh (clock 2)).refresh (clock 3)
    (generated, setSessionCookie generated response,
      { objects := Function.update manager.objects generated (some made),
        sessions := Function.update manager.sessions generated true })

end SessionManager

end HttpFramework.Http
