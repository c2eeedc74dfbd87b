import HttpFramework.Http.Session

/-! The session store with its pointers. `MemorySessionStorage` maps ids to shared pointers, so a
session and the id that it is stored under are two things here, and a session that the store has
forgotten is still an object. The address of an object is its place among those that have been
made. -/

namespace HttpFramework.Http

structure SessionObject extends Session where
  sessionId : Bytes

structure SessionStorage where
  objects : List SessionObject := []
  sessions : Bytes → Option Nat := fun _ => none

namespace SessionStorage

def hexDigit (digit : Fin 16) : UInt8 := if digit.val < 10 then chr '0' + digit.val.toUInt8 else chr 'a' + (digit.val - 10).toUInt8

/-- The draws are what the distribution gives for the 32 digits. -/
def generateSessionId (draws : Fin 32 → Fin 16) : Bytes := List.ofFn fun i => hexDigit (draws i)

def save (address : Nat) (storage : SessionStorage) : SessionStorage :=
  match storage.objects[address]? with
  | some object => { storage with sessions := Function.update storage.sessions object.sessionId (some address) }
  | none => storage

def remove (id : Bytes) (storage : SessionStorage) : SessionStorage :=
  { storage with sessions := Function.update storage.sessions id none }

/-- The object that the store has under an id. -/
def find (id : Bytes) (storage : SessionStorage) : Option (Nat × SessionObject) := do
  let address ← storage.sessions id
  return (address, ← storage.objects[address]?)

def load (id : Bytes) (now : Int) (storage : SessionStorage) : Option Nat × SessionStorage :=
  match storage.find id with
  | none => (none, storage)
  | some (address, object) => if object.isExpired now then (none, storage.remove id) else (some address, storage)

def change (address : Nat) (update : Session → Session) (storage : SessionStorage) : SessionStorage :=
  { storage with
    objects := storage.objects.modify address fun object => { object with toSession := update object.toSession } }

def setValue (address : Nat) (key value : Bytes) (storage : SessionStorage) : SessionStorage :=
  (storage.change address fun session => session.setData key value).save address

def expiredAt (address : Nat) (now : Int) (storage : SessionStorage) : Bool :=
  (storage.objects[address]?).all fun object => object.isExpired now

/-- The address of the session of a request. The clock may go on between the readings. -/
def getSession (request : HttpRequest) (clock : Nat → Int) (generated : Bytes) (response : HttpResponse)
    (storage : SessionStorage) : Nat × HttpResponse × SessionStorage :=
  let id := SessionManager.getSessionIdFromCookie request
  let (loaded, storage) := if id = [] then (none, storage) else storage.load id (clock 0)
  match loaded with
  | some address =>
    if storage.expiredAt address (clock 1) then
      fresh response storage
    else
      (address, response, (storage.change address fun session => session.refresh (clock 3)).save address)
  | none => fresh response storage
where
  fresh (response : HttpResponse) (storage : SessionStorage) : Nat × HttpResponse × SessionStorage :=
    let session : Session := { expiryTime := 0 }
    let address := storage.objects.length
    let object : SessionObject := { session.refresh (clock 2) with sessionId := generated }
    let storage := { storage with objects := storage.objects ++ [object] }
    (address, SessionManager.setSessionCookie generated response,
      (storage.change address fun session => session.refresh (clock 3)).save address)

/-- A call with the reading of the clock. -/
inductive Call where
  | getSession (request : HttpRequest) (draws : Fin 32 → Fin 16) (response : HttpResponse) (now : Int)
  | setValue (address : Nat) (key value : Bytes)
  | destroySession (id : Bytes)

/-- The id is that of no session that has been made. -/
def Fresh (id : Bytes) (storage : SessionStorage) : Prop := ∀ object ∈ storage.objects, object.sessionId ≠ id

instance (id : Bytes) (storage : SessionStorage) : Decidable (storage.Fresh id) :=
  inferInstanceAs (Decidable (∀ object ∈ storage.objects, object.sessionId ≠ id))

/-- Values are set in sessions that have been returned, and the id of a new session is fresh. -/
def step (storage : SessionStorage) : Call → Option SessionStorage
  | .getSession request draws response now =>
    let (address, _, after) := storage.getSession request (fun _ => now) (generateSessionId draws) response
    if address < storage.objects.length ∨ storage.Fresh (generateSessionId draws) then some after else none
  | .setValue address key value => if address < storage.objects.length then some (storage.setValue address key value) else none
  | .destroySession id => some (storage.remove id)

end SessionStorage

end HttpFramework.Http
