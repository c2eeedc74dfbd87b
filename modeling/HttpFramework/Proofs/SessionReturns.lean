import HttpFramework.Http.SessionStorage
import HttpFramework.Library.Transition

/-! What `getSession` returns from a store with any history. The store has every session under its
own id, which no operation can break since `save` takes the id from the session. -/

namespace HttpFramework.Http
open Transition

namespace SessionStorage

variable {storage : SessionStorage} {address other : Nat} {id : Bytes} {object : SessionObject} {now : Int}

theorem objects_change {update : Session → Session} : (storage.change address update).objects[other]? =
    if address = other then storage.objects[other]?.map fun object => { object with toSession := update object.toSession }
    else storage.objects[other]? := by
  rw [change, List.getElem?_modify]
  split
  · rfl
  · simp

theorem sessions_save (there : storage.objects[address]? = some object) : (storage.save address).sessions id =
    if id = object.sessionId then some address else storage.sessions id := by
  rw [save, there]
  exact Function.update_apply storage.sessions object.sessionId (some address) id

theorem sessions_remove {id' : Bytes} : (storage.remove id).sessions id' = if id' = id then none else storage.sessions id' :=
  Function.update_apply storage.sessions id none id'

@[simp] theorem sessions_change {update : Session → Session} : (storage.change address update).sessions = storage.sessions := rfl

@[simp] theorem objects_save : (storage.save address).objects = storage.objects := by
  rw [save]
  split <;> rfl

/-- Every session that has been made has an id, and the store has it under this one only. -/
structure Consistent (storage : SessionStorage) : Prop where
  own : ∀ id address, storage.sessions id = some address →
    ∃ object, storage.objects[address]? = some object ∧ object.sessionId = id
  named : ∀ object ∈ storage.objects, object.sessionId ≠ []

theorem consistent_new : ({} : SessionStorage).Consistent where
  own _ _ there := by cases there
  named _ member := by cases member

theorem Consistent.remove (consistent : storage.Consistent) (id : Bytes) : (storage.remove id).Consistent where
  own other address there := by
    rw [sessions_remove] at there
    split at there
    · cases there
    · exact consistent.own other address there
  named := consistent.named

theorem Consistent.save (consistent : storage.Consistent) (address : Nat) : (storage.save address).Consistent := by
  refine ⟨?_, by simpa using consistent.named⟩
  intro id other stored
  rw [objects_save]
  cases there : storage.objects[address]? with
  | none =>
    rw [SessionStorage.save, there] at stored
    exact consistent.own id other stored
  | some object =>
    rw [sessions_save there] at stored
    split at stored
    next same =>
      cases stored
      exact ⟨object, there, same.symm⟩
    next => exact consistent.own id other stored

theorem Consistent.change (consistent : storage.Consistent) (address : Nat) (update : Session → Session) :
    (storage.change address update).Consistent where
  own id other stored := by
    obtain ⟨object, there, same⟩ := consistent.own id other stored
    rw [objects_change, there]
    split
    · exact ⟨_, rfl, same⟩
    · exact ⟨object, rfl, same⟩
  named object member := by
    obtain ⟨place, there⟩ := List.mem_iff_getElem?.mp member
    rw [objects_change] at there
    split at there
    · obtain ⟨before, found, rfl⟩ := Option.map_eq_some_iff.mp there
      exact consistent.named before (List.mem_of_getElem? found)
    · exact consistent.named object (List.mem_of_getElem? there)

theorem Consistent.append (consistent : storage.Consistent) (named : object.sessionId ≠ []) :
    Consistent { storage with objects := storage.objects ++ [object] } where
  own id address stored := by
    obtain ⟨before, there, same⟩ := consistent.own id address stored
    have bound := (List.getElem?_eq_some_iff.mp there).1
    exact ⟨before, by simpa only [List.getElem?_append_left bound] using there, same⟩
  named other member := by
    rcases List.mem_append.mp member with before | new
    · exact consistent.named other before
    · rw [List.mem_singleton.mp new]
      exact named

/-- The session that is stored under an id and has time left. -/
def live (id : Bytes) (now : Int) (storage : SessionStorage) : Option (Nat × SessionObject) :=
  (storage.find id).filter fun found => !found.2.isExpired now

theorem find_eq_some_iff : storage.find id = some (address, object) ↔
    storage.sessions id = some address ∧ storage.objects[address]? = some object := by
  simp [find, Option.bind_eq_some_iff]

theorem live_eq_some_iff : storage.live id now = some (address, object) ↔
    (storage.sessions id = some address ∧ storage.objects[address]? = some object) ∧ object.isExpired now = false := by
  simp [live, Option.filter_eq_some_iff, find_eq_some_iff]

theorem Consistent.id_of_live (consistent : storage.Consistent) (found : storage.live id now = some (address, object)) :
    object.sessionId = id ∧ id ≠ [] := by
  obtain ⟨⟨stored, there⟩, _⟩ := live_eq_some_iff.mp found
  obtain ⟨object', there', same⟩ := consistent.own id address stored
  cases there.symm.trans there'
  exact ⟨same, same ▸ consistent.named object (List.mem_of_getElem? there)⟩

variable {request : HttpRequest} {generated : Bytes} {response : HttpResponse}

/-- What `getSession` returns for a request at a time, and what becomes of the other sessions. -/
structure Returns (request : HttpRequest) (now : Int) (generated : Bytes) (response : HttpResponse)
    (before : SessionStorage) (address : Nat) (response' : HttpResponse) (after : SessionStorage) : Prop where
  /-- The session of the cookie, exactly when it is stored and has time left. -/
  known : (before.sessions (SessionManager.getSessionIdFromCookie request) = some address ∧ response' = response) ↔
    (before.live (SessionManager.getSessionIdFromCookie request) now).isSome
  kept : ∀ known object, before.live (SessionManager.getSessionIdFromCookie request) now = some (known, object) →
    after.objects[address]? = some { object with expiryTime := now + object.maxAge * 1000000000 }
  /-- Otherwise a new one. -/
  new : before.live (SessionManager.getSessionIdFromCookie request) now = none → before.objects.length ≤ address ∧
    response' = SessionManager.setSessionCookie generated response ∧
    after.objects[address]? = some { sessionId := generated, data := ∅, expiryTime := now + 3600 * 1000000000 }
  stored : ∀ object, after.objects[address]? = some object → after.sessions object.sessionId = some address
  others : ∀ other, other ≠ address → after.objects[other]? = before.objects[other]?
  places : ∀ id, after.sessions id = before.sessions id ∨ after.sessions id = some address ∧ before.sessions id = none ∨
    id = SessionManager.getSessionIdFromCookie request ∧ after.sessions id = none ∧
      ∃ expired object, before.find id = some (expired, object) ∧ object.isExpired now = true

theorem objects_fresh : (getSession.fresh (fun _ => now) generated response storage).2.2.objects =
    storage.objects ++ [{ sessionId := generated, data := ∅, expiryTime := now + 3600 * 1000000000 }] := by
  apply List.ext_getElem?
  intro place
  rw [getSession.fresh, objects_save, objects_change]
  split
  next new =>
    subst new
    simp [Session.refresh]
  next different =>
    simp only [List.getElem?_append]
    split
    · rfl
    · rw [List.getElem?_singleton, List.getElem?_singleton, if_neg (by omega), if_neg (by omega)]

theorem sessions_fresh : (getSession.fresh (fun _ => now) generated response storage).2.2.sessions id =
    if id = generated then some storage.objects.length else storage.sessions id := by
  rw [getSession.fresh, sessions_save (by rw [objects_change, if_pos rfl]; simp; rfl)]
  rfl

/-- A new session is made from the store as it is, or without the expired session of the cookie. -/
theorem getSession_of_none (none : storage.live (SessionManager.getSessionIdFromCookie request) now = Option.none) :
    storage.getSession request (fun _ => now) generated response = getSession.fresh (fun _ => now) generated response storage ∨
      (storage.getSession request (fun _ => now) generated response = getSession.fresh (fun _ => now) generated response
          (storage.remove (SessionManager.getSessionIdFromCookie request)) ∧
        ∃ expired object, storage.find (SessionManager.getSessionIdFromCookie request) = some (expired, object) ∧
          object.isExpired now = true) := by
  by_cases unnamed : SessionManager.getSessionIdFromCookie request = []
  · left
    simp [getSession, unnamed]
  · cases found : storage.find (SessionManager.getSessionIdFromCookie request) with
    | none =>
      left
      simp [getSession, unnamed, load, found]
    | some pair =>
      obtain ⟨address, object⟩ := pair
      have late : object.isExpired now = true := by
        by_contra early
        simp [live, found, early] at none
      right
      exact ⟨by simp [getSession, unnamed, load, found, late], address, object, rfl, late⟩

theorem getSession_of_live (consistent : storage.Consistent)
    (found : storage.live (SessionManager.getSessionIdFromCookie request) now = some (address, object)) :
    storage.getSession request (fun _ => now) generated response =
      (address, response, (storage.change address fun session => session.refresh now).save address) := by
  obtain ⟨⟨stored, there⟩, early⟩ := live_eq_some_iff.mp found
  obtain ⟨_, named⟩ := consistent.id_of_live found
  have loaded := find_eq_some_iff.mpr ⟨stored, there⟩
  simp [getSession, named, load, loaded, early, expiredAt, there]

theorem returns_live (consistent : storage.Consistent)
    (found : storage.live (SessionManager.getSessionIdFromCookie request) now = some (address, object)) :
    Returns request now generated response storage address response
      ((storage.change address fun session => session.refresh now).save address) := by
  obtain ⟨⟨stored, there⟩, _⟩ := live_eq_some_iff.mp found
  obtain ⟨own, _⟩ := consistent.id_of_live found
  have changed : (storage.change address fun session => session.refresh now).objects[address]? =
      some { object with expiryTime := now + object.maxAge * 1000000000 } := by
    rw [objects_change, if_pos rfl, there]
    rfl
  have saved (id : Bytes) := @sessions_save _ _ id _ changed
  constructor
  case known => exact iff_of_true ⟨stored, rfl⟩ (by rw [found]; rfl)
  case kept =>
    rintro _ _ same
    rw [found] at same
    cases same
    rw [objects_save, changed]
  case new =>
    intro none
    rw [found] at none
    cases none
  case stored =>
    intro object' there'
    rw [objects_save, changed] at there'
    cases there'
    rw [saved, if_pos rfl]
  case others =>
    intro other different
    rw [objects_save, objects_change, if_neg (Ne.symm different)]
  case places =>
    intro id
    left
    rw [saved, sessions_change]
    split
    next same =>
      rw [same, stored.symm, ← own]
    next => rfl

/-- The store that a new session is added to may be without the expired session of the cookie. -/
theorem returns_fresh (consistent : storage.Consistent) (fresh : storage.Fresh generated)
    (none : storage.live (SessionManager.getSessionIdFromCookie request) now = Option.none) {base : SessionStorage}
    (objects : base.objects = storage.objects)
    (sessions : ∀ id, base.sessions id = storage.sessions id ∨
      id = SessionManager.getSessionIdFromCookie request ∧ base.sessions id = Option.none ∧
        ∃ expired object, storage.find id = some (expired, object) ∧ object.isExpired now = true) :
    Returns request now generated response storage storage.objects.length
      (SessionManager.setSessionCookie generated response)
      (getSession.fresh (fun _ => now) generated response base).2.2 := by
  have unused : storage.sessions generated = Option.none := by
    by_contra used
    obtain ⟨address, stored⟩ := Option.ne_none_iff_exists'.mp used
    obtain ⟨object, there, same⟩ := consistent.own generated address stored
    exact fresh object (List.mem_of_getElem? there) same
  have placed (id : Bytes) := @sessions_fresh base id now generated response
  have made := @objects_fresh base now generated response
  rw [objects] at made
  have last : (getSession.fresh (fun _ => now) generated response base).2.2.objects[storage.objects.length]? =
      some { sessionId := generated, data := ∅, expiryTime := now + 3600 * 1000000000 } := by
    rw [made, List.getElem?_concat_length]
  constructor
  case known =>
    refine iff_of_false ?_ (by rw [none]; simp)
    rintro ⟨stored, _⟩
    obtain ⟨object, there, _⟩ := consistent.own _ _ stored
    rw [List.getElem?_eq_none (Nat.le_refl _)] at there
    cases there
  case kept =>
    intro _ _ found
    rw [none] at found
    cases found
  case new => exact fun _ => ⟨Nat.le_refl _, rfl, last⟩
  case stored =>
    intro object there
    rw [last] at there
    cases there
    rw [placed, if_pos rfl, objects]
  case others =>
    intro other different
    rw [made, List.getElem?_append]
    split
    next => rfl
    next beyond => rw [List.getElem?_singleton, if_neg (by omega), List.getElem?_eq_none (by omega)]
  case places =>
    intro id
    rw [placed, objects]
    split
    next same =>
      subst same
      exact .inr (.inl ⟨rfl, unused⟩)
    next =>
      rcases sessions id with same | removed
      · exact .inl same
      · exact .inr (.inr removed)

theorem Consistent.returns (consistent : storage.Consistent) {result : Nat × HttpResponse × SessionStorage}
    (called : storage.getSession request (fun _ => now) generated response = result)
    (fresh : result.1 < storage.objects.length ∨ storage.Fresh generated) :
    Returns request now generated response storage result.1 result.2.1 result.2.2 := by
  subst called
  cases found : storage.live (SessionManager.getSessionIdFromCookie request) now with
  | some pair =>
    obtain ⟨address, object⟩ := pair
    rw [getSession_of_live consistent found]
    exact returns_live consistent found
  | none =>
    rcases @getSession_of_none storage now request generated response found with same | ⟨same, expired⟩
    · rw [same] at fresh ⊢
      have unused := fresh.resolve_left (Nat.lt_irrefl _)
      exact returns_fresh consistent unused found rfl fun _ => .inl rfl
    · rw [same] at fresh ⊢
      have unused := fresh.resolve_left (Nat.lt_irrefl _)
      refine returns_fresh consistent unused found rfl ?_
      intro id
      rw [sessions_remove]
      split
      next named =>
        subst named
        exact .inr ⟨rfl, rfl, expired⟩
      next => exact .inl rfl

theorem generateSessionId_ne_nil (draws : Fin 32 → Fin 16) : generateSessionId draws ≠ [] := by
  intro empty
  have length := congrArg List.length empty
  simp [generateSessionId] at length

theorem Consistent.fresh (consistent : storage.Consistent) (named : generated ≠ []) (now : Int) (response : HttpResponse) :
    (getSession.fresh (fun _ => now) generated response storage).2.2.Consistent :=
  ((consistent.append named).change _ _).save _

theorem Consistent.step {next : SessionStorage} {call : Call} (consistent : storage.Consistent)
    (taken : storage.step call = some next) : next.Consistent := by
  cases call with
  | getSession request draws response now =>
    have named := generateSessionId_ne_nil draws
    simp only [SessionStorage.step] at taken
    split at taken
    next =>
      cases taken
      cases found : storage.live (SessionManager.getSessionIdFromCookie request) now with
      | some pair =>
        rw [getSession_of_live consistent found]
        exact (consistent.change _ _).save _
      | none =>
        rcases @getSession_of_none storage now request (generateSessionId draws) response found with same | ⟨same, _⟩
        · rw [same]
          exact consistent.fresh named now response
        · rw [same]
          exact (consistent.remove _).fresh named now response
    next => cases taken
  | setValue address key value =>
    simp only [SessionStorage.step] at taken
    split at taken
    · cases taken
      exact (consistent.change _ _).save _
    · cases taken
  | destroySession id =>
    cases taken
    exact consistent.remove id

/-- After any calls the store has every session under its own id, and `getSession` returns the
session of the cookie if it can and a new one otherwise, without touching any other. -/
theorem sessions_returned (calls : List Call) (storage : SessionStorage) (ran : Run step {} calls storage) :
    (∀ id address, storage.sessions id = some address →
      ∃ object, storage.objects[address]? = some object ∧ object.sessionId = id) ∧
    ∀ request draws response now,
      let result := storage.getSession request (fun _ => now) (generateSessionId draws) response
      result.1 < storage.objects.length ∨ storage.Fresh (generateSessionId draws) →
      Returns request now (generateSessionId draws) response storage result.1 result.2.1 result.2.2 := by
  have consistent := ran.invariant (fun _ _ _ consistent taken => consistent.step taken) consistent_new
  refine ⟨consistent.own, ?_⟩
  intro request draws response now result fresh
  exact consistent.returns rfl fresh

/-- A request without a cookie, whose session is destroyed, and then another. -/
theorem sessions_returned_destroyed :
    let storage := (({} : SessionStorage).getSession {} (fun _ => 5) (generateSessionId fun _ => 0) {}).2.2.remove
      (generateSessionId fun _ => 0)
    let result := storage.getSession {} (fun _ => 6) (generateSessionId fun _ => 1) {}
    Run step {} [.getSession {} (fun _ => 0) {} 5, .destroySession (generateSessionId fun _ => 0)] storage ∧
      Returns {} 6 (generateSessionId fun _ => 1) {} storage result.1 result.2.1 result.2.2 := by
  intro storage result
  have made : step {} (.getSession {} (fun _ => 0) {} 5) =
      some (({} : SessionStorage).getSession {} (fun _ => 5) (generateSessionId fun _ => 0) {}).2.2 := by
    simp [step, Fresh]
  have ran : Run step {} [.getSession {} (fun _ => 0) {} 5, .destroySession (generateSessionId fun _ => 0)] storage :=
    .cons made (.cons rfl (.nil storage))
  exact ⟨ran, (sessions_returned _ storage ran).2 {} (fun _ => 1) {} 6 (.inr (by decide))⟩

/-- The store as `SessionManager` has it, where a session is known by its id. -/
def view (storage : SessionStorage) : SessionManager where
  objects id := (storage.objects.find? fun object => object.sessionId = id).map SessionObject.toSession
  sessions id := (storage.sessions id).isSome

/-- No id has been generated twice. -/
def Distinct (storage : SessionStorage) : Prop :=
  ∀ (address other : Nat) object object', storage.objects[address]? = some object → storage.objects[other]? = some object' →
    object.sessionId = object'.sessionId → address = other

theorem Distinct.view_objects_iff (distinct : storage.Distinct) {session : Session} : storage.view.objects id = some session ↔
    ∃ (address : Nat) (object : SessionObject),
      storage.objects[address]? = some object ∧ object.sessionId = id ∧ object.toSession = session := by
  rw [view, Option.map_eq_some_iff]
  constructor
  · rintro ⟨object, found, rfl⟩
    obtain ⟨address, there⟩ := List.mem_iff_getElem?.mp (List.mem_of_find?_eq_some found)
    exact ⟨address, object, there, by simpa using List.find?_some found, rfl⟩
  · rintro ⟨address, object, there, rfl, rfl⟩
    have some : (storage.objects.find? fun other => other.sessionId = object.sessionId).isSome :=
      List.find?_isSome.mpr ⟨object, List.mem_of_getElem? there, by simp⟩
    obtain ⟨other, found⟩ := Option.isSome_iff_exists.mp some
    obtain ⟨address', there'⟩ := List.mem_iff_getElem?.mp (List.mem_of_find?_eq_some found)
    cases distinct address' address other object there' there (by simpa using List.find?_some found)
    cases there.symm.trans there'
    exact ⟨object, found, rfl⟩

theorem Distinct.change (distinct : storage.Distinct) (address : Nat) (update : Session → Session) :
    (storage.change address update).Distinct := by
  have sameId : ∀ (place : Nat) object, (storage.change address update).objects[place]? = some object →
      ∃ before, storage.objects[place]? = some before ∧ before.sessionId = object.sessionId := by
    intro place object there
    rw [objects_change] at there
    split at there
    · obtain ⟨before, found, rfl⟩ := Option.map_eq_some_iff.mp there
      exact ⟨before, found, rfl⟩
    · exact ⟨object, there, rfl⟩
  intro place place' object object' there there' same
  obtain ⟨before, found, id⟩ := sameId place object there
  obtain ⟨before', found', id'⟩ := sameId place' object' there'
  exact distinct place place' before before' found found' (id.trans (same.trans id'.symm))

theorem view_change (distinct : storage.Distinct) (there : storage.objects[address]? = some object) (update : Session → Session) :
    (storage.change address update).view = storage.view.change object.sessionId update := by
  refine congrArg (fun objects => SessionManager.mk objects storage.view.sessions) (funext fun id => Option.ext fun session => ?_)
  change (storage.change address update).view.objects id = some session ↔ _
  rw [(distinct.change address update).view_objects_iff]
  by_cases same : id = object.sessionId
  · subst same
    rw [Function.update_self, distinct.view_objects_iff.mpr ⟨address, object, there, rfl, rfl⟩]
    constructor
    · rintro ⟨place, object', there', sameId, rfl⟩
      rw [objects_change] at there'
      split at there'
      next here =>
        subst here
        rw [there] at there'
        cases there'
        rfl
      next elsewhere => exact absurd (distinct _ _ _ _ there there' sameId.symm) elsewhere
    · rintro ⟨⟩
      exact ⟨address, { object with toSession := update object.toSession }, by rw [objects_change, if_pos rfl, there]; rfl, rfl, rfl⟩
  · rw [Function.update_of_ne same, distinct.view_objects_iff]
    refine exists_congr fun place => exists_congr fun object' => ?_
    rw [objects_change]
    split
    next here =>
      subst here
      rw [there]
      constructor
      · rintro ⟨⟨⟩, sameId, _⟩
        exact absurd sameId.symm same
      · rintro ⟨⟨⟩, sameId, _⟩
        exact absurd sameId.symm same
    next => rfl

theorem view_save (there : storage.objects[address]? = some object) :
    (storage.save address).view = storage.view.save object.sessionId := by
  rw [save, there]
  simp only [view, SessionManager.save, SessionManager.mk.injEq, true_and]
  funext id
  by_cases same : id = object.sessionId <;> simp [same]

theorem view_remove : (storage.remove id).view = storage.view.destroySession id := by
  simp only [view, remove, SessionManager.destroySession, SessionManager.mk.injEq, true_and]
  funext other
  by_cases same : other = id <;> simp [same]

theorem view_setValue (distinct : storage.Distinct) (there : storage.objects[address]? = some object) (key value : Bytes) :
    (storage.setValue address key value).view = storage.view.setValue object.sessionId key value := by
  have changed : (storage.change address fun session => session.setData key value).objects[address]? =
      some { object with toSession := object.toSession.setData key value } := by
    rw [objects_change, if_pos rfl, there]
    rfl
  have saved := view_save changed
  rw [setValue, SessionManager.setValue, ← view_change distinct there]
  exact saved

theorem view_stored (consistent : storage.Consistent) (distinct : storage.Distinct) :
    storage.view.stored id = (storage.find id).map fun found => found.2.toSession := by
  rw [SessionManager.stored]
  cases stored : storage.sessions id with
  | none => simp [view, find, stored]
  | some address =>
    obtain ⟨object, there, same⟩ := consistent.own id address stored
    have kept : storage.view.sessions id = true := by simp [view, stored]
    rw [if_pos kept, distinct.view_objects_iff.mpr ⟨address, object, there, same, rfl⟩,
      find_eq_some_iff.mpr ⟨stored, there⟩]
    rfl

theorem view_append (fresh : storage.Fresh object.sessionId) : ({ storage with objects := storage.objects ++ [object] } : SessionStorage).view =
    { storage.view with objects := Function.update storage.view.objects object.sessionId (some object.toSession) } := by
  refine congrArg (fun objects => SessionManager.mk objects storage.view.sessions) (funext fun id => ?_)
  simp only [List.find?_append]
  by_cases same : id = object.sessionId
  · subst same
    have unused : (storage.objects.find? fun other => other.sessionId = object.sessionId) = none := by
      simpa [Fresh] using fresh
    simp [unused]
  · simp [Function.update_of_ne same, view, Ne.symm same]

variable {clock : Nat → Int}

theorem Distinct.append (distinct : storage.Distinct) (fresh : storage.Fresh object.sessionId) :
    ({ storage with objects := storage.objects ++ [object] } : SessionStorage).Distinct := by
  have cases : ∀ (place : Nat) other, (storage.objects ++ [object])[place]? = some other →
      storage.objects[place]? = some other ∨ place = storage.objects.length ∧ other = object := by
    intro place other there
    rw [List.getElem?_append] at there
    split at there
    · exact .inl there
    · rw [List.getElem?_singleton] at there
      split at there
      · cases there
        exact .inr ⟨by omega, rfl⟩
      · cases there
  intro place place' other other' there there' same
  rcases cases place other there with old | ⟨rfl, rfl⟩ <;> rcases cases place' other' there' with old' | ⟨rfl, rfl⟩
  · exact distinct place place' other other' old old' same
  · exact absurd same (fresh other (List.mem_of_getElem? old))
  · exact absurd same.symm (fresh other' (List.mem_of_getElem? old'))
  · rfl

/-- A result of `getSession` on the two models. -/
def Agrees (result : Nat × HttpResponse × SessionStorage) (other : Bytes × HttpResponse × SessionManager) : Prop :=
  ∃ object, result.2.2.objects[result.1]? = some object ∧ other = (object.sessionId, result.2.1, result.2.2.view)

theorem agrees_fresh (distinct : storage.Distinct) (fresh : storage.Fresh generated) :
    Agrees (getSession.fresh clock generated response storage)
      (SessionManager.getSession.fresh clock generated response storage.view) := by
  let object : SessionObject := { Session.refresh { expiryTime := 0 } (clock 2) with sessionId := generated }
  have made : ({ storage with objects := storage.objects ++ [object] } : SessionStorage).objects[storage.objects.length]? =
      some object := List.getElem?_concat_length
  have changed : (change storage.objects.length (fun session => session.refresh (clock 3))
      { storage with objects := storage.objects ++ [object] }).objects[storage.objects.length]? =
      some { object with toSession := object.toSession.refresh (clock 3) } := by
    rw [objects_change, if_pos rfl, made]
    rfl
  have saved := view_save changed
  rw [view_change (distinct.append fresh) made, view_append fresh] at saved
  refine ⟨_, (congrArg (fun objects => objects[storage.objects.length]?) objects_save).trans changed, Prod.ext rfl (Prod.ext rfl ?_)⟩
  refine Eq.trans ?_ saved.symm
  simp [SessionManager.getSession.fresh, SessionManager.save, SessionManager.change, object]

/-- The two models agree on the session that is returned, the response and the store. -/
theorem agrees_getSession (consistent : storage.Consistent) (distinct : storage.Distinct) (fresh : storage.Fresh generated) :
    Agrees (storage.getSession request clock generated response) (storage.view.getSession request clock generated response) := by
  by_cases unnamed : SessionManager.getSessionIdFromCookie request = []
  · simp only [getSession, SessionManager.getSession, if_pos unnamed]
    exact agrees_fresh distinct fresh
  · have stored := @view_stored storage (SessionManager.getSessionIdFromCookie request) consistent distinct
    simp only [getSession, SessionManager.getSession, if_neg unnamed, load, SessionManager.load, stored]
    cases found : storage.find (SessionManager.getSessionIdFromCookie request) with
    | none => exact agrees_fresh distinct fresh
    | some pair =>
      obtain ⟨address, object⟩ := pair
      obtain ⟨placed, there⟩ := find_eq_some_iff.mp found
      cases late : object.isExpired (clock 0) with
      | true =>
        simp only [Option.map_some, late, if_true, ← view_remove]
        exact @agrees_fresh (storage.remove _) _ _ _ distinct fresh
      | false =>
        cases later : object.isExpired (clock 1) with
        | true =>
          simp only [Option.map_some, late, Bool.false_eq_true, if_false, later, expiredAt, there, Option.all_some, if_true]
          exact agrees_fresh distinct fresh
        | false =>
          have changed : (storage.change address fun session => session.refresh (clock 3)).objects[address]? =
              some { object with toSession := object.toSession.refresh (clock 3) } := by
            rw [objects_change, if_pos rfl, there]
            rfl
          have saved := view_save changed
          obtain ⟨object', there', same⟩ := consistent.own _ _ placed
          cases there.symm.trans there'
          rw [view_change distinct there] at saved
          simp only [Option.map_some, late, Bool.false_eq_true, if_false, later, expiredAt, there, Option.all_some]
          refine ⟨_, (congrArg (fun objects => objects[address]?) objects_save).trans changed, Prod.ext same.symm (Prod.ext rfl ?_)⟩
          exact (same ▸ saved).symm

theorem Distinct.of_objects {other : SessionStorage} (distinct : storage.Distinct) (same : other.objects = storage.objects) :
    other.Distinct := by
  rw [Distinct, same]
  exact distinct

theorem Distinct.fresh (distinct : storage.Distinct) (unused : storage.Fresh generated) (now : Int) (response : HttpResponse) :
    (getSession.fresh (fun _ => now) generated response storage).2.2.Distinct :=
  ((distinct.append unused).change _ _).of_objects objects_save

theorem Distinct.step {next : SessionStorage} {call : Call} (distinct : storage.Distinct) (consistent : storage.Consistent)
    (taken : storage.step call = some next) : next.Distinct := by
  cases call with
  | getSession request draws response now =>
    simp only [SessionStorage.step] at taken
    split at taken
    next allowed =>
      cases taken
      cases found : storage.live (SessionManager.getSessionIdFromCookie request) now with
      | some pair =>
        rw [getSession_of_live consistent found]
        exact (distinct.change _ _).of_objects objects_save
      | none =>
        rcases @getSession_of_none storage now request (generateSessionId draws) response found with same | ⟨same, _⟩
        · rw [same] at allowed ⊢
          exact distinct.fresh (allowed.resolve_left (Nat.lt_irrefl _)) now response
        · rw [same] at allowed ⊢
          exact @Distinct.fresh (storage.remove _) _ distinct (allowed.resolve_left (Nat.lt_irrefl _)) now response
    next => cases taken
  | setValue address key value =>
    simp only [SessionStorage.step] at taken
    split at taken
    · cases taken
      exact (distinct.change _ _).of_objects objects_save
    · cases taken
  | destroySession id =>
    cases taken
    exact distinct.of_objects rfl

/-- After any calls, the model by ids does what the objects and pointers do. -/
theorem agrees_of_run {calls : List Call} (ran : Run SessionStorage.step {} calls storage) :
    (storage.Fresh generated →
      Agrees (storage.getSession request clock generated response) (storage.view.getSession request clock generated response)) ∧
    (∀ address object key value, storage.objects[address]? = some object →
      (storage.setValue address key value).view = storage.view.setValue object.sessionId key value) ∧
    ∀ id, (storage.remove id).view = storage.view.destroySession id := by
  have start : ({} : SessionStorage).Consistent ∧ ({} : SessionStorage).Distinct := by
    refine ⟨consistent_new, ?_⟩
    intro _ _ _ _ there
    cases there
  have both : storage.Consistent ∧ storage.Distinct :=
    @Run.invariant _ _ _ (fun storage => storage.Consistent ∧ storage.Distinct)
      (fun _ _ _ both taken => ⟨both.1.step taken, both.2.step both.1 taken⟩) _ _ _ start ran
  refine ⟨agrees_getSession both.1 both.2, ?_, fun id => view_remove⟩
  intro address object key value there
  exact view_setValue both.2 there key value

end SessionStorage

end HttpFramework.Http
