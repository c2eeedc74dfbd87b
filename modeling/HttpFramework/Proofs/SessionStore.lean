import HttpFramework.Http.Session
import HttpFramework.Library.Transition

/-! What the operations do to the sessions in the store, and whether a session that has been
destroyed can come back. `setValue` saves the session it is called on: whoever holds a session
can put it back into the store. -/

namespace HttpFramework.Http
open Transition

namespace SessionManager

variable {manager : SessionManager} {id other generated key value : Bytes} {session : Session} {now : Int}

theorem objects_of_stored (there : manager.stored id = some session) : manager.objects id = some session := by
  rw [stored] at there
  split at there
  · exact there
  · cases there

@[simp] theorem stored_destroySession : (manager.destroySession id).stored other = if other = id then none else manager.stored other := by
  by_cases same : other = id <;> simp [stored, destroySession, same]

theorem stored_change {update : Session → Session} :
    (manager.change id update).stored other = if other = id then (manager.stored other).map update else manager.stored other := by
  by_cases same : other = id
  · subst same
    by_cases there : manager.sessions other <;> simp [stored, change, there]
  · simp [stored, change, same]

theorem stored_save : (manager.save id).stored other = if other = id then manager.objects id else manager.stored other := by
  by_cases same : other = id
  · subst same
    simp [stored, save]
  · simp [stored, save, same]

/-- The session is in the store afterwards, whether it was before or not. -/
theorem stored_setValue : (manager.setValue id key value).stored other =
    if other = id then (manager.objects id).map (fun session => session.setData key value) else manager.stored other := by
  rw [setValue, stored_save]
  by_cases same : other = id
  · simp [same, change]
  · rw [if_neg same, if_neg same, stored_change, if_neg same]

theorem load_eq_none_iff : (manager.load id now).1 = none ↔ ∀ session, manager.stored id = some session → session.isExpired now := by
  rw [load]
  cases found : manager.stored id with
  | none => simp
  | some session => cases expired : session.isExpired now <;> simp [expired]

/-- The session that a request brings with it: the cookie names one that is stored and has not
expired at either reading. -/
def current (request : HttpRequest) (clock : Nat → Int) (manager : SessionManager) : Option Session :=
  if getSessionIdFromCookie request = [] then none
  else (manager.stored (getSessionIdFromCookie request)).filter fun session =>
    !session.isExpired (clock 0) && !session.isExpired (clock 1)

theorem stored_of_current {request : HttpRequest} {clock : Nat → Int} (found : manager.current request clock = some session) :
    manager.stored (getSessionIdFromCookie request) = some session ∧ session.isExpired (clock 0) = false ∧
      session.isExpired (clock 1) = false := by
  rw [current] at found
  split at found
  · cases found
  · obtain ⟨stored, live⟩ := Option.filter_eq_some_iff.mp found
    simpa [stored] using live

theorem getSession_of_current {request : HttpRequest} {clock : Nat → Int} {response : HttpResponse}
    (found : manager.current request clock = some session) :
    manager.getSession request clock generated response = (getSessionIdFromCookie request, response,
      (manager.change (getSessionIdFromCookie request) fun session => session.refresh (clock 3)).save
        (getSessionIdFromCookie request)) := by
  obtain ⟨stored, live, live'⟩ := stored_of_current found
  have named : getSessionIdFromCookie request ≠ [] := by
    intro none
    rw [current, if_pos none] at found
    cases found
  simp [getSession, named, load, stored, live, live']

theorem fresh_spec {clock : Nat → Int} {response : HttpResponse} :
    ∃ changed, getSession.fresh clock generated response manager = (generated, setSessionCookie generated response, changed) ∧
      changed.stored generated = some { expiryTime := clock 3 + 3600 * 1000000000 } ∧
      ∀ other, other ≠ generated → changed.stored other = manager.stored other := by
  refine ⟨_, rfl, ?_, ?_⟩
  · simp [stored, Session.refresh]
  · intro other different
    simp [stored, different]

/-- Otherwise the request gets a new session. Another is lost to the store only when it has
expired. -/
theorem getSession_eq_fresh {request : HttpRequest} {clock : Nat → Int} {response : HttpResponse}
    (none : manager.current request clock = none) :
    ∃ kept : SessionManager,
      manager.getSession request clock generated response = getSession.fresh clock generated response kept ∧
      kept.objects = manager.objects ∧
      ∀ other, kept.stored other = manager.stored other ∨
        kept.stored other = Option.none ∧ ∃ session, manager.stored other = some session ∧ session.isExpired (clock 0) := by
  by_cases unnamed : getSessionIdFromCookie request = []
  · exact ⟨manager, by simp [getSession, unnamed], rfl, fun other => .inl rfl⟩
  · cases found : manager.stored (getSessionIdFromCookie request) with
    | none => exact ⟨manager, by simp [getSession, unnamed, load, found], rfl, fun other => .inl rfl⟩
    | some session =>
      cases expired : session.isExpired (clock 0) with
      | true =>
        refine ⟨manager.destroySession (getSessionIdFromCookie request), by simp [getSession, unnamed, load, found, expired],
          rfl, ?_⟩
        intro other
        rw [stored_destroySession]
        by_cases same : other = getSessionIdFromCookie request
        · subst same
          exact .inr ⟨if_pos rfl, session, found, expired⟩
        · exact .inl (if_neg same)
      | false =>
        have late : session.isExpired (clock 1) = true := by
          by_contra live
          simp [current, unnamed, found, expired, live] at none
        exact ⟨manager, by simp [getSession, unnamed, load, found, expired, late], rfl, fun other => .inl rfl⟩

theorem getSession_of_none {request : HttpRequest} {clock : Nat → Int} {response : HttpResponse}
    (none : manager.current request clock = none) :
    ∃ changed, manager.getSession request clock generated response = (generated, setSessionCookie generated response, changed) ∧
      changed.stored generated = some { expiryTime := clock 3 + 3600 * 1000000000 } ∧
      ∀ other, other ≠ generated → changed.stored other = manager.stored other ∨
        changed.stored other = Option.none ∧ ∃ session, manager.stored other = some session ∧ session.isExpired (clock 0) := by
  obtain ⟨kept, fresh, _, others⟩ := @getSession_eq_fresh manager generated request clock response none
  obtain ⟨changed, made, new, same⟩ := @fresh_spec kept generated clock response
  refine ⟨changed, fresh.trans made, new, ?_⟩
  intro other different
  rw [same other different]
  exact others other

/-- What each session has in it afterwards: a session is new, or it has what it had. -/
theorem getSession_objects {request : HttpRequest} {clock : Nat → Int} {response : HttpResponse}
    (there : (manager.getSession request clock generated response).2.2.objects id = some session) :
    (manager.current request clock).isNone ∧ id = generated ∧ session.data = ∅ ∨
      ¬ ((manager.current request clock).isNone ∧ id = generated) ∧
        ∃ before, manager.objects id = some before ∧ session.data = before.data := by
  cases found : manager.current request clock with
  | none =>
    obtain ⟨kept, fresh, same, _⟩ := @getSession_eq_fresh manager generated request clock response found
    rw [fresh] at there
    by_cases new : id = generated
    · simp only [getSession.fresh, new, Function.update_self] at there
      cases there
      exact .inl ⟨rfl, new, rfl⟩
    · simp only [getSession.fresh, Function.update_of_ne new, same] at there
      exact .inr ⟨fun both => new both.2, session, there, rfl⟩
  | some loaded =>
    rw [getSession_of_current found] at there
    refine .inr ⟨by simp, ?_⟩
    by_cases own : id = getSessionIdFromCookie request
    · simp only [save, change, own, Function.update_self] at there
      obtain ⟨before, object, rfl⟩ := Option.map_eq_some_iff.mp there
      exact ⟨before, by rw [own]; exact object, rfl⟩
    · simp only [save, change, Function.update_of_ne own] at there
      exact ⟨session, there, rfl⟩

/-- The id of the session that a request gets. -/
def idFor (request : HttpRequest) (clock : Nat → Int) (generated : Bytes) (manager : SessionManager) : Bytes :=
  if (manager.current request clock).isSome then getSessionIdFromCookie request else generated

theorem getSession_spec {request : HttpRequest} {clock : Nat → Int} {response : HttpResponse} :
    ∃ response' changed, manager.getSession request clock generated response =
        (manager.idFor request clock generated, response', changed) ∧
      changed.stored (manager.idFor request clock generated) =
        some (((manager.current request clock).getD { expiryTime := 0 }).refresh (clock 3)) ∧
      ∀ other, other ≠ manager.idFor request clock generated → changed.stored other = manager.stored other ∨
        changed.stored other = none ∧ ∃ session, manager.stored other = some session ∧ session.isExpired (clock 0) := by
  cases found : manager.current request clock with
  | none =>
    obtain ⟨changed, made, new, others⟩ := @getSession_of_none manager generated request clock response found
    have id : manager.idFor request clock generated = generated := by simp [idFor, found]
    rw [id]
    exact ⟨_, changed, made, new, others⟩
  | some session =>
    have id : manager.idFor request clock generated = getSessionIdFromCookie request := by simp [idFor, found]
    rw [id]
    refine ⟨_, _, getSession_of_current found, ?_, ?_⟩
    · obtain ⟨stored, _⟩ := stored_of_current found
      simp [stored_save, change, objects_of_stored stored]
    · intro other different
      left
      rw [stored_save, if_neg different, stored_change, if_neg different]

end SessionManager

/-- The sessions with the time, and the ids that `destroySession` has been called with. -/
structure Lifetimes where
  manager : SessionManager := {}
  now : Int
  destroyed : Bytes → Bool := fun _ => false

namespace Lifetimes

inductive Action where
  | getSession (request : HttpRequest) (generated : Bytes)
  | setValue (id key value : Bytes)
  | remove (id key : Bytes)
  | clear (id : Bytes)
  | destroySession (id : Bytes)
  | advance (elapsed : Nat)

/-- Sessions that are changed have been returned before, and ids are not generated twice. -/
def step (lifetimes : Lifetimes) : Action → Option Lifetimes
  | .getSession request generated =>
    if (lifetimes.manager.objects generated).isNone then
      let (_, _, manager) := lifetimes.manager.getSession request (fun _ => lifetimes.now) generated {}
      some { lifetimes with manager }
    else
      none
  | .setValue id key value =>
    if (lifetimes.manager.objects id).isSome then
      some { lifetimes with manager := lifetimes.manager.setValue id key value }
    else
      none
  | .remove id key =>
    if (lifetimes.manager.objects id).isSome then
      some { lifetimes with manager := lifetimes.manager.removeValue id key }
    else
      none
  | .clear id =>
    if (lifetimes.manager.objects id).isSome then some { lifetimes with manager := lifetimes.manager.clear id } else none
  | .destroySession id =>
    some { lifetimes with
      manager := lifetimes.manager.destroySession id
      destroyed := Function.update lifetimes.destroyed id true }
  | .advance elapsed => some { lifetimes with now := lifetimes.now + elapsed }

/-- No session that has been destroyed can be loaded. -/
def Gone (lifetimes : Lifetimes) : Prop :=
  ∀ id, lifetimes.destroyed id = true → (lifetimes.manager.load id lifetimes.now).1 = none

/-- A session that has been destroyed is not written to before it has expired, and no id is
generated that was destroyed before it was in use. -/
def Final (lifetimes : Lifetimes) : Action → Prop
  | .setValue id _ _ => lifetimes.destroyed id = true →
      ∀ session, lifetimes.manager.objects id = some session → session.isExpired lifetimes.now
  | .getSession request generated => lifetimes.destroyed generated = true →
      (lifetimes.manager.current request fun _ => lifetimes.now).isSome
  | .remove .. | .clear .. | .destroySession .. | .advance .. => True

variable {lifetimes next : Lifetimes}

theorem gone_iff : lifetimes.Gone ↔ ∀ id, lifetimes.destroyed id = true → ∀ session,
    lifetimes.manager.stored id = some session → session.isExpired lifetimes.now = true := by
  simp only [Gone, SessionManager.load_eq_none_iff]

/-- A change that touches neither expiry nor place cannot bring a session back. -/
theorem Gone.change (gone : lifetimes.Gone) {id : Bytes} {update : Session → Session}
    (same : ∀ session, (update session).expiryTime = session.expiryTime) :
    Gone { lifetimes with manager := lifetimes.manager.change id update } := by
  rw [gone_iff] at gone ⊢
  intro other destroyed session found
  dsimp only at destroyed found ⊢
  rw [SessionManager.stored_change] at found
  split at found
  · obtain ⟨before, there, rfl⟩ := Option.map_eq_some_iff.mp found
    have expired := gone other destroyed before there
    rwa [Session.isExpired, same]
  · exact gone other destroyed session found

theorem Gone.getSession (gone : lifetimes.Gone) (request : HttpRequest) (generated : Bytes) :
    Gone { lifetimes with
        manager := (lifetimes.manager.getSession request (fun _ => lifetimes.now) generated {}).2.2 } ↔
      lifetimes.Final (.getSession request generated) := by
  rw [gone_iff] at gone ⊢
  cases found : lifetimes.manager.current request fun _ => lifetimes.now with
  | some session =>
    refine iff_of_true ?_ (fun _ => by rw [found]; rfl)
    obtain ⟨stored, live, _⟩ := SessionManager.stored_of_current found
    intro other destroyed session' there
    rw [SessionManager.getSession_of_current found] at there
    dsimp only at destroyed there ⊢
    have different : other ≠ SessionManager.getSessionIdFromCookie request := by
      rintro rfl
      rw [gone _ destroyed session stored] at live
      cases live
    rw [SessionManager.stored_save, if_neg different, SessionManager.stored_change, if_neg different] at there
    exact gone other destroyed session' there
  | none =>
    obtain ⟨changed, made, new, others⟩ := @SessionManager.getSession_of_none _ generated _ _ {} found
    rw [made]
    have final : lifetimes.Final (.getSession request generated) ↔ lifetimes.destroyed generated = false := by
      simp [Final, found]
    rw [final]
    constructor
    · intro gone'
      by_contra destroyed
      have expired := gone' generated (by simpa using destroyed) _ new
      simp only [Session.isExpired, decide_eq_true_eq] at expired
      omega
    · intro kept other destroyed session there
      dsimp only at destroyed there ⊢
      have different : other ≠ generated := by
        rintro rfl
        rw [kept] at destroyed
        cases destroyed
      rcases others other different with same | ⟨lost, _⟩
      · exact gone other destroyed session (same ▸ there)
      · rw [lost] at there
        cases there

theorem Gone.setValue (gone : lifetimes.Gone) {id : Bytes} (held : (lifetimes.manager.objects id).isSome) (key value : Bytes) :
    Gone { lifetimes with manager := lifetimes.manager.setValue id key value } ↔ lifetimes.Final (.setValue id key value) := by
  obtain ⟨session, object⟩ := Option.isSome_iff_exists.mp held
  rw [gone_iff] at gone ⊢
  constructor
  · intro gone' destroyed session' object'
    have expired := gone' id destroyed (session'.setData key value) (by simp [SessionManager.stored_setValue, object'])
    exact expired
  · intro final other destroyed session' there
    dsimp only at destroyed there ⊢
    rw [SessionManager.stored_setValue] at there
    split at there
    next same =>
      subst same
      rw [object] at there
      cases there
      exact final destroyed session object
    next => exact gone other destroyed session' there

theorem step_gone {action : Action} (gone : lifetimes.Gone) (taken : lifetimes.step action = some next) :
    next.Gone ↔ lifetimes.Final action := by
  cases action with
  | getSession request generated =>
    simp only [step] at taken
    split at taken
    · cases taken
      exact gone.getSession request generated
    · cases taken
  | setValue id key value =>
    simp only [step] at taken
    split at taken
    next held =>
      cases taken
      exact gone.setValue held key value
    next => cases taken
  | remove id key =>
    simp only [step] at taken
    split at taken
    · cases taken
      exact iff_of_true (gone.change fun _ => rfl) trivial
    · cases taken
  | clear id =>
    simp only [step] at taken
    split at taken
    · cases taken
      exact iff_of_true (gone.change fun _ => rfl) trivial
    · cases taken
  | destroySession id =>
    cases taken
    refine iff_of_true ?_ trivial
    rw [gone_iff] at gone ⊢
    intro other destroyed session there
    dsimp only at destroyed there ⊢
    rw [SessionManager.stored_destroySession] at there
    split at there
    next => cases there
    next different =>
      rw [Function.update_of_ne different] at destroyed
      exact gone other destroyed session there
  | advance elapsed =>
    cases taken
    refine iff_of_true ?_ trivial
    rw [gone_iff] at gone ⊢
    intro other destroyed session there
    have expired := gone other destroyed session there
    simp only [Session.isExpired, decide_eq_true_eq] at expired ⊢
    omega

/-- In any run, no session that has been destroyed can ever be loaded again exactly when none is
written to afterwards while it has time left. -/
theorem gone_throughout_iff (now : Int) (actions : List Action) :
    Throughout step (fun _ _ next => next.Gone) { now } actions ↔
      Throughout step (fun lifetimes action _ => lifetimes.Final action) { now } actions := by
  apply throughout_iff Gone
  · intro lifetimes action next gone taken final
    exact (step_gone gone taken).mpr final
  · intro lifetimes action next gone taken
    exact step_gone gone taken
  · intro id destroyed
    cases destroyed

/-- A handler that still holds the session writes to it after it has been destroyed. -/
theorem setValue_revives_session :
    ∃ final, Run step { now := 0 }
        [.getSession {} (ascii "a1"), .destroySession (ascii "a1"), .setValue (ascii "a1") (ascii "k") (ascii "v")] final ∧
      ¬ final.Gone := by
  refine ⟨_, .cons rfl (.cons rfl (.cons rfl (.nil _))), ?_⟩
  intro gone
  have loaded := gone (ascii "a1") (by decide)
  exact absurd (congrArg Option.isSome loaded) (by decide)

end Lifetimes

end HttpFramework.Http
