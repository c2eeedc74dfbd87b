import HttpFramework.Library.Holders
import HttpFramework.Library.Transition
import HttpFramework.Proofs.LoginState
import HttpFramework.Proofs.RequestFormat

/-! Whether `onlineUsers_` has exactly the users with a session. Nothing removes a user when a
session runs out, and a login can take a session from another user or give a user a second one. -/

namespace HttpFramework.Http

theorem stoi_decimalInt {n : Int} (inside : - 2 ^ 31 ≤ n ∧ n < 2 ^ 31) : stoi (decimalInt n) = .ok n := by
  by_cases negative : n < 0
  · obtain ⟨nonempty, digits, value⟩ := isLength_decimal n.natAbs
    have solid : (chr '-' :: decimal n.natAbs).dropWhile isspace = chr '-' :: decimal n.natAbs := rfl
    have all : (decimal n.natAbs).takeWhile isdigit = decimal n.natAbs := List.takeWhile_eq_self_iff.mpr digits
    have back : - (n.natAbs : Int) = n := by omega
    simp only [decimalInt, if_pos negative, stoi, solid, List.head?_cons, true_or, if_true, List.tail_cons, all, value, back]
    rw [if_neg nonempty, if_pos inside]
  · have back : (n.natAbs : Int) = n := by omega
    rw [decimalInt, if_neg negative, stoi_of_isLength (isLength_decimal n.natAbs) (by omega), back]

/-- The session lets a request of this user through. -/
def Session.LoggedIn (session : Session) (now userId : Int) : Prop :=
  session.isExpired now = false ∧ session.getValue (ascii "isLoggedIn") = ascii "true" ∧
    session.getValue (ascii "userId") = decimalInt userId

/-- What is true of the sessions that the handlers make: the number of a user stands in a session
exactly when it is logged in. -/
structure Session.Proper (session : Session) : Prop where
  maxAge : 0 ≤ session.maxAge
  marks : session.getValue (ascii "isLoggedIn") = ascii "true" ∧
      (∃ userId, (- 2 ^ 31 ≤ userId ∧ userId < 2 ^ 31) ∧ session.getValue (ascii "userId") = decimalInt userId) ∨
    session.getValue (ascii "isLoggedIn") ≠ ascii "true" ∧ session.getValue (ascii "userId") = []

namespace SessionManager

def LoggedIn (manager : SessionManager) (now : Int) (id : Bytes) (userId : Int) : Prop :=
  ∃ session, manager.stored id = some session ∧ session.LoggedIn now userId

def Proper (manager : SessionManager) : Prop := ∀ id session, manager.stored id = some session → session.Proper

end SessionManager

namespace Session

variable {session : Session} {now userId other : Int}

theorem LoggedIn.unique (first : session.LoggedIn now userId) (second : session.LoggedIn now other) : userId = other :=
  decimalInt_injective (first.2.2.symm.trans second.2.2)

theorem LoggedIn.earlier {later : Int} (loggedIn : session.LoggedIn later userId) (before : now ≤ later) :
    session.LoggedIn now userId := by
  obtain ⟨live, marks⟩ := loggedIn
  refine ⟨?_, marks⟩
  simp only [isExpired, decide_eq_false_iff_not] at live ⊢
  omega

theorem loggedIn_refresh (proper : session.Proper) (live : session.isExpired now = false) :
    (session.refresh now).LoggedIn now userId ↔ session.LoggedIn now userId := by
  have fresh : (session.refresh now).isExpired now = false := by
    have nonnegative := proper.maxAge
    rw [isExpired, decide_eq_false_iff_not]
    simp only [refresh]
    omega
  simp [LoggedIn, fresh, live]

theorem Proper.refresh (proper : session.Proper) : (session.refresh now).Proper := ⟨proper.maxAge, proper.marks⟩

theorem proper_new {expiryTime : Int} : Session.Proper { expiryTime } := by
  refine ⟨by simp, .inr ⟨?_, getValue_new⟩⟩
  rw [getValue_new]
  decide

/-- A session with a number is logged in as that user. -/
theorem Proper.loggedIn_iff (proper : session.Proper) (live : session.isExpired now = false) :
    stoi (session.getValue (ascii "userId")) = .ok userId ↔ session.LoggedIn now userId := by
  rcases proper.marks with ⟨flag, marked, inside, number⟩ | ⟨flag, blank⟩
  · rw [number, stoi_decimalInt inside]
    constructor
    · rintro ⟨⟩
      exact ⟨live, flag, number⟩
    · intro loggedIn
      rw [decimalInt_injective (number.symm.trans loggedIn.2.2)]
  · have failed : stoi [] = .error .invalidArgument := by decide
    rw [blank, failed]
    exact iff_of_false (by rintro ⟨⟩) fun loggedIn => flag loggedIn.2.1

end Session

end HttpFramework.Http

namespace HttpFramework.Gomoku
open Http Transition Holders

section

variable {request : HttpRequest} {now : Int} {generated id : Bytes} {exchange : Exchange} {userId : Int}

/-- The arrival of a request during which no time passes. -/
abbrev arriving (request : HttpRequest) (now : Int) (generated : Bytes) : Arrival :=
  { request, clock := fun _ => now, generated }

namespace Exchange

theorem given_proper (proper : exchange.server.sessionManager.Proper) :
    (exchange.given (arriving request now generated)).Proper := by
  rw [given]
  cases found : exchange.server.sessionManager.current request fun _ => now with
  | none => exact Session.proper_new.refresh
  | some session => exact (proper _ _ (SessionManager.stored_of_current found).1).refresh

theorem visited_proper (proper : exchange.server.sessionManager.Proper) :
    (exchange.visited (arriving request now generated)).sessionManager.Proper := by
  intro id session there
  by_cases own : id = exchange.givenId (arriving request now generated)
  · subst own
    rw [visited_stored] at there
    cases there
    exact given_proper proper
  · rcases visited_stored_other own with same | ⟨lost, _⟩
    · exact proper id session (same ▸ there)
    · rw [lost] at there
      cases there

/-- The session of the request is logged in as a user. -/
def Currently (request : HttpRequest) (now : Int) (exchange : Exchange) (userId : Int) : Prop :=
  ∃ session, exchange.server.sessionManager.current request (fun _ => now) = some session ∧ session.LoggedIn now userId

/-- A session in the place that the request gets was there before only when it is the session
of the cookie. -/
theorem loggedIn_givenId (free : exchange.server.sessionManager.stored generated = none) :
    exchange.server.sessionManager.LoggedIn now (exchange.givenId (arriving request now generated)) userId ↔
      exchange.Currently request now userId := by
  cases found : exchange.server.sessionManager.current request fun _ => now with
  | none =>
    have place : exchange.givenId (arriving request now generated) = generated := by
      simp [givenId, SessionManager.idFor, found]
    simp [place, SessionManager.LoggedIn, free, Currently, found]
  | some session =>
    have place : exchange.givenId (arriving request now generated) = SessionManager.getSessionIdFromCookie request := by
      simp [givenId, SessionManager.idFor, found]
    obtain ⟨stored, _⟩ := SessionManager.stored_of_current found
    simp [place, SessionManager.LoggedIn, stored, Currently, found]

theorem loggedIn_given (proper : exchange.server.sessionManager.Proper) :
    (exchange.given (arriving request now generated)).LoggedIn now userId ↔ exchange.Currently request now userId := by
  cases found : exchange.server.sessionManager.current request fun _ => now with
  | none =>
    have blank : ascii "true" ≠ [] := by decide
    simp [given, Currently, found, Session.LoggedIn, blank.symm]
  | some session =>
    obtain ⟨stored, live, _⟩ := SessionManager.stored_of_current found
    simp [given, Currently, found, Session.loggedIn_refresh (proper _ _ stored) live]

theorem loggedIn_other (different : id ≠ exchange.givenId (arriving request now generated)) :
    (exchange.visited (arriving request now generated)).sessionManager.LoggedIn now id userId ↔
      exchange.server.sessionManager.LoggedIn now id userId := by
  rcases visited_stored_other different with same | ⟨lost, session, there, expired⟩
  · simp only [SessionManager.LoggedIn, same]
  · simp only [SessionManager.LoggedIn, lost, there]
    refine iff_of_false (by simp) ?_
    rintro ⟨_, ⟨⟩, live, _⟩
    rw [expired] at live
    cases live

/-- To be given a session changes nothing of who is logged in where. -/
theorem loggedIn_visited (proper : exchange.server.sessionManager.Proper)
    (free : exchange.server.sessionManager.stored generated = none) :
    (exchange.visited (arriving request now generated)).sessionManager.LoggedIn now id userId ↔
      exchange.server.sessionManager.LoggedIn now id userId := by
  by_cases own : id = exchange.givenId (arriving request now generated)
  · subst own
    rw [loggedIn_givenId free, ← @loggedIn_given _ _ generated _ _ proper, SessionManager.LoggedIn, visited_stored]
    simp
  · exact loggedIn_other own

end Exchange

namespace LoginHandler

variable {username : Bytes}

theorem loggedIn_marked (proper : exchange.server.sessionManager.Proper) {other : Int} :
    (marked username userId (arriving request now generated) exchange).sessionManager.LoggedIn now id other ↔
      id = exchange.givenId (arriving request now generated) ∧ other = userId ∨
        id ≠ exchange.givenId (arriving request now generated) ∧ exchange.server.sessionManager.LoggedIn now id other := by
  obtain ⟨number, _, flag⟩ := @getValue_markData username userId (exchange.given (arriving request now generated))
  by_cases own : id = exchange.givenId (arriving request now generated)
  · have live : (markData username userId (exchange.given (arriving request now generated))).isExpired now = false := by
      have nonnegative := (@Exchange.given_proper request now generated _ proper).maxAge
      rw [Session.isExpired, decide_eq_false_iff_not]
      simp only [markData, Session.setData, Exchange.given, Session.refresh] at nonnegative ⊢
      omega
    simp only [SessionManager.LoggedIn, stored_marked, own, if_true, Option.some.injEq, exists_eq_left', Session.LoggedIn, live,
      flag, number, true_and, ne_eq, not_true_eq_false, false_and, or_false]
    exact ⟨fun same => (decimalInt_injective same).symm, fun same => by rw [same]⟩
  · have kept := @Exchange.loggedIn_other request now generated id exchange other own
    simp only [own, false_and, false_or, ne_eq, not_false_eq_true, true_and, ← kept]
    simp only [SessionManager.LoggedIn, stored_marked, own, if_false]

theorem marked_proper (proper : exchange.server.sessionManager.Proper) (inside : - 2 ^ 31 ≤ userId ∧ userId < 2 ^ 31) :
    (marked username userId (arriving request now generated) exchange).sessionManager.Proper := by
  intro id session there
  rw [stored_marked] at there
  split at there
  · cases there
    obtain ⟨number, _, flag⟩ := @getValue_markData username userId (exchange.given (arriving request now generated))
    exact ⟨(Exchange.given_proper proper).maxAge, .inl ⟨flag, userId, inside, number⟩⟩
  · exact Exchange.visited_proper proper id session there

theorem recognised_inside {services : Services} (known : recognised services request = some (username, userId)) :
    - 2 ^ 31 ≤ userId ∧ userId < 2 ^ 31 := by
  obtain ⟨_, found, _⟩ := recognised_eq_some_iff.mp known
  obtain ⟨password, queried⟩ := queried_of_credentials found
  exact services.queried username password userId queried

end LoginHandler

namespace LogoutHandler

theorem loggedIn_parted : (parted (arriving request now generated) exchange).sessionManager.LoggedIn now id userId ↔
    id ≠ exchange.givenId (arriving request now generated) ∧ exchange.server.sessionManager.LoggedIn now id userId := by
  by_cases own : id = exchange.givenId (arriving request now generated)
  · subst own
    simp [SessionManager.LoggedIn, stored_parted]
  · rw [← Exchange.loggedIn_other own]
    simp [own, SessionManager.LoggedIn, stored_parted_other own]

theorem parted_proper (proper : exchange.server.sessionManager.Proper) :
    (parted (arriving request now generated) exchange).sessionManager.Proper := by
  intro id session there
  by_cases own : id = exchange.givenId (arriving request now generated)
  · subst own
    rw [stored_parted] at there
    cases there
  · rw [stored_parted_other own] at there
    exact Exchange.visited_proper proper id session there

theorem leaving_iff (proper : exchange.server.sessionManager.Proper) :
    leaving (arriving request now generated) exchange = some userId ↔
      acceptable request ∧ exchange.Currently request now userId := by
  rw [leaving_eq_some_iff]
  refine and_congr_right fun _ => exists_congr fun session => and_congr_right fun found => ?_
  obtain ⟨stored, live, _⟩ := SessionManager.stored_of_current found
  exact (proper _ _ stored).loggedIn_iff live

end LogoutHandler

end

namespace Running

variable {running next : Running}

def online (running : Running) (userId : Int) : Prop := running.server.onlineUsers[userId]? = some true

/-- Who is logged in in which session that is stored and has time left. -/
def holds (running : Running) : Bytes → Int → Prop := running.server.sessionManager.LoggedIn running.now

/-- The users online are those with such a session. -/
def Consistent (running : Running) : Prop := ∀ userId, running.online userId ↔ ∃ id, running.holds id userId

/-- A user without such a session can log in. -/
def Admits (running : Running) : Prop :=
  ∀ services request generated username userId, LoginHandler.recognised services request = some (username, userId) →
    (¬ ∃ id, running.holds id userId) →
    (answered (LoginHandler.handle services (arriving request running.now generated)
      { server := running.server })).resp.statusCode = .k200Ok

/-- The session that the request comes with is logged in as this user. -/
def comesAs (running : Running) (request : HttpRequest) (userId : Int) : Prop :=
  Exchange.Currently request running.now { server := running.server } userId

/-- The user is logged in in another session than the one that the cookie names. -/
def elsewhere (running : Running) (request : HttpRequest) (userId : Int) : Prop :=
  ∃ id, id ≠ SessionManager.getSessionIdFromCookie request ∧ running.holds id userId

/-- A login takes no session from a user who has only this one. A logout is carried through exactly
when the user has only this one. No time passes in which a user loses the last one. -/
def Keeps (running : Running) : Action → Prop
  | .request .login services request _ => ∀ username userId other,
      LoginHandler.recognised services request = some (username, userId) → other ≠ userId →
      running.comesAs request other → running.elsewhere request other
  | .request .logout services request _ => acceptable request → ∀ userId, running.comesAs request userId →
      ((∃ game, LogoutHandler.gameType services request = .ok game) ↔ ¬ running.elsewhere request userId)
  | .request .. => True
  | .advance elapsed => ∀ userId, (∃ id, running.holds id userId) →
      ∃ id, holds { running with now := running.now + elapsed } id userId

structure Invariant (running : Running) : Prop where
  consistent : running.Consistent
  proper : running.server.sessionManager.Proper

theorem Consistent.admits (consistent : running.Consistent) : running.Admits := by
  intro services request generated username userId known nowhere
  obtain ⟨_, status⟩ :=
    @LoginHandler.handle_recognised services (arriving request running.now generated) { server := running.server } _ _ known
  have offline : ¬ running.server.onlineUsers[userId]? = some true := fun online => nowhere ((consistent userId).mp online)
  rw [status, if_neg offline]

theorem consistent_iff : running.Consistent ↔ Mirrors running.online running.holds := Iff.rfl

variable {services : Services} {request : HttpRequest} {generated : Bytes}

/-- The id of the session that the request gets. -/
def place (running : Running) (request : HttpRequest) (generated : Bytes) : Bytes :=
  Exchange.givenId (arriving request running.now generated) { server := running.server }

theorem place_of_comesAs {userId : Int} (comes : running.comesAs request userId) :
    running.place request generated = SessionManager.getSessionIdFromCookie request := by
  obtain ⟨session, found, _⟩ := comes
  exact @LogoutHandler.givenId_of_current (arriving request running.now generated) { server := running.server } session found

theorem holds_place_iff (free : running.server.sessionManager.stored generated = none) {userId : Int} :
    running.holds (running.place request generated) userId ↔ running.comesAs request userId :=
  @Exchange.loggedIn_givenId request running.now generated { server := running.server } userId free

theorem comesAs_unique {userId other : Int} (comes : running.comesAs request userId) (comes' : running.comesAs request other) :
    other = userId := by
  obtain ⟨session, found, loggedIn⟩ := comes
  obtain ⟨session', found', loggedIn'⟩ := comes'
  cases found.symm.trans found'
  exact loggedIn'.unique loggedIn

theorem visits_consistent (invariant : running.Invariant) (free : running.server.sessionManager.stored generated = none)
    {server : GomokuServer}
    (visits : Visits (arriving request running.now generated) { server := running.server } server) :
    Invariant { running with server } := by
  constructor
  · apply Mirrors.congr invariant.consistent
    · intro userId
      simp only [online, visits.onlineUsers]
    · intro id userId
      simp only [holds, visits.sessionManager]
      exact Exchange.loggedIn_visited invariant.proper free
  · dsimp only
    rw [visits.sessionManager]
    exact Exchange.visited_proper invariant.proper

theorem login_online {username : Bytes} {userId other : Int} {arrival : Arrival} {exchange : Exchange} :
    (LoginHandler.entered username userId arrival exchange).onlineUsers[other]? = some true ↔
      other = userId ∨ exchange.server.onlineUsers[other]? = some true := by
  rw [LoginHandler.entered]
  split
  next online =>
    refine ⟨.inr, ?_⟩
    rintro (rfl | there)
    · exact online
    · exact there
  next =>
    simp only [LoginHandler.enter, LoginHandler.marked, Exchange.visited_onlineUsers, Std.ExtTreeMap.getElem?_insert,
      Std.LawfulEqCmp.compare_eq_iff_eq, @eq_comm _ userId other]
    split
    next same => simp [same]
    next different => simp [different]

theorem login_sessions {username : Bytes} {userId : Int} {arrival : Arrival} {exchange : Exchange} :
    (LoginHandler.entered username userId arrival exchange).sessionManager =
      (LoginHandler.marked username userId arrival exchange).sessionManager := by
  rw [LoginHandler.entered]
  split <;> rfl

theorem login_consistent_iff (invariant : running.Invariant) (free : running.server.sessionManager.stored generated = none) :
    let handled := LoginHandler.handle services (arriving request running.now generated) { server := running.server }
    (Consistent { running with server := (answered handled).server } ↔
        running.Keeps (.request .login services request generated)) ∧
      (answered handled).server.sessionManager.Proper := by
  intro handled
  cases known : LoginHandler.recognised services request with
  | none =>
    obtain ⟨same, _⟩ :=
      @LoginHandler.handle_unrecognised services (arriving request running.now generated) { server := running.server } known
    rw [same]
    refine ⟨iff_of_true invariant.consistent ?_, invariant.proper⟩
    intro username userId other known'
    rw [known] at known'
    cases known'
  | some user =>
    obtain ⟨username, userId⟩ := user
    obtain ⟨server, _⟩ :=
      @LoginHandler.handle_recognised services (arriving request running.now generated) { server := running.server } _ _ known
    rw [server]
    refine ⟨consistent_iff.trans ((@Mirrors.assign_iff _ _ _ _ _ _ (running.place request generated) userId invariant.consistent
      (fun _ => login_online) ?_).trans ?_), ?_⟩
    · intro id other
      rw [holds, login_sessions]
      exact LoginHandler.loggedIn_marked invariant.proper
    · constructor
      · intro passes _ _ other known' different comes
        cases known.symm.trans known'
        have found := passes other different ((holds_place_iff free).mpr comes)
        rwa [place_of_comesAs comes] at found
      · intro keeps other different there
        have comes := (holds_place_iff free).mp there
        rw [place_of_comesAs comes]
        exact keeps username userId other known different comes
    · rw [login_sessions]
      exact LoginHandler.marked_proper invariant.proper (LoginHandler.recognised_inside known)

theorem leave_online {userId game other : Int} {server : GomokuServer} :
    (LogoutHandler.leave userId game server).onlineUsers[other]? = some true ↔
      other ≠ userId ∧ server.onlineUsers[other]? = some true := by
  simp only [LogoutHandler.leave, Std.ExtTreeMap.getElem?_erase, Std.LawfulEqCmp.compare_eq_iff_eq, @eq_comm _ userId other]
  split
  next same => simp [same]
  next different => simp [different]

theorem keeps_logout_iff (accepts : acceptable request) {userId : Int} (comes : running.comesAs request userId) :
    running.Keeps (.request .logout services request generated) ↔
      ((∃ game, LogoutHandler.gameType services request = .ok game) ↔ ¬ running.elsewhere request userId) := by
  constructor
  · intro keeps
    exact keeps accepts userId comes
  · intro right _ other comes'
    cases comesAs_unique comes comes'
    exact right

/-- The session of a user is destroyed, whether the user leaves the table or not. -/
theorem parted_consistent_iff (invariant : running.Invariant) (free : running.server.sessionManager.stored generated = none)
    {userId : Int} (comes : running.comesAs request userId) {server : GomokuServer}
    (sessions : server.sessionManager =
      (LogoutHandler.parted (arriving request running.now generated) { server := running.server }).sessionManager)
    (others : ∀ other, other ≠ userId → (server.onlineUsers[other]? = some true ↔ running.online other)) :
    Consistent { running with server } ↔ (server.onlineUsers[userId]? = some true ↔ running.elsewhere request userId) := by
  have holding : ∀ id other, holds { running with server } id other ↔
      id ≠ running.place request generated ∧ running.holds id other := by
    intro id other
    rw [holds, sessions]
    exact LogoutHandler.loggedIn_parted
  have only (other : Int) (there : running.holds (running.place request generated) other) : other = userId :=
    comesAs_unique comes ((holds_place_iff free).mp there)
  refine consistent_iff.trans ((Mirrors.release_iff invariant.consistent only others holding).trans ?_)
  rw [place_of_comesAs comes]
  rfl

theorem logout_consistent_iff (invariant : running.Invariant) (free : running.server.sessionManager.stored generated = none) :
    let handled := LogoutHandler.handle services (arriving request running.now generated) { server := running.server }
    (Consistent { running with server := (answered handled).server } ↔
        running.Keeps (.request .logout services request generated)) ∧
      (answered handled).server.sessionManager.Proper := by
  intro handled
  by_cases accepts : acceptable request
  · cases names : LogoutHandler.leaving (arriving request running.now generated) { server := running.server } with
    | none =>
      obtain ⟨server, _⟩ := @LogoutHandler.handle_unnamed services _ _ accepts names
      rw [server]
      obtain ⟨consistent, proper⟩ := visits_consistent invariant free Plays.visited.toVisits
      refine ⟨iff_of_true consistent ?_, proper⟩
      intro _ userId comes
      rw [(LogoutHandler.leaving_iff invariant.proper).mpr ⟨accepts, comes⟩] at names
      cases names
    | some userId =>
      obtain ⟨_, comes⟩ := (LogoutHandler.leaving_iff invariant.proper).mp names
      rw [keeps_logout_iff accepts comes]
      cases read : LogoutHandler.gameType services request with
      | error what =>
        obtain ⟨server, _⟩ := @LogoutHandler.handle_failed services _ _ _ _ names read
        have online : running.online userId := (invariant.consistent userId).mpr ⟨_, (holds_place_iff free).mpr comes⟩
        rw [server]
        refine ⟨(parted_consistent_iff invariant free comes rfl fun _ _ => Iff.rfl).trans ?_,
          LogoutHandler.parted_proper invariant.proper⟩
        constructor
        · intro same
          exact iff_of_false (by simp) fun nowhere => nowhere (same.mp online)
        · intro same
          refine iff_of_true online ?_
          by_contra nowhere
          simpa using same.mpr nowhere
      | ok game =>
        obtain ⟨server, _⟩ := @LogoutHandler.handle_left services _ _ _ _ names read
        have offline : ¬ (LogoutHandler.leave userId game
            (LogoutHandler.parted (arriving request running.now generated)
              { server := running.server })).onlineUsers[userId]? = some true := by
          rw [leave_online]
          exact fun online => online.1 rfl
        rw [server]
        refine ⟨(parted_consistent_iff invariant free comes ?_ ?_).trans ?_, LogoutHandler.parted_proper invariant.proper⟩
        · rfl
        · intro other different
          rw [leave_online]
          exact and_iff_right different
        · constructor
          · intro same
            exact iff_of_true ⟨game, rfl⟩ fun there => offline (same.mpr there)
          · intro same
            exact iff_of_false offline (same.mp ⟨game, rfl⟩)
  · obtain ⟨server, _⟩ :=
      @LogoutHandler.handle_refused services (arriving request running.now generated) { server := running.server } accepts
    rw [server]
    exact ⟨iff_of_true invariant.consistent fun accepts' => absurd accepts' accepts, invariant.proper⟩

theorem step_consistent_iff {action : Action} (invariant : running.Invariant) (taken : running.step action = some next) :
    (next.Consistent ↔ running.Keeps action) ∧ next.server.sessionManager.Proper := by
  cases action with
  | advance elapsed =>
    cases taken
    refine ⟨consistent_iff.trans (Mirrors.lapse_iff invariant.consistent ?_), invariant.proper⟩
    rintro id userId ⟨session, there, loggedIn⟩
    exact ⟨session, there, loggedIn.earlier (Int.le_add_of_nonneg_right (Int.natCast_nonneg elapsed))⟩
  | request route services request generated =>
    simp only [step] at taken
    split at taken
    next free =>
      have unused : running.server.sessionManager.stored generated = none := Option.isNone_iff_eq_none.mp free
      obtain ⟨handled, done, same⟩ := Option.bind_eq_some_iff.mp taken
      cases same
      have visits (visits : Visits (arriving request running.now generated) { server := running.server }
          (answered handled).server) (keeps : running.Keeps (.request route services request generated)) :
          (Consistent { running with server := (answered handled).server } ↔
            running.Keeps (.request route services request generated)) ∧ (answered handled).server.sessionManager.Proper := by
        obtain ⟨consistent, proper⟩ := visits_consistent invariant unused visits
        exact ⟨iff_of_true consistent keeps, proper⟩
      cases route with
      | login =>
        cases done
        exact login_consistent_iff invariant unused
      | logout =>
        cases done
        exact logout_consistent_iff invariant unused
      | menu =>
        cases done
        exact visits MenuHandler.handle_plays.toVisits trivial
      | aiStart =>
        cases done
        exact visits AiGameStartHandler.handle_plays.toVisits trivial
      | aiMove rand => exact visits (AiGameMoveHandler.handle_plays done).toVisits trivial
      | aiRestart =>
        cases done
        exact visits restartChessGameVsAi_plays.toVisits trivial
    next => cases taken

/-- In any run, the users online are exactly those with a live session, and a user without one
can log in, exactly when every step keeps to the condition. -/
theorem consistent_throughout_iff (now : Int) (actions : List Action) :
    Throughout step (fun _ _ next => next.Consistent ∧ next.Admits) { now } actions ↔
      Throughout step (fun running action _ => running.Keeps action) { now } actions := by
  apply throughout_iff Invariant
  · intro running action next invariant taken keeps
    obtain ⟨consistent, proper⟩ := step_consistent_iff invariant taken
    exact ⟨consistent.mpr keeps, proper⟩
  · intro running action next invariant taken
    rw [← (step_consistent_iff invariant taken).1]
    exact ⟨fun both => both.1, fun consistent => ⟨consistent, consistent.admits⟩⟩
  · refine ⟨?_, ?_⟩
    · intro userId
      simp [online, holds, SessionManager.LoggedIn, SessionManager.stored]
    · intro id session there
      cases there

/-- An hour after the login the session has run out, and the user is still online. -/
theorem expired_session_stays_online :
    ∃ final, Run step { now := 0 }
        [.request .login servicesForBob (loginOfBob "a1").request (ascii "a1"), .advance 3600000000001] final ∧
      ¬ final.Consistent := by
  have known : LoginHandler.recognised servicesForBob (loginOfBob "a1").request = some (ascii "bob", 7) := by decide
  obtain ⟨server, _⟩ := @LoginHandler.handle_recognised servicesForBob
    (arriving (loginOfBob "a1").request 0 (ascii "a1")) { server := {} } _ _ known
  refine ⟨_, .cons rfl (.cons rfl (.nil _)), ?_⟩
  intro consistent
  dsimp only at consistent
  rw [server] at consistent
  obtain ⟨id, session, there, live, _⟩ := (consistent 7).mp (login_online.mpr (.inl rfl))
  dsimp only at there live
  rw [login_sessions, LoginHandler.stored_marked] at there
  split at there
  · cases there
    exact absurd live (by decide)
  next different =>
    rcases Exchange.visited_stored_other different with same | ⟨lost, _⟩
    · rw [same] at there
      cases there
    · rw [lost] at there
      cases there

end Running

end HttpFramework.Gomoku
