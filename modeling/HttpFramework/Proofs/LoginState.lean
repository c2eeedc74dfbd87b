import HttpFramework.Proofs.HandlerEffects

/-! Whether a login or a logout that fails leaves the login state as it was. `LoginHandler` marks
the session before it looks whether the user is online, and `LogoutHandler` destroys it before it
parses the body. -/

namespace HttpFramework.Http

namespace Session

variable {session : Session} {key other value : Bytes}

@[simp] theorem getValue_setData : (session.setData key value).getValue other = if other = key then value else session.getValue other := by
  simp only [getValue, setData, Std.ExtTreeMap.getElem?_insert, Std.LawfulEqCmp.compare_eq_iff_eq, @eq_comm _ key other]
  split <;> rfl

@[simp] theorem getValue_new {expiryTime : Int} : getValue { expiryTime } key = [] := by
  simp [getValue]

@[simp] theorem getValue_refresh {now : Int} : (session.refresh now).getValue key = session.getValue key := rfl

end Session

/-- The value that the session stored under an id has for a key. -/
def SessionManager.value (manager : SessionManager) (id key : Bytes) : Bytes :=
  ((manager.stored id).map fun session => session.getValue key).getD []

end HttpFramework.Http

namespace HttpFramework.Gomoku
open Http

/-- The library on the texts and values that stand in the requests of one user and in the replies. -/
def jsonOfBob : JsonLibrary where
  parse text :=
    if text = ascii "\x7b\"username\":\"bob\",\"password\":\"pw\"\x7d" then
      .ok (.object [(ascii "username", .string (ascii "bob")), (ascii "password", .string (ascii "pw"))])
    else if text = ascii "\x7b\x7d" then
      .ok (.object [])
    else
      .error (ascii "[json.exception.parse_error.101] parse error")
  dump _ json :=
    match json with
    | .object [(_, .boolean true), (_, .number userId)] =>
      .ok (ascii "\x7b\n    \"success\": true,\n    \"userId\": " ++ decimalInt userId ++ ascii "\n\x7d")
    | .object [(_, .boolean false), (_, .string text)] =>
      .ok (ascii "\x7b\n    \"error\": \"" ++ text ++ ascii "\",\n    \"success\": false\n\x7d")
    | .object [(_, .string _), (_, .string text)] =>
      .ok (ascii "\x7b\n    \"message\": \"" ++ text ++ ascii "\",\n    \"status\": \"error\"\n\x7d")
    | _ => .ok []
  dumps indent json _ := by
    split <;> exact ⟨_, rfl⟩

def servicesForBob : Services where
  json := jsonOfBob
  queryUserId username password := .ok (if username = ascii "bob" ∧ password = ascii "pw" then 7 else -1)
  queried username password id found := by
    cases found
    split <;> decide
  menuPage := .ok []
  gamePage := .ok []

/-- A login without a cookie. -/
def loginOfBob (generated : String) : Arrival where
  request :=
    { method := .kPost, path := ascii "/login", headers := (∅ : Dict).insert (ascii "Content-Type") applicationJson,
      content := ascii "\x7b\"username\":\"bob\",\"password\":\"pw\"\x7d" }
  clock _ := 0
  generated := ascii generated

variable {services : Services} {arrival : Arrival} {exchange : Exchange}

namespace LoginHandler

variable {username : Bytes} {userId : Int} {manager : SessionManager} {id other : Bytes}

def markData (username : Bytes) (userId : Int) (session : Session) : Session :=
  ((session.setData (ascii "userId") (decimalInt userId)).setData (ascii "username") username).setData (ascii "isLoggedIn")
    (ascii "true")

theorem objects_mark : (mark id username userId manager).objects other =
    if other = id then (manager.objects id).map (markData username userId) else manager.objects other := by
  by_cases same : other = id
  · cases object : manager.objects id <;>
      simp [mark, markData, SessionManager.setValue, SessionManager.save, SessionManager.change, same, object]
  · simp [mark, SessionManager.setValue, SessionManager.save, SessionManager.change, same]

theorem stored_mark {session : Session} (there : manager.stored id = some session) : (mark id username userId manager).stored other =
    if other = id then some (markData username userId session) else manager.stored other := by
  have object := SessionManager.objects_of_stored there
  by_cases same : other = id
  · simp [mark, markData, SessionManager.setValue, SessionManager.save, SessionManager.change, SessionManager.stored, same,
      object]
  · simp [mark, SessionManager.stored_setValue, same]

theorem stored_marked : (marked username userId arrival exchange).sessionManager.stored other =
    if other = exchange.givenId arrival then some (markData username userId (exchange.given arrival))
    else (exchange.visited arrival).sessionManager.stored other :=
  stored_mark Exchange.visited_stored

theorem getValue_markData {session : Session} :
    (markData username userId session).getValue (ascii "userId") = decimalInt userId ∧
      (markData username userId session).getValue (ascii "username") = username ∧
      (markData username userId session).getValue (ascii "isLoggedIn") = ascii "true" := by
  have keys : ascii "userId" ≠ ascii "isLoggedIn" ∧ ascii "userId" ≠ ascii "username" ∧
      ascii "username" ≠ ascii "isLoggedIn" := by decide
  simp [markData, keys]

/-- The values by which a session is logged in. -/
def loginKeys : List Bytes := [ascii "isLoggedIn", ascii "userId", ascii "username"]

/-- In every session that is stored afterwards these values are what they were before. -/
def LeavesUnmarked (before after : SessionManager) : Prop :=
  ∀ id session, after.stored id = some session → ∀ key ∈ loginKeys, session.getValue key = before.value id key

theorem LeavesUnmarked.refl (manager : SessionManager) : LeavesUnmarked manager manager := by
  intro id session there key _
  simp [SessionManager.value, there]

theorem LeavesUnmarked.value_eq {before after : SessionManager} {key : Bytes} (unmarked : LeavesUnmarked before after)
    (there : (after.stored id).isSome) (member : key ∈ loginKeys) : after.value id key = before.value id key := by
  obtain ⟨session, stored⟩ := Option.isSome_iff_exists.mp there
  rw [← unmarked id session stored key member, SessionManager.value, stored]
  rfl

theorem leavesUnmarked_marked_iff :
    LeavesUnmarked exchange.server.sessionManager (marked username userId arrival exchange).sessionManager ↔
      exchange.server.sessionManager.value (exchange.givenId arrival) (ascii "isLoggedIn") = ascii "true" ∧
        exchange.server.sessionManager.value (exchange.givenId arrival) (ascii "userId") = decimalInt userId ∧
        exchange.server.sessionManager.value (exchange.givenId arrival) (ascii "username") = username := by
  obtain ⟨number, name, flag⟩ := @getValue_markData username userId (exchange.given arrival)
  constructor
  · intro unmarked
    have same := unmarked (exchange.givenId arrival) _ (by rw [stored_marked, if_pos rfl])
    exact ⟨(same (ascii "isLoggedIn") (by simp [loginKeys])).symm.trans flag,
      (same (ascii "userId") (by simp [loginKeys])).symm.trans number,
      (same (ascii "username") (by simp [loginKeys])).symm.trans name⟩
  · intro ⟨flag', number', name'⟩ id session there key member
    rw [stored_marked] at there
    split at there
    next same =>
      subst same
      cases there
      simp only [loginKeys, List.mem_cons, List.not_mem_nil, or_false] at member
      rcases member with rfl | rfl | rfl
      · rw [flag, flag']
      · rw [number, number']
      · rw [name, name']
    next different =>
      rcases Exchange.visited_stored_other different with same | ⟨lost, _⟩
      · rw [same] at there
        simp [SessionManager.value, there]
      · rw [lost] at there
        cases there

/-- A login that is not answered with 200 leaves all sessions unmarked exactly when it is not one
of a user who is online already. Such a login does so only when its session had just these
values before. -/
theorem rejected_unmarked_iff (services : Services) (arrival : Arrival) (exchange : Exchange) :
    ((answered (handle services arrival exchange)).resp.statusCode ≠ .k200Ok →
      LeavesUnmarked exchange.server.sessionManager (answered (handle services arrival exchange)).server.sessionManager) ↔
    ∀ username userId, recognised services arrival.request = some (username, userId) →
      exchange.server.onlineUsers[userId]? = some true →
      exchange.server.sessionManager.value (exchange.givenId arrival) (ascii "isLoggedIn") = ascii "true" ∧
        exchange.server.sessionManager.value (exchange.givenId arrival) (ascii "userId") = decimalInt userId ∧
        exchange.server.sessionManager.value (exchange.givenId arrival) (ascii "username") = username := by
  cases known : recognised services arrival.request with
  | none =>
    obtain ⟨same, _⟩ := @handle_unrecognised services arrival exchange known
    rw [same]
    exact iff_of_true (fun _ => .refl _) (by simp)
  | some user =>
    obtain ⟨username, userId⟩ := user
    obtain ⟨server, status⟩ := @handle_recognised services arrival exchange _ _ known
    rw [server, status, entered]
    by_cases online : exchange.server.onlineUsers[userId]? = some true
    · rw [if_pos online, if_pos online, leavesUnmarked_marked_iff]
      constructor
      · rintro holds _ _ ⟨⟩ _
        exact holds (by decide)
      · intro holds _
        exact holds username userId rfl online
    · rw [if_neg online]
      refine iff_of_true (fun other => absurd rfl other) ?_
      rintro _ _ ⟨⟩ online'
      exact absurd online' online

/-- The second login is turned down, and its session is logged in. -/
theorem second_login_marks_session :
    let first := answered (handle servicesForBob (loginOfBob "a1") { server := {} })
    let second := answered (handle servicesForBob (loginOfBob "b2") { server := first.server })
    second.resp.statusCode ≠ .k200Ok ∧ ¬ LeavesUnmarked first.server.sessionManager second.server.sessionManager := by
  intro first second
  refine ⟨by decide, ?_⟩
  intro unmarked
  have same := @LeavesUnmarked.value_eq (ascii "b2") _ _ _ unmarked (by decide) List.mem_cons_self
  exact absurd same (by decide)

end LoginHandler

namespace LogoutHandler

theorem leaving_eq_some_iff {userId : Int} : leaving arrival exchange = some userId ↔ acceptable arrival.request ∧
    ∃ session, exchange.server.sessionManager.current arrival.request arrival.clock = some session ∧
      stoi (session.getValue (ascii "userId")) = .ok userId := by
  rw [leaving]
  split
  next accepts =>
    simp only [accepts, true_and]
    cases found : exchange.server.sessionManager.current arrival.request arrival.clock with
    | none =>
      have unnamed : (exchange.given arrival).getValue (ascii "userId") = [] := by
        simp [Exchange.given, found]
      have number : stoi [] = .error .invalidArgument := by decide
      simp [unnamed, number, Except.toOption]
    | some session =>
      have named : (exchange.given arrival).getValue (ascii "userId") = session.getValue (ascii "userId") := by
        rw [Exchange.given, found]
        rfl
      rw [named]
      cases number : stoi (session.getValue (ascii "userId")) <;> simp [Except.toOption, number]
  next refuses => simp [refuses]

/-- The user has left and the session is gone, or the session and the tables are as before. -/
def LeftOrKept (arrival : Arrival) (before : GomokuServer) (after : Exchange) : Prop :=
  let id := SessionManager.getSessionIdFromCookie arrival.request
  after.resp.statusCode = .k200Ok ∧
    (∃ session userId, before.sessionManager.current arrival.request arrival.clock = some session ∧
      stoi (session.getValue (ascii "userId")) = .ok userId ∧ after.server.sessionManager.stored id = none ∧
      userId ∉ after.server.onlineUsers) ∨
  after.resp.statusCode ≠ .k200Ok ∧
    (∀ session, before.sessionManager.current arrival.request arrival.clock = some session →
      ∃ session', after.server.sessionManager.stored id = some session' ∧ session'.data = session.data) ∧
    after.server.onlineUsers = before.onlineUsers ∧ after.server.aiGames = before.aiGames

theorem givenId_of_current {session : Session}
    (found : exchange.server.sessionManager.current arrival.request arrival.clock = some session) :
    exchange.givenId arrival = SessionManager.getSessionIdFromCookie arrival.request := by
  simp [Exchange.givenId, SessionManager.idFor, found]

theorem stored_parted : (parted arrival exchange).sessionManager.stored (exchange.givenId arrival) = none := by
  simp [parted]

theorem stored_parted_other {id : Bytes} (other : id ≠ exchange.givenId arrival) :
    (parted arrival exchange).sessionManager.stored id = (exchange.visited arrival).sessionManager.stored id := by
  simp [parted, SessionManager.clear, SessionManager.stored_change, other]

/-- A logout keeps to this exactly when the body of a request with the session of a user has an
integer `gameType`. -/
theorem left_or_kept_iff (services : Services) (arrival : Arrival) (exchange : Exchange) :
    LeftOrKept arrival exchange.server (answered (handle services arrival exchange)) ↔
      (acceptable arrival.request → ∀ session userId,
        exchange.server.sessionManager.current arrival.request arrival.clock = some session →
        stoi (session.getValue (ascii "userId")) = .ok userId → ∃ game, gameType services arrival.request = .ok game) := by
  by_cases accepts : acceptable arrival.request
  · cases names : leaving arrival exchange with
    | none =>
      obtain ⟨server, status⟩ := @handle_unnamed services arrival exchange accepts names
      refine iff_of_true (.inr ⟨status, ?_, by rw [server]; rfl, by rw [server]; rfl⟩) ?_
      · intro session found
        rw [server, ← givenId_of_current found]
        refine ⟨exchange.given arrival, Exchange.visited_stored, ?_⟩
        rw [Exchange.given, found]
        rfl
      · intro _ session userId found number
        rw [leaving_eq_some_iff.mpr ⟨accepts, session, found, number⟩] at names
        cases names
    | some userId =>
      obtain ⟨_, session, found, number⟩ := leaving_eq_some_iff.mp names
      cases read : gameType services arrival.request with
      | ok game =>
        obtain ⟨server, status⟩ := @handle_left services arrival exchange userId game names read
        refine iff_of_true (.inl ⟨status, session, userId, found, number, ?_, ?_⟩) fun _ _ _ _ _ => ⟨game, rfl⟩
        · rw [server, ← givenId_of_current found]
          exact stored_parted
        · rw [server]
          simp [leave]
      | error what =>
        obtain ⟨server, status⟩ := @handle_failed services arrival exchange userId what names read
        refine iff_of_false ?_ ?_
        · rintro (⟨ok, _⟩ | ⟨_, kept, _⟩)
          · exact status ok
          · obtain ⟨session', there, _⟩ := kept session found
            rw [server, ← givenId_of_current found, stored_parted] at there
            cases there
        · intro readable
          obtain ⟨game, ok⟩ := readable accepts session userId found number
          cases ok
  · obtain ⟨server, status⟩ := @handle_refused services arrival exchange accepts
    refine iff_of_true (.inr ⟨status, ?_, by rw [server], by rw [server]⟩) fun accepts' => absurd accepts' accepts
    intro session found
    rw [server]
    exact ⟨session, (SessionManager.stored_of_current found).1, rfl⟩

/-- A logout whose body names no game, with the cookie of a session. -/
def logoutWithoutGame (id : String) : Arrival where
  request :=
    { method := .kPost, path := ascii "/user/logout"
      headers := ((∅ : Dict).insert (ascii "Content-Type") applicationJson).insert (ascii "Cookie")
        (ascii "sessionId=" ++ ascii id)
      content := ascii "\x7b\x7d" }
  clock _ := 0
  generated := ascii "c3"

/-- The user stays online without a session. -/
theorem logout_without_game_destroys_session :
    let login := answered (LoginHandler.handle servicesForBob (loginOfBob "a1") { server := {} })
    let logout := answered (handle servicesForBob (logoutWithoutGame "a1") { server := login.server })
    ¬ LeftOrKept (logoutWithoutGame "a1") login.server logout := by
  intro login logout clean
  rcases clean with ⟨ok, _⟩ | ⟨_, kept, _⟩
  · exact absurd ok (by decide)
  · cases found : login.server.sessionManager.current (logoutWithoutGame "a1").request (logoutWithoutGame "a1").clock with
    | none => exact absurd (congrArg Option.isSome found) (by decide)
    | some session =>
      obtain ⟨session', there, _⟩ := kept session found
      exact absurd (Option.isSome_of_eq_some there) (by decide)

end LogoutHandler

end HttpFramework.Gomoku
