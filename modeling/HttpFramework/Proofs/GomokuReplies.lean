import HttpFramework.Proofs.GomokuEndings
import HttpFramework.Proofs.OnlineUsers

/-! Whether the responses of `GomokuServer` can be told apart on a connection that stays open, and
whether the connection is closed for a client that asks for it. Handlers set the flag for this
themselves, and an exception leaves a body without a length. -/

namespace HttpFramework.Gomoku
open Http

/-- `onRequest` has sent a response on an open connection and leaves the connection like this. -/
def Sends (moment : Moment) (connection : TcpConnection) (request : HttpRequest) (server : GomokuServer)
    (response : HttpResponse) (after : TcpConnection) : Prop :=
  ∃ next, (httpServer moment).handleRequest request { closeConnection := wantsClose request } server =
      some (.ok (response, next)) ∧
    (httpServer moment).onRequest { connection with connected := true } request server = some (.ok (after, next))

/-- A client finds the end of the response. -/
def FindsEnd (moment : Moment) (connection : TcpConnection) (request : HttpRequest) (server : GomokuServer) : Prop :=
  ∀ response after, Sends moment connection request server response after → response.closeConnection = false →
    announced response = some (decimal response.body.length)

def Ending.Delimited (close : Bool) : Ending → Prop
  | .closed | .kept => True
  | .packaged body => toSizeT (toInt body.length) = body.length
  | .threw => close = true

/-- The response says that the connection is closed, and it is. -/
def ClosesAfter (moment : Moment) (connection : TcpConnection) (request : HttpRequest) (server : GomokuServer) : Prop :=
  ∃ response after, Sends moment connection request server response after ∧ response.closeConnection = true ∧
    after.connected = false

section

variable {moment : Moment} {connection : TcpConnection} {request : HttpRequest} {server : GomokuServer}

theorem sends_of_ending (other : endingOf moment request server ≠ .kept) :
    ∃ response after, Sends moment connection request server response after := by
  obtain ⟨response, next, handled⟩ := @handled_of_ending moment request server (wantsClose request) other
  exact ⟨response, _, next, handled, HttpServer.onRequest_of_handled handled⟩

theorem Sends.sent {response : HttpResponse} {after : TcpConnection}
    (sends : Sends moment connection request server response after) :
    (endingOf moment request server).Sent (wantsClose request) response ∧
      after.connected = !response.closeConnection := by
  obtain ⟨next, handled, served⟩ := sends
  rw [HttpServer.onRequest_of_handled handled] at served
  refine ⟨sent_of_handled handled, ?_⟩
  cases served
  cases response.closeConnection <;> rfl

/-- A response on a connection that stays open has its length exactly when the handler has not let an
exception out, and the length of a body from `packageResp` is in the range of `int`. -/
theorem findsEnd_iff (moment : Moment) (connection : TcpConnection) (request : HttpRequest) (server : GomokuServer) :
    FindsEnd moment connection request server ↔ (endingOf moment request server).Delimited (wantsClose request) := by
  constructor
  · intro finds
    cases ending : endingOf moment request server with
    | closed => trivial
    | kept => trivial
    | packaged body =>
      obtain ⟨response, after, sends⟩ := @sends_of_ending moment connection request server (by rw [ending]; nofun)
      have sent := sends.sent.1
      rw [ending] at sent
      obtain ⟨flag, same, length⟩ := sent
      have found := finds response after sends flag
      rw [length, same] at found
      exact decimal_injective (Option.some.inj found)
    | threw =>
      obtain ⟨response, after, sends⟩ := @sends_of_ending moment connection request server (by rw [ending]; nofun)
      have sent := sends.sent.1
      rw [ending] at sent
      by_contra open'
      have found := finds response after sends (sent.1.trans (Bool.eq_false_iff.mpr open'))
      rw [sent.2] at found
      cases found
  · intro delimited response after sends flag
    have sent := sends.sent.1
    cases ending : endingOf moment request server with
    | closed =>
      rw [ending] at sent
      cases flag.symm.trans sent
    | kept =>
      rw [ending] at sent
      exact sent.2
    | packaged body =>
      rw [ending] at sent delimited
      rw [sent.2.2, sent.2.1, delimited]
    | threw =>
      rw [ending] at sent delimited
      cases flag.symm.trans (sent.1.trans delimited)

/-- A client that asks for it has its connection closed exactly when the handler closes it anyway or
lets an exception out. -/
theorem closesAfter_iff (moment : Moment) (connection : TcpConnection) (request : HttpRequest) (server : GomokuServer)
    (wants : wantsClose request = true) :
    ClosesAfter moment connection request server ↔
      endingOf moment request server = .closed ∨ endingOf moment request server = .threw := by
  constructor
  · rintro ⟨response, after, sends, flag, _⟩
    have sent := sends.sent.1
    cases ending : endingOf moment request server with
    | closed => exact .inl rfl
    | threw => exact .inr rfl
    | kept =>
      rw [ending] at sent
      cases flag.symm.trans sent.1
    | packaged body =>
      rw [ending] at sent
      cases flag.symm.trans sent.1
  · intro either
    obtain ⟨response, after, sends⟩ := @sends_of_ending moment connection request server
      (by rcases either with same | same <;> rw [same] <;> nofun)
    obtain ⟨sent, shut⟩ := sends.sent
    have flag : response.closeConnection = true := by
      rcases either with same | same
      · rw [same] at sent
        exact sent
      · rw [same] at sent
        exact sent.1.trans wants
    exact ⟨response, after, sends, flag, by rw [shut, flag]; rfl⟩

end

def siteForBob : Site where
  toServices := servicesForBob
  entryPage := .ok (ascii "<html></html>")
  backendPage := .ok (ascii "<html></html>")
  isUserExist _ := .ok false
  executeUpdate _ := .ok ()
  insertedId _ := .ok (some 7)
  getUserCount := .ok 1

def momentForBob : Moment := { site := siteForBob, clock := fun _ => 5, generated := ascii "a1", rand := 0 }

/-- A body that is no JSON, sent to be registered. -/
def badRegistration : HttpRequest :=
  { method := .kPost, version := ascii "HTTP/1.1", path := ascii "/register", content := ascii "x" }

theorem exception_without_length : ¬ FindsEnd momentForBob {} badRegistration {} := by
  intro finds
  have ending : endingOf momentForBob badRegistration {} = .threw := by decide
  obtain ⟨response, after, sends⟩ := @sends_of_ending momentForBob {} badRegistration {} (by rw [ending]; nofun)
  have sent := sends.sent.1
  rw [ending] at sent
  have open' : wantsClose badRegistration = false := by decide
  have found := finds response after sends (sent.1.trans open')
  rw [sent.2] at found
  cases found

def lastEntry : HttpRequest :=
  { method := .kGet, version := ascii "HTTP/1.1", path := ascii "/entry",
    headers := (∅ : Dict).insert (ascii "Connection") (ascii "close") }

theorem entry_kept_open : wantsClose lastEntry = true ∧ ¬ ClosesAfter momentForBob {} lastEntry {} := by
  refine ⟨by decide, ?_⟩
  rintro ⟨response, after, sends, flag, _⟩
  have ending : endingOf momentForBob lastEntry {} = .kept := by decide
  have sent := sends.sent.1
  rw [ending] at sent
  cases flag.symm.trans sent.1

/-- A login without a body is turned down, and the connection is closed as asked for. -/
def lastLogin : HttpRequest :=
  { method := .kPost, version := ascii "HTTP/1.1", path := ascii "/login",
    headers := (∅ : Dict).insert (ascii "Connection") (ascii "close") }

theorem closesAfter_refused_login : ClosesAfter momentForBob {} lastLogin {} :=
  (closesAfter_iff momentForBob {} lastLogin {} (by decide)).mpr (.inl (by decide))

end HttpFramework.Gomoku
