import HttpFramework.Http.Router
import HttpFramework.Library.Fallible

/-! The first bytes of the responses that `onRequest` sends with the default callback. Nobody but a
handler sets the version of a response. -/

namespace HttpFramework.Http

set_option maxRecDepth 4000

/-- A status line of HTTP/1.0 or HTTP/1.1, up to the space before its message. -/
def StartsStatusLine (bytes : Bytes) : Prop :=
  ∃ version ∈ [ascii "HTTP/1.0", ascii "HTTP/1.1"], ∃ a b c,
    isdigit a = true ∧ isdigit b = true ∧ isdigit c = true ∧ version ++ [chr ' ', a, b, c, chr ' '] <+: bytes

/-- What a version and a status code must be for this. A text for the version that begins with a
status line by itself would do as well. -/
def MakesStatusLine (version : Bytes) (statusCode : HttpStatusCode) : Prop :=
  cString version ∈ [ascii "HTTP/1.0", ascii "HTTP/1.1"] ∧ statusCode ≠ .kUnknown ∨
    StartsStatusLine (cString version ++ ascii " ")

namespace StartsStatusLine

variable {bytes other : Bytes}

theorem version_length {version : Bytes} (known : version ∈ [ascii "HTTP/1.0", ascii "HTTP/1.1"]) : version.length = 8 := by
  simp only [List.mem_cons, List.not_mem_nil, or_false] at known
  rcases known with rfl | rfl <;> rfl

theorem length_le (starts : StartsStatusLine bytes) : 13 ≤ bytes.length := by
  obtain ⟨version, known, a, b, c, _, _, _, front⟩ := starts
  have length := front.length_le
  simpa [version_length known] using length

/-- Only the first thirteen bytes matter. -/
theorem of_take (same : bytes.take 13 = other.take 13) (starts : StartsStatusLine bytes) : StartsStatusLine other := by
  obtain ⟨version, known, a, b, c, digitA, digitB, digitC, front⟩ := starts
  refine ⟨version, known, a, b, c, digitA, digitB, digitC, ?_⟩
  have length : (version ++ [chr ' ', a, b, c, chr ' ']).length = 13 := by simp [version_length known]
  rw [List.prefix_iff_eq_take, length] at front ⊢
  rw [front, same]

/-- The only spaces are the two around the code. -/
theorem not_space (starts : StartsStatusLine bytes) {i : Nat} (inside : i < 12) (other : i ≠ 8) : bytes[i]? ≠ some (chr ' ') := by
  obtain ⟨version, known, a, b, c, digitA, digitB, digitC, rest, rfl⟩ := starts
  have length := version_length known
  have digit (d : UInt8) (isDigit : isdigit d = true) : some d ≠ some (chr ' ') := by
    rintro ⟨⟩
    cases isDigit
  rcases Nat.lt_or_gt_of_ne other with before | after
  · have spaceless : chr ' ' ∉ version := by
      simp only [List.mem_cons, List.not_mem_nil, or_false] at known
      rcases known with rfl | rfl <;> decide
    rw [List.append_assoc, List.getElem?_append_left (by omega)]
    exact fun space => spaceless (List.mem_of_getElem? space)
  · rw [List.append_assoc, List.getElem?_append_right (by omega), List.getElem?_append_left (by simp; omega), length]
    obtain rfl | rfl | rfl : i = 9 ∨ i = 10 ∨ i = 11 := by omega
    · exact digit a digitA
    · exact digit b digitB
    · exact digit c digitC

end StartsStatusLine

namespace HttpResponse

variable {response : HttpResponse}

def statusText (response : HttpResponse) : Bytes :=
  cString response.httpVersion ++ ascii " " ++ decimal response.statusCode.toNat ++ ascii " "

theorem statusText_prefix (response : HttpResponse) : response.statusText.take 31 <+: response.appendToBuffer := by
  simp only [appendToBuffer, statusPrefix, statusText, List.append_assoc]
  exact List.prefix_append _ _

theorem decimal_statusCode (statusCode : HttpStatusCode) : (decimal statusCode.toNat).length ≤ 3 := by
  cases statusCode <;> decide

/-- Every code but one has three digits. -/
theorem digits_statusCode {statusCode : HttpStatusCode} (known : statusCode ≠ .kUnknown) :
    ∃ a b c, isdigit a = true ∧ isdigit b = true ∧ isdigit c = true ∧ decimal statusCode.toNat = [a, b, c] := by
  have three : (decimal statusCode.toNat).length = 3 ∧ ∀ d ∈ decimal statusCode.toNat, isdigit d = true := by
    cases statusCode
    case kUnknown => exact absurd rfl known
    all_goals decide
  obtain ⟨a, b, c, digits⟩ := List.length_eq_three.mp three.1
  rw [digits] at three
  exact ⟨a, b, c, three.2 a (by simp), three.2 b (by simp), three.2 c (by simp), digits⟩

/-- A version that is not long leaves room for the rest of the status line. -/
theorem appendToBuffer_short (short : (cString response.httpVersion).length ≤ 12) :
    ∃ rest, response.appendToBuffer =
      cString response.httpVersion ++ chr ' ' :: (decimal response.statusCode.toNat ++ chr ' ' :: rest) := by
  have whole : response.statusText.take 31 = response.statusText := by
    apply List.take_of_length_le
    have digits := decimal_statusCode response.statusCode
    have space : (ascii " ").length = 1 := rfl
    simp only [statusText, List.length_append, space]
    omega
  obtain ⟨rest, same⟩ := statusText_prefix response
  refine ⟨rest, ?_⟩
  rw [← same, whole, statusText]
  simp only [List.append_assoc]
  rfl

/-- A version that is long has everything that matters. -/
theorem appendToBuffer_long (long : 12 ≤ (cString response.httpVersion).length) :
    (cString response.httpVersion ++ ascii " ").take 13 = response.appendToBuffer.take 13 := by
  have enough : 13 ≤ (cString response.httpVersion ++ ascii " ").length := by
    rw [List.length_append]
    exact Nat.add_le_add_right long 1
  obtain ⟨rest, same⟩ := statusText_prefix response
  have front : 13 ≤ (response.statusText.take 31).length := by
    simp only [statusText, List.length_take, List.length_append] at enough ⊢
    omega
  rw [← same, List.take_append_of_le_length front, List.take_take, Nat.min_eq_left (by decide),
    statusText, List.append_assoc, List.take_append_of_le_length enough]

theorem starts_of_length_eight (eight : (cString response.httpVersion).length = 8) :
    StartsStatusLine response.appendToBuffer ↔
      cString response.httpVersion ∈ [ascii "HTTP/1.0", ascii "HTTP/1.1"] ∧ response.statusCode ≠ .kUnknown := by
  obtain ⟨rest, bytes⟩ := appendToBuffer_short (by omega : (cString response.httpVersion).length ≤ 12)
  constructor
  · intro starts
    constructor
    · obtain ⟨version, known, a, b, c, _, _, _, front⟩ := starts
      rw [bytes] at front
      have same := List.prefix_of_prefix_length_le ((List.prefix_append _ _).trans front) (List.prefix_append _ _)
        (by rw [StartsStatusLine.version_length known, eight])
      rwa [← same.eq_of_length (by rw [StartsStatusLine.version_length known, eight])]
    · -- The only digit would be followed by a space.
      intro unknown
      have zero : decimal HttpStatusCode.kUnknown.toNat = [chr '0'] := by decide
      rw [unknown, zero] at bytes
      apply starts.not_space (show 10 < 12 by decide) (by decide)
      rw [bytes, List.getElem?_append_right (by omega), eight]
      rfl
  · intro ⟨known, code⟩
    obtain ⟨a, b, c, digitA, digitB, digitC, digits⟩ := digits_statusCode code
    refine ⟨_, known, a, b, c, digitA, digitB, digitC, rest, ?_⟩
    rw [bytes, digits]
    simp

theorem starts_appendToBuffer (response : HttpResponse) :
    StartsStatusLine response.appendToBuffer ↔ MakesStatusLine response.httpVersion response.statusCode := by
  have short : (cString response.httpVersion).length < 12 → ¬ StartsStatusLine (cString response.httpVersion ++ ascii " ") := by
    intro less starts
    have length := starts.length_le
    have space : (ascii " ").length = 1 := rfl
    rw [List.length_append, space] at length
    omega
  by_cases eight : (cString response.httpVersion).length = 8
  · rw [starts_of_length_eight eight, MakesStatusLine, or_iff_left (short (by omega))]
  · have other : cString response.httpVersion ∉ [ascii "HTTP/1.0", ascii "HTTP/1.1"] :=
      fun known => eight (StartsStatusLine.version_length known)
    rw [MakesStatusLine, or_iff_right (fun both => other both.1)]
    by_cases long : 12 ≤ (cString response.httpVersion).length
    · have same := appendToBuffer_long long
      exact ⟨StartsStatusLine.of_take same.symm, StartsStatusLine.of_take same⟩
    · -- The space after the version stands where a letter or a digit belongs.
      obtain ⟨rest, bytes⟩ := appendToBuffer_short (by omega : (cString response.httpVersion).length ≤ 12)
      refine iff_of_false (fun starts => ?_) (short (by omega))
      apply starts.not_space (by omega) eight
      rw [bytes, List.getElem?_append_right le_rfl, Nat.sub_self]
      rfl

end HttpResponse

namespace CorsMiddleware

theorem addCorsHeaders_line (config : CorsConfig) (origin : Bytes) (response : HttpResponse) :
    (addCorsHeaders config origin response).httpVersion = response.httpVersion ∧
      (addCorsHeaders config origin response).statusCode = response.statusCode := by
  simp only [addCorsHeaders, HttpResponse.addHeader]
  refine ⟨?_, ?_⟩ <;> repeat' split
  all_goals rfl

theorem after_line (config : CorsConfig) (response : HttpResponse) :
    (after config response).httpVersion = response.httpVersion ∧
      (after config response).statusCode = response.statusCode := by
  rw [after]
  split
  · exact ⟨rfl, rfl⟩
  · split
    · exact addCorsHeaders_line _ _ _
    · exact addCorsHeaders_line _ _ _

theorem handlePreflightRequest_version (config : CorsConfig) (request : HttpRequest) :
    (handlePreflightRequest config request {}).httpVersion = [] := by
  simp only [handlePreflightRequest]
  split
  · exact (addCorsHeaders_line _ _ _).1
  · rfl

end CorsMiddleware

namespace MiddlewareChain

/-- A chain of these middlewares stops exactly the preflight requests. -/
theorem processBefore_cors (configs : List CorsConfig) (request : HttpRequest) :
    (configs ≠ [] ∧ request.method = .kOptions ∧
        ∃ config, processBefore (configs.map corsMiddleware) request =
          .error (.response (CorsMiddleware.handlePreflightRequest config request {}))) ∨
      (configs = [] ∨ request.method ≠ .kOptions) ∧ processBefore (configs.map corsMiddleware) request = .ok request := by
  by_cases options : request.method = .kOptions
  · cases configs with
    | nil => exact .inr ⟨.inl rfl, rfl⟩
    | cons config rest =>
      refine .inl ⟨nofun, options, config, ?_⟩
      simp [processBefore, corsMiddleware, CorsMiddleware.before, options, bind, Except.bind]
  · refine .inr ⟨.inr options, ?_⟩
    induction configs with
    | nil => rfl
    | cons config rest ih =>
      have passed : CorsMiddleware.before config request = .ok request := if_neg options
      simp only [processBefore, List.map_cons, List.foldlM_cons] at ih ⊢
      show CorsMiddleware.before config request >>= _ = _
      rw [passed]
      exact ih

theorem afterAll_cors (configs : List CorsConfig) (response : HttpResponse) :
    ∃ after, afterAll (configs.map corsMiddleware) response = (none, after) ∧
      after.httpVersion = response.httpVersion ∧ after.statusCode = response.statusCode := by
  induction configs generalizing response with
  | nil => exact ⟨response, rfl, rfl, rfl⟩
  | cons config rest ih =>
    obtain ⟨after, processed, version, code⟩ := ih (CorsMiddleware.after config response)
    obtain ⟨version', code'⟩ := CorsMiddleware.after_line config response
    exact ⟨after, processed, version.trans version', code.trans code'⟩

theorem processAfter_cors (configs : List CorsConfig) (response : HttpResponse) :
    ∃ after, processAfter (configs.map corsMiddleware) response = (none, after) ∧
      after.httpVersion = response.httpVersion ∧ after.statusCode = response.statusCode := by
  obtain ⟨after, processed, line⟩ := afterAll_cors configs.reverse response
  refine ⟨after, ?_, line⟩
  rw [processAfter, ← List.map_reverse, processed]

end MiddlewareChain

namespace HttpServer

variable {σ : Type} {server : HttpServer σ} {request : HttpRequest} {state : σ}

/-- What is sent on an open connection. -/
theorem onRequest_of_handled {connection : TcpConnection} {response : HttpResponse} {next : σ}
    (handled : server.handleRequest request { closeConnection := wantsClose request } state = some (.ok (response, next))) :
    server.onRequest connection request state =
      some (.ok (if response.closeConnection then (connection.send response.appendToBuffer).shutdown
        else connection.send response.appendToBuffer, next)) := by
  rw [onRequest, handled]
  rfl

/-- `onRequest` on an open connection sends bytes that begin with a status line. -/
def SendsStatusLine (server : HttpServer σ) (connection : TcpConnection) (request : HttpRequest) (state : σ) : Prop :=
  ∃ after next bytes, server.onRequest { connection with connected := true } request state = some (.ok (after, next)) ∧
    after.sent = connection.sent ++ bytes ∧ StartsStatusLine bytes

theorem sendsStatusLine_of_handled {connection : TcpConnection} {response : HttpResponse} {next : σ}
    (handled : server.handleRequest request { closeConnection := wantsClose request } state = some (.ok (response, next))) :
    server.SendsStatusLine connection request state ↔ MakesStatusLine response.httpVersion response.statusCode := by
  rw [← HttpResponse.starts_appendToBuffer]
  have sent : (if response.closeConnection
      then (({ connection with connected := true } : TcpConnection).send response.appendToBuffer).shutdown
      else ({ connection with connected := true } : TcpConnection).send response.appendToBuffer).sent =
        connection.sent ++ response.appendToBuffer := by
    split <;> rfl
  constructor
  · rintro ⟨after, next', bytes, served, grown, starts⟩
    rw [onRequest_of_handled handled] at served
    cases served
    rwa [List.append_cancel_left (sent.symm.trans grown)]
  · intro starts
    exact ⟨_, next, response.appendToBuffer, onRequest_of_handled handled, sent, starts⟩

theorem not_sendsStatusLine {connection : TcpConnection}
    (unhandled : ∀ response next,
      server.handleRequest request { closeConnection := wantsClose request } state ≠ some (.ok (response, next))) :
    ¬ server.SendsStatusLine connection request state := by
  rintro ⟨after, next, bytes, served, _⟩
  obtain ⟨handled, found, done⟩ := Option.bind_eq_some_iff.mp served
  obtain ⟨sent, _, done⟩ := Fallible.bind_ok (Option.some.inj done)
  obtain ⟨left, same, _⟩ := Fallible.bind_ok done
  exact unhandled left.1 left.2 (by rw [found, same])

/-- What a handler leaves makes a status line. The code of one that throws a `std::exception` is replaced. -/
def LeavesStatusLine : Option Exception × HttpResponse × σ → Prop
  | (none, resp, _) => MakesStatusLine resp.httpVersion resp.statusCode
  | (some (.response res), _) => MakesStatusLine res.httpVersion res.statusCode
  | (some (.std _), resp, _) => MakesStatusLine resp.httpVersion .k500InternalServerError
  | (some .other, _) => False

theorem not_makesStatusLine_empty (statusCode : HttpStatusCode) : ¬ MakesStatusLine [] statusCode := by
  rintro (both | starts)
  · exact absurd both.1 (by decide)
  · exact absurd starts.length_le (by decide)

/-- What is sent after a handler has returned or thrown. -/
theorem sendsStatusLine_of_left {router : Router σ} {configs : List CorsConfig} {connection : TcpConnection} {handler : Handler σ}
    {passed : HttpRequest} {left : Option Exception × HttpResponse × σ}
    (passes : MiddlewareChain.processBefore (configs.map corsMiddleware) request = .ok request)
    (target : router.target? request = some (handler, passed))
    (handles : handler passed { closeConnection := wantsClose request } state = some left) :
    SendsStatusLine ⟨router, configs.map corsMiddleware⟩ connection request state ↔ LeavesStatusLine left := by
  have begins : handleRequest ⟨router, configs.map corsMiddleware⟩ request { closeConnection := wantsClose request } state =
      some (finish ⟨router, configs.map corsMiddleware⟩ left) := by
    simp only [handleRequest, passes, target, handles, Option.map_some]
  obtain ⟨thrown, resp, next⟩ := left
  cases thrown with
  | none =>
    obtain ⟨after, processed, version, code⟩ := MiddlewareChain.processAfter_cors configs resp
    have finished : finish ⟨router, configs.map corsMiddleware⟩ (none, resp, next) = .ok (after, next) := by
      simp only [finish, HttpServer.processAfter, processed]
    rw [finished] at begins
    rw [sendsStatusLine_of_handled begins, version, code]
    rfl
  | some thrown =>
    cases thrown with
    | response res => exact sendsStatusLine_of_handled begins
    | std what => exact sendsStatusLine_of_handled begins
    | other =>
      refine iff_of_false (not_sendsStatusLine fun response next' handled => ?_) id
      cases begins.symm.trans handled

/-- The version of a response is set by handlers alone. So the status line is right exactly when the
request is no preflight, some route takes it, and what its handler leaves is right. -/
theorem sendsStatusLine_iff (router : Router σ) (configs : List CorsConfig) (connection : TcpConnection)
    (request : HttpRequest) (state : σ) :
    SendsStatusLine ⟨router, configs.map corsMiddleware⟩ connection request state ↔
      (configs = [] ∨ request.method ≠ .kOptions) ∧ ∃ handler passed left,
        router.target? request = some (handler, passed) ∧
        handler passed { closeConnection := wantsClose request } state = some left ∧ LeavesStatusLine left := by
  rcases MiddlewareChain.processBefore_cors configs request with ⟨some, options, config, stopped⟩ | ⟨passes, passed⟩
  · refine iff_of_false (fun sends => ?_) (fun meets => meets.1.elim some (fun other => other options))
    have handled : HttpServer.handleRequest ⟨router, configs.map corsMiddleware⟩ request
        { closeConnection := wantsClose request } state =
          .some (.ok (CorsMiddleware.handlePreflightRequest config request {}, state)) := by
      rw [handleRequest, stopped]
      rfl
    have makes := (sendsStatusLine_of_handled handled).mp sends
    rw [CorsMiddleware.handlePreflightRequest_version] at makes
    exact not_makesStatusLine_empty _ makes
  · cases target : router.target? request with
    | none =>
      refine iff_of_false (fun sends => ?_) (fun ⟨_, _, _, _, found, _⟩ => by cases found)
      obtain ⟨after, processed, version, _⟩ := MiddlewareChain.processAfter_cors configs
        (notFound { closeConnection := wantsClose request })
      have handled : handleRequest ⟨router, configs.map corsMiddleware⟩ request { closeConnection := wantsClose request } state =
          some (.ok (after, state)) := by
        simp only [handleRequest, passed, target, HttpServer.processAfter, processed]
      have makes := (sendsStatusLine_of_handled handled).mp sends
      rw [version] at makes
      exact not_makesStatusLine_empty _ makes
    | some found =>
      obtain ⟨handler, given⟩ := found
      cases handles : handler given { closeConnection := wantsClose request } state with
      | none =>
        refine iff_of_false (not_sendsStatusLine fun response next handled => ?_) ?_
        · simp [handleRequest, passed, target, handles] at handled
        · rintro ⟨_, _, _, left, same, left', _⟩
          cases same
          cases handles.symm.trans left'
      | some left =>
        rw [sendsStatusLine_of_left passed target handles]
        constructor
        · intro leaves
          exact ⟨passes, handler, given, left, rfl, handles, leaves⟩
        · rintro ⟨_, _, _, left', same, handles', leaves⟩
          cases same
          cases handles.symm.trans handles'
          exact leaves

/-- Nothing is registered for the path, and the bytes begin with a space. -/
theorem no_status_line_not_found :
    ¬ SendsStatusLine ({} : HttpServer Unit) {} { method := .kGet, version := ascii "HTTP/1.1", path := ascii "/missing" } () := by
  have handled : handleRequest ({} : HttpServer Unit)
      { method := .kGet, version := ascii "HTTP/1.1", path := ascii "/missing" }
      { closeConnection := wantsClose { method := .kGet, version := ascii "HTTP/1.1", path := ascii "/missing" } } () =
        some (.ok (notFound { closeConnection := false }, ())) := rfl
  rw [sendsStatusLine_of_handled handled]
  exact not_makesStatusLine_empty _

end HttpServer

end HttpFramework.Http
