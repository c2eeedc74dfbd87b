import HttpFramework.Proofs.ConnectionRuns

/-! What a failed call leaves behind for the calls after it. A callback that throws
leaves a complete request, on which the parser spins. A request line that fails
behind its method leaves the method stored, and the assertion fails next time. A
request line that fails stays in the buffer for good, whereas behind a refused
header the parser goes on. -/

namespace HttpFramework.Http
open Loop Search

/-- Every call of `parseRequest` terminates, whatever the callbacks do, exactly when
no callback throws a `std::exception` except in the last call. -/
theorem calls_terminate_iff (arrivals : List Arrival) :
    (∀ report ∈ serve opened arrivals, ∀ receiveTime,
        Halts (HttpContext.parsePass receiveTime) (report.context, report.buf)) ↔
      ∀ early arrival next late connection, arrivals = early ++ arrival :: next :: late →
        after opened early = .live connection → ¬ (receive connection arrival).1.thrown = some .stdException := by
  have halting (connection : TcpConnection) (arrival : Arrival) :
      (∀ receiveTime, Halts (HttpContext.parsePass receiveTime)
          ((receive connection arrival).1.context, (receive connection arrival).1.buf)) ↔
        connection.context.state ≠ .kGotAll := by
    rw [(receive_report connection arrival).1]
    exact ⟨fun halts => (HttpContext.halts_iff_not_gotAll 0 _ _).mp (halts 0),
      fun incomplete receiveTime => (HttpContext.halts_iff_not_gotAll receiveTime _ _).mpr incomplete⟩
  apply serve_all_iff (fun connection => connection.context.state ≠ .kGotAll)
  · intro connection arrival clean
    exact (halting connection arrival).mpr clean
  · intro connection arrival next clean returned lives
    cases receive_outcome connection arrival with
    | hangs complete => exact absurd complete clean
    | aborts _ _ _ ends => cases ends.symm.trans lives
    | waits _ _ _ incomplete lives' context =>
      cases lives'.symm.trans lives
      exact context ▸ incomplete
    | answers _ _ _ lives' context =>
      cases lives'.symm.trans lives
      simp [context, HttpContext.reset]
    | raises _ _ _ _ _ thrown => exact absurd thrown returned
    | terminates _ _ _ ends => cases ends.symm.trans lives
  · intro connection arrival clean thrown
    cases receive_outcome connection arrival with
    | hangs complete => exact absurd complete clean
    | aborts _ _ _ _ _ quiet => cases quiet.symm.trans thrown
    | waits _ _ _ _ _ _ _ _ quiet => cases quiet.symm.trans thrown
    | answers _ _ _ _ _ quiet => cases quiet.symm.trans thrown
    | @raises _ next _ _ complete lives context =>
      refine ⟨next, lives, fun arrival halts => ?_⟩
      apply (halting next arrival).mp halts
      rw [context, complete]
    | terminates _ _ _ _ other => cases other.symm.trans thrown
  · simp

def raising (bytes : Bytes) : Arrival := ⟨bytes, 0, fun _ _ => .error .stdException⟩

/-- The byte behind a request whose callback threw is handed to a parser that spins. -/
theorem second_call_spins :
    ¬ ∀ report ∈ serve opened [raising (ascii "GET / HTTP/1.1" ++ CRLF ++ CRLF), raising (ascii "G")],
      ∀ receiveTime, Halts (HttpContext.parsePass receiveTime) (report.context, report.buf) := by
  intro halts
  have complete : ((serve opened [raising (ascii "GET / HTTP/1.1" ++ CRLF ++ CRLF), raising (ascii "G")]).map
      fun report => report.context.state) = [.kExpectRequestLine, .kGotAll] := by decide
  obtain ⟨report, member, state⟩ : ∃ report ∈ serve opened
      [raising (ascii "GET / HTTP/1.1" ++ CRLF ++ CRLF), raising (ascii "G")], report.context.state = .kGotAll := by
    have listed : ParseState.kGotAll ∈ [ParseState.kExpectRequestLine, .kGotAll] := by simp
    rw [← complete] at listed
    obtain ⟨report, member, state⟩ := List.mem_map.mp listed
    exact ⟨report, member, state⟩
  exact (HttpContext.halts_iff_not_gotAll 0 _ _).mp (halts report member 0) state

/-- The first line in the buffer names a method and is not a valid request line. -/
def LineFault (connection : TcpConnection) (arrival : Arrival) : Prop :=
  connection.context.state = .kExpectRequestLine ∧ ∃ line rest, Unbroken CR LF line ∧
    connection.inputBuffer ++ arrival.bytes = line ++ CRLF ++ rest ∧ NamesMethod line ∧ ¬ ValidLine line

def MethodFree (context : HttpContext) : Prop := context.state = .kExpectRequestLine → context.request.method = .kInvalid

theorem MethodFree.not_asserted {receiveTime : Timestamp} {context : HttpContext} {buf : Bytes} {parsed : Parsed}
    (clean : MethodFree context) (exits : Exits (HttpContext.parsePass receiveTime) (context, buf) parsed) :
    parsed.verdict ≠ .asserted := by
  by_cases line : context.state = .kExpectRequestLine
  · cases HttpContext.exits_of_requestLine exits line with
    | waits same => simp [same]
    | asserts _ _ processed => exact absurd (clean line) (HttpContext.stored_of_asserted processed).1
    | refuses _ _ _ same => simp [same]
    | accepts _ _ _ past => exact past.verdict
  · exact (HttpContext.exits_past exits line).verdict

theorem MethodFree.exits {connection : TcpConnection} {arrival : Arrival} {parsed : Parsed}
    (clean : MethodFree connection.context) (sound : ¬ LineFault connection arrival)
    (exits : Exits (HttpContext.parsePass arrival.receiveTime)
      (connection.context, connection.inputBuffer ++ arrival.bytes) parsed) : MethodFree parsed.context := by
  intro stays
  by_cases line : connection.context.state = .kExpectRequestLine
  · have fresh := clean line
    cases HttpContext.exits_of_requestLine exits line with
    | waits same | asserts _ _ _ same =>
      rw [same]
      exact fresh
    | @refuses text rest _ unbroken cut processed same =>
      have unnamed : ¬ NamesMethod text := by
        intro named
        apply sound
        refine ⟨line, text, rest, unbroken, cut, named, fun valid => ?_⟩
        obtain ⟨_, _, _, _, accepted⟩ := HttpContext.processRequestLine_of_validLine fresh valid
        cases accepted.symm.trans processed
      rw [same, HttpContext.kept_of_refused fresh processed unnamed]
      exact fresh
    | accepts _ _ _ past => exact absurd stays past.state
  · exact absurd stays (HttpContext.exits_past exits line).state

theorem LineFault.spoils {connection : TcpConnection} {arrival : Arrival} (fault : LineFault connection arrival)
    (clean : MethodFree connection.context) :
    ∃ next, (receive connection arrival).2 = .live next ∧
      ∀ later, (receive next later).1.verdict = some .asserted := by
  obtain ⟨line, text, rest, unbroken, cut, named, broken⟩ := fault
  obtain ⟨stored, refused, kept⟩ := HttpContext.processRequestLine_of_namesMethod (clean line) named broken
  have pass := @HttpContext.parsePass_requestLine arrival.receiveTime _ line _ unbroken rest
  rw [refused, ← cut] at pass
  have returns := HttpContext.parseRequest_eq_some_iff.mpr (.leave pass)
  obtain ⟨_, _, next, lives, context, buffer⟩ := receive_of_incomplete returns (by simp) (by simp [line])
  refine ⟨next, lives, fun later => ?_⟩
  have expects : next.context.state = .kExpectRequestLine := by rw [context]; exact line
  have again := @HttpContext.parsePass_requestLine later.receiveTime _ expects _ unbroken (rest ++ later.bytes)
  rw [context, HttpContext.processRequestLine_of_stored kept named.space, ← List.append_assoc, ← cut] at again
  have ends := HttpContext.parseRequest_eq_some_iff.mpr (.leave again)
  rw [(receive_report next later).2.2, context, buffer, ends]
  rfl

/-- The assertion of `setMethod` never fails exactly when no call but the last has
found a request line that goes wrong behind its method. -/
theorem never_asserted_iff (arrivals : List Arrival) :
    (∀ report ∈ serve opened arrivals, report.verdict ≠ some .asserted) ↔
      ∀ early arrival next late connection, arrivals = early ++ arrival :: next :: late →
        after opened early = .live connection → ¬ LineFault connection arrival := by
  apply serve_all_iff (fun connection => MethodFree connection.context)
  · intro connection arrival clean
    cases receive_outcome connection arrival with
    | hangs _ _ verdict => simp [verdict]
    | aborts exits _ asserted => exact absurd asserted (clean.not_asserted exits)
    | waits _ verdict going => simpa [verdict] using going
    | answers _ verdict | raises _ verdict | terminates _ verdict => simp [verdict]
  · intro connection arrival next clean sound lives
    cases receive_outcome connection arrival with
    | hangs _ ends => cases ends.symm.trans lives
    | aborts _ _ _ ends => cases ends.symm.trans lives
    | waits exits _ _ _ lives' context =>
      cases lives'.symm.trans lives
      exact context ▸ clean.exits sound exits
    | answers _ _ _ lives' context =>
      cases lives'.symm.trans lives
      exact context ▸ fun _ => rfl
    | raises _ _ complete lives' context =>
      cases lives'.symm.trans lives
      intro line
      rw [context, complete] at line
      cases line
    | terminates _ _ _ ends => cases ends.symm.trans lives
  · intro connection arrival clean fault
    obtain ⟨next, lives, asserts⟩ := fault.spoils clean
    exact ⟨next, lives, fun later never => never (asserts later)⟩
  · exact fun _ => rfl

def plain (bytes : Bytes) : Arrival := ⟨bytes, 0, fun _ response => .ok response⟩

/-- A line without a version, and one more byte. -/
theorem second_call_asserts :
    ¬ ∀ report ∈ serve opened [plain (ascii "GET /" ++ CRLF), plain (ascii "x")], report.verdict ≠ some .asserted := by
  decide

/-- The headers in the buffer are refused; a valid request line may stand in front
of them. -/
def HeaderFault (context : HttpContext) (buf : Bytes) : Prop :=
  context.state = .kExpectHeaders ∧ BadHeaders context.request.method context.request.headers buf ∨
    context.state = .kExpectRequestLine ∧ ∃ wire : WireRequest, ∃ rest, wire.method.Supported ∧
      chr ' ' ∉ wire.target ∧ Unbroken CR LF wire.requestLine ∧ buf = wire.requestLine ++ CRLF ++ rest ∧
      BadHeaders wire.method context.request.headers rest

theorem lineRequest_kept (wire : WireRequest) (start : HttpRequest) :
    (wire.lineRequest start).method = wire.method ∧ (wire.lineRequest start).headers = start.headers := by
  simp only [WireRequest.lineRequest, HttpContext.storeTarget_eq]
  exact ⟨rfl, rfl⟩

theorem BadHeaders.exits {request : HttpRequest} {buf : Bytes} (bad : BadHeaders request.method request.headers buf)
    (receiveTime : Timestamp) :
    ∃ stored rest, Exits (HttpContext.parsePass receiveTime) (⟨.kExpectHeaders, request⟩, buf)
      ⟨.returned false, ⟨.kExpectHeaders, stored⟩, rest⟩ := by
  obtain ⟨headers, line, rest, valid, unbroken, colon, rfl, fault⟩ := bad
  let stored : HttpRequest := { request with headers := WireRequest.headerMap request.headers headers }
  refine ⟨stored, rest, ?_⟩
  apply HttpContext.exits_headers valid
  apply Exits.leave
  by_cases blank : line = []
  · subst blank
    obtain ⟨body, missing⟩ := fault.resolve_left (fun nonempty => nonempty rfl)
    have refused := @HttpContext.endHeaders_refused stored body missing (CRLF ++ rest) rest
    exact (HttpContext.parsePass_blank receiveTime stored rest).trans refused
  · exact HttpContext.parsePass_badHeader unbroken colon blank _ rest

/-- A fault of the headers makes the call fail and leaves the parser expecting headers. -/
theorem HeaderFault.receive {connection : TcpConnection} {arrival : Arrival}
    (fault : HeaderFault connection.context (connection.inputBuffer ++ arrival.bytes))
    (clean : MethodFree connection.context) :
    (receive connection arrival).1.verdict = some (.returned false) ∧
      ∃ next, (Http.receive connection arrival).2 = .live next ∧ next.context.state = .kExpectHeaders := by
  obtain ⟨stored, rest, exits⟩ : ∃ stored rest, Exits (HttpContext.parsePass arrival.receiveTime)
      (connection.context, connection.inputBuffer ++ arrival.bytes)
      ⟨.returned false, ⟨.kExpectHeaders, stored⟩, rest⟩ := by
    rcases fault with ⟨state, bad⟩ | ⟨state, wire, rest, supported, targetSpace, unbroken, cut, bad⟩
    · have shape : connection.context = ⟨.kExpectHeaders, connection.context.request⟩ := by rw [← state]
      rw [shape]
      exact bad.exits arrival.receiveTime
    · have pass := @HttpContext.parsePass_requestLine arrival.receiveTime _ state _ unbroken rest
      rw [HttpContext.processRequestLine_render supported targetSpace (clean state), ← cut] at pass
      rw [← (lineRequest_kept wire connection.context.request).1,
        ← (lineRequest_kept wire connection.context.request).2] at bad
      obtain ⟨stored, rest, exits⟩ := @BadHeaders.exits
        ((wire.lineRequest connection.context.request).setReceiveTime arrival.receiveTime) _ bad arrival.receiveTime
      exact ⟨stored, rest, .again pass exits⟩
  have returns := HttpContext.parseRequest_eq_some_iff.mpr exits
  obtain ⟨_, _, next, lives, context, _⟩ := receive_of_incomplete returns (by simp) (by simp)
  refine ⟨?_, next, lives, by rw [context]⟩
  rw [(receive_report connection arrival).2.2, returns]
  rfl

/-- A line that is no request line stands at the front of the buffer, where a request
line is expected. -/
def Stuck (connection : TcpConnection) : Prop :=
  connection.context.state = .kExpectRequestLine ∧ ∃ line rest, Unbroken CR LF line ∧
    connection.inputBuffer = line ++ CRLF ++ rest ∧ ¬ ValidLine line

theorem not_validLine_of_refused {request stored : HttpRequest} {line : Bytes}
    (refused : HttpContext.processRequestLine request line = some (false, stored)) : ¬ ValidLine line := by
  intro valid
  by_cases fresh : request.method = .kInvalid
  · obtain ⟨_, _, _, _, accepted⟩ := HttpContext.processRequestLine_of_validLine fresh valid
    cases accepted.symm.trans refused
  · cases (HttpContext.processRequestLine_of_stored fresh valid.namesMethod.space).symm.trans refused

theorem stuck_of_failed {connection : TcpConnection} {arrival : Arrival}
    (sound : ¬ HeaderFault connection.context (connection.inputBuffer ++ arrival.bytes))
    (failed : (receive connection arrival).1.verdict = some (.returned false)) {next : TcpConnection}
    (lives : (receive connection arrival).2 = .live next) : Stuck next := by
  cases receive_outcome connection arrival with
  | hangs _ ends => cases ends.symm.trans lives
  | aborts _ _ _ ends => cases ends.symm.trans lives
  | answers _ verdict | raises _ verdict | terminates _ verdict => cases verdict.symm.trans failed
  | @waits parsed _ exits verdict _ _ lives' context buffer =>
    cases lives'.symm.trans lives
    have refused : parsed.verdict = .returned false := Option.some.inj (verdict.symm.trans failed)
    cases state : connection.context.state with
    | kExpectRequestLine =>
      cases HttpContext.exits_of_requestLine exits state with
      | waits same | asserts _ _ _ same =>
        rw [same] at refused
        cases refused
      | refuses unbroken cut processed same =>
        rw [same] at context buffer
        exact ⟨by rw [context]; exact state, _, _, unbroken, buffer.trans cut, not_validLine_of_refused processed⟩
      | accepts unbroken cut processed _ bad =>
        obtain ⟨fresh, valid⟩ := HttpContext.validLine_of_accepted processed
        obtain ⟨wire, supported, targetSpace, rfl, stores⟩ := HttpContext.processRequestLine_of_validLine fresh valid
        cases stores.symm.trans processed
        have fault := bad refused
        rw [(lineRequest_kept wire _).1, (lineRequest_kept wire _).2] at fault
        exact absurd (.inr ⟨state, wire, _, supported, targetSpace, unbroken, cut, fault⟩) sound
    | kExpectHeaders => exact absurd (.inl ⟨state, (HttpContext.exits_of_headers exits state).2 refused⟩) sound
    | kExpectBody => cases (HttpContext.exits_of_body exits state).2.symm.trans refused
    | kGotAll => exact absurd state ((HttpContext.halts_iff_not_gotAll _ _ _).mp (halts_iff.mpr ⟨parsed, exits⟩))

/-- Later bytes do not free a connection from the line, and nothing is dispatched. -/
theorem Stuck.receive {connection : TcpConnection} (stuck : Stuck connection) (arrival : Arrival) :
    (receive connection arrival).1.dispatched = none ∧
      ∀ next, (Http.receive connection arrival).2 = .live next → Stuck next := by
  obtain ⟨state, line, rest, unbroken, cut, broken⟩ := stuck
  have buffer : connection.inputBuffer ++ arrival.bytes = line ++ CRLF ++ (rest ++ arrival.bytes) := by
    rw [cut, List.append_assoc]
  have pass := @HttpContext.parsePass_requestLine arrival.receiveTime _ state _ unbroken (rest ++ arrival.bytes)
  rw [← buffer] at pass
  -- The pass leaves the loop with the line still in the buffer, so nothing is complete.
  have left : ∃ verdict request, Exits (HttpContext.parsePass arrival.receiveTime)
      (connection.context, connection.inputBuffer ++ arrival.bytes)
      ⟨verdict, { connection.context with request }, connection.inputBuffer ++ arrival.bytes⟩ := by
    cases processed : HttpContext.processRequestLine connection.context.request line with
    | none =>
      rw [processed] at pass
      exact ⟨_, _, .leave pass⟩
    | some outcome =>
      obtain ⟨accepted, stored⟩ := outcome
      cases accepted with
      | true => exact absurd (HttpContext.validLine_of_accepted processed).2 broken
      | false =>
        rw [processed] at pass
        exact ⟨_, _, .leave pass⟩
  obtain ⟨verdict, request, left⟩ := left
  cases receive_outcome connection arrival with
  | hangs _ ends _ silent => exact ⟨silent, fun next lives => (by cases ends.symm.trans lives)⟩
  | aborts _ _ _ ends silent => exact ⟨silent, fun next lives => (by cases ends.symm.trans lives)⟩
  | waits exits _ _ _ lives context unread silent =>
    refine ⟨silent, fun next lives' => ?_⟩
    cases lives.symm.trans lives'
    cases exits.unique left
    exact ⟨by rw [context]; exact state, line, _, unbroken, unread.trans buffer, broken⟩
  | answers exits _ complete | raises exits _ complete | terminates exits _ complete =>
    cases exits.unique left
    cases state.symm.trans complete

theorem Stuck.serve {connection : TcpConnection} (stuck : Stuck connection) (arrivals : List Arrival) :
    ∀ report ∈ serve (.live connection) arrivals, report.dispatched = none := by
  induction arrivals generalizing connection with
  | nil => simp [serve_nil]
  | cons arrival arrivals ih =>
    obtain ⟨silent, stays⟩ := stuck.receive arrival
    rw [Http.serve, List.forall_mem_cons]
    refine ⟨silent, ?_⟩
    cases life : (Http.receive connection arrival).2 with
    | live next => exact ih (stays next life)
    | aborted | hung | terminated => simp [serve_dead]

private theorem silent_after_failure_from {life : Life} {arrivals : List Arrival}
    (sound : ∀ early arrival late connection, arrivals = early ++ arrival :: late → after life early = .live connection →
      ¬ HeaderFault connection.context (connection.inputBuffer ++ arrival.bytes)) :
    (serve life arrivals).Pairwise fun earlier later =>
      earlier.verdict = some (.returned false) → later.dispatched = none := by
  induction arrivals generalizing life with
  | nil => simp [serve_nil]
  | cons arrival arrivals ih =>
    cases life with
    | live connection =>
      rw [serve, List.pairwise_cons]
      constructor
      · intro report member failed
        cases life : (receive connection arrival).2 with
        | live next =>
          rw [life] at member
          exact (stuck_of_failed (sound [] arrival arrivals connection rfl rfl) failed life).serve arrivals report member
        | aborted | hung | terminated =>
          rw [life, serve_dead (by simp)] at member
          cases member
      · apply ih
        intro early arrival' late reached split lives
        exact sound (arrival :: early) arrival' late reached (by rw [split]; rfl) lives
    | aborted | hung | terminated => simp [serve_dead]

/-- In a run without a fault of the headers no request is dispatched once a call of
`parseRequest` has returned `false`. -/
theorem silent_after_failure {arrivals : List Arrival}
    (sound : ∀ early arrival late connection, arrivals = early ++ arrival :: late →
      after opened early = .live connection →
      ¬ HeaderFault connection.context (connection.inputBuffer ++ arrival.bytes)) :
    (serve opened arrivals).Pairwise fun earlier later =>
      earlier.verdict = some (.returned false) → later.dispatched = none :=
  silent_after_failure_from sound

theorem HeaderFault.space {context : HttpContext} {buf : Bytes} (fault : HeaderFault context buf)
    (line : context.state = .kExpectRequestLine) : chr ' ' ∈ buf := by
  rcases fault with ⟨headers, _⟩ | ⟨_, wire, rest, _, _, _, rfl, _⟩
  · cases line.symm.trans headers
  · simp [WireRequest.requestLine]

theorem silent_after_word :
    (serve opened [plain (ascii "BAD" ++ CRLF), plain (ascii "x")]).Pairwise fun earlier later =>
      earlier.verdict = some (.returned false) → later.dispatched = none := by
  apply silent_after_failure
  have first : after opened [plain (ascii "BAD" ++ CRLF)] =
      .live ⟨{}, ascii "BAD" ++ CRLF, false, ascii "HTTP/1.1 400 Bad Request" ++ CRLF ++ CRLF⟩ := by decide
  intro early arrival late connection split lives fault
  rcases early with _ | ⟨one, _ | ⟨two, early⟩⟩
  · cases split
    cases lives
    exact absurd (fault.space rfl) (by decide)
  · cases split
    cases first.symm.trans lives
    exact absurd (fault.space rfl) (by decide)
  · have size := congrArg List.length split
    simp only [List.length_cons, List.length_nil, List.length_append] at size
    omega

/-- The blank line behind a refused header completes the request. -/
theorem dispatched_after_failure :
    ¬ (serve opened [plain (ascii "GET / HTTP/1.1" ++ CRLF ++ ascii "bad" ++ CRLF), plain CRLF]).Pairwise
      fun earlier later => earlier.verdict = some (.returned false) → later.dispatched = none := by
  decide

end HttpFramework.Http
