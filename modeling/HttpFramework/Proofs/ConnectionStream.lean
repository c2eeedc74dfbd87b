import HttpFramework.Http.Server
import HttpFramework.Proofs.ParserChunks
import HttpFramework.Proofs.RequestFormat

/-! A connection that carries a stream of well-formed requests. Whatever the batches,
the requests reach `onRequest` in order; a batch delivers at most one of them, and
what `reset` leaves behind goes into the next. -/

namespace HttpFramework.Http
open Loop

def dispatches (reports : List Report) : List HttpRequest := reports.filterMap Report.dispatched

/-- The request that a context holds after `reset`. -/
def leftover (request : HttpRequest) : HttpRequest := (request.swap {}).1

theorem leftover_untimed (request : HttpRequest) : leftover request.untimed = leftover request := rfl

/-- The requests of a stream as one context parses them one after the other. -/
def deliver (start : HttpRequest) : List WireRequest → List HttpRequest
  | [] => []
  | wire :: wires => wire.request start 0 :: deliver (leftover (wire.request start 0)) wires

/-- The connection's context and buffer are as good as a context just reset, with
all the bytes received since then still unread. -/
structure Tracks (connection : TcpConnection) (start : HttpRequest) (received : Bytes) : Prop where
  fresh : start.method = .kInvalid
  empty : start.headers = ∅
  same : SameFrom (HttpContext.parsePass 0) (⟨.kExpectRequestLine, start⟩, received)
    (connection.context.untimed, connection.inputBuffer)

theorem Tracks.opened : Tracks {} {} [] := ⟨rfl, rfl, fun _ _ => Iff.rfl⟩

theorem Tracks.reset (connection : TcpConnection) (request : HttpRequest)
    (context : connection.context = ⟨.kExpectRequestLine, leftover request⟩) :
    Tracks connection (leftover request) connection.inputBuffer := by
  refine ⟨rfl, rfl, ?_⟩
  rw [context]
  exact fun _ _ => Iff.rfl

theorem parseRequest_of_exits {context : HttpContext} {buf : Bytes} {expected : Parsed}
    (exits : Exits (HttpContext.parsePass 0) (context.untimed, buf) expected) (receiveTime : Timestamp) :
    ∃ parsed, context.parseRequest buf receiveTime = some parsed ∧ parsed.untimed = expected := by
  have incomplete : context.state ≠ .kGotAll := by
    have unfinished := (HttpContext.halts_iff_not_gotAll 0 context.untimed buf).mp (halts_iff.mpr ⟨_, exits⟩)
    exact unfinished
  obtain ⟨parsed, returns⟩ := Option.isSome_iff_exists.mp
    (HttpContext.parseRequest_isSome buf receiveTime incomplete)
  exact ⟨parsed, returns,
    (HttpContext.exits_untimed (HttpContext.parseRequest_eq_some_iff.mp returns)).unique exits⟩

theorem badRequest_keeps (connection : TcpConnection) :
    connection.badRequest.context = connection.context ∧
      connection.badRequest.inputBuffer = connection.inputBuffer := by
  simp only [TcpConnection.badRequest, TcpConnection.shutdown, TcpConnection.send]
  split <;> exact ⟨rfl, rfl⟩

theorem receive_of_incomplete {connection : TcpConnection} {arrival : Arrival} {parsed : Parsed}
    (returns : connection.context.parseRequest (connection.inputBuffer ++ arrival.bytes) arrival.receiveTime =
      some parsed)
    (going : parsed.verdict ≠ .asserted) (incomplete : parsed.context.state ≠ .kGotAll) :
    (receive connection arrival).1.dispatched = none ∧ (receive connection arrival).1.thrown = none ∧
      ∃ next, (receive connection arrival).2 = .live next ∧ next.context = parsed.context ∧
        next.inputBuffer = parsed.unread := by
  obtain ⟨verdict, context, unread⟩ := parsed
  have open' : context.gotAll = false := by simpa [HttpContext.gotAll] using incomplete
  obtain ⟨sameContext, sameBuffer⟩ := badRequest_keeps { connection with context, inputBuffer := unread }
  simp only [receive, onMessage, returns]
  cases verdict with
  | asserted => exact absurd rfl going
  | threw exception => exact ⟨rfl, rfl, _, rfl, sameContext, sameBuffer⟩
  | returned ok =>
    cases ok with
    | true => simp [open']
    | false => simp [open', sameContext, sameBuffer]

private theorem onRequest_keeps {connection answered : TcpConnection} {request : HttpRequest} {callback : HttpCallback}
    (returned : onRequest connection request callback = .ok answered) :
    answered.context = connection.context ∧ answered.inputBuffer = connection.inputBuffer := by
  simp only [onRequest] at returned
  cases outcome : callback request _ with
  | error thrown => rw [outcome] at returned; cases returned
  | ok response =>
    rw [outcome] at returned
    cases returned
    simp only [TcpConnection.send]
    split <;> split <;> exact ⟨rfl, rfl⟩

/-- The three ways in which a dispatch can end: the callback returns and the context
is reset, it throws a `std::exception` and the context stays complete, or it throws
something else. -/
theorem receive_of_complete {connection : TcpConnection} {arrival : Arrival} {parsed : Parsed}
    (returns : connection.context.parseRequest (connection.inputBuffer ++ arrival.bytes) arrival.receiveTime =
      some parsed)
    (accepted : parsed.verdict = .returned true) (complete : parsed.context.state = .kGotAll) :
    (receive connection arrival).1.dispatched = some parsed.context.request ∧
      ((∃ next, (receive connection arrival).2 = .live next ∧ next.context = parsed.context.reset ∧
          next.inputBuffer = parsed.unread ∧ (receive connection arrival).1.thrown = none) ∨
        (∃ next, (receive connection arrival).2 = .live next ∧ next.context = parsed.context ∧
          (receive connection arrival).1.thrown = some .stdException) ∨
        (receive connection arrival).2 = .terminated ∧ (receive connection arrival).1.thrown = some .other) := by
  obtain ⟨verdict, context, unread⟩ := parsed
  cases accepted
  have done : context.gotAll = true := by simpa [HttpContext.gotAll] using complete
  simp only [receive, onMessage, returns, if_true, done, dispatch]
  cases outcome : onRequest { connection with context, inputBuffer := unread } context.request arrival.callback with
  | ok answered =>
    obtain ⟨sameContext, sameBuffer⟩ := onRequest_keeps outcome
    exact ⟨rfl, .inl ⟨_, rfl, by rw [sameContext], sameBuffer, rfl⟩⟩
  | error thrown =>
    cases thrown with
    | stdException =>
      exact ⟨rfl, .inr (.inl ⟨_, rfl, (badRequest_keeps _).1, rfl⟩)⟩
    | other => exact ⟨rfl, .inr (.inr ⟨rfl, rfl⟩)⟩

namespace Tracks

variable {connection : TcpConnection} {start : HttpRequest} {received : Bytes}

theorem receive_waits (tracks : Tracks connection start received) {arrival : Arrival} {expected : Parsed}
    {place : HttpContext × Bytes}
    (exits : Exits (HttpContext.parsePass 0) (⟨.kExpectRequestLine, start⟩, received ++ arrival.bytes) expected)
    (pauses : expected.paused = some place) :
    (receive connection arrival).1.dispatched = none ∧ ∃ next, (receive connection arrival).2 = .live next ∧
      Tracks next start (received ++ arrival.bytes) := by
  obtain ⟨parsed, returns, rfl⟩ :=
    parseRequest_of_exits ((tracks.same arrival.bytes expected).mp exits) arrival.receiveTime
  obtain ⟨accepted, incomplete, rfl⟩ := Parsed.paused_eq_some pauses
  have going : parsed.verdict ≠ .asserted := fun asserted => (by cases asserted.symm.trans accepted)
  obtain ⟨silent, _, next, lives, context, buffer⟩ := receive_of_incomplete returns going incomplete
  refine ⟨silent, next, lives, tracks.fresh, tracks.empty, ?_⟩
  rw [context, buffer]
  exact (HttpContext.parsePass_resumable 0).sameFrom exits pauses

theorem receive_nothing (tracks : Tracks connection start received) {arrival : Arrival}
    (nothing : received ++ arrival.bytes = []) :
    (receive connection arrival).1.dispatched = none ∧ ∃ next, (receive connection arrival).2 = .live next ∧
      Tracks next start [] := by
  have exits : Exits (HttpContext.parsePass 0) (⟨.kExpectRequestLine, start⟩, received ++ arrival.bytes)
      ⟨.returned true, ⟨.kExpectRequestLine, start⟩, []⟩ := by
    rw [nothing]
    exact .leave rfl
  simpa only [nothing] using tracks.receive_waits exits rfl

/-- Less than a whole request makes the parser wait: had it decided, it would have
left some of the request unread. -/
theorem receive_partial (tracks : Tracks connection start received) {wire : WireRequest}
    (wellFormed : wire.WellFormed) {arrival : Arrival} {missing : Bytes}
    (cut : received ++ arrival.bytes ++ missing = wire.render) (proper : missing ≠ []) :
    (receive connection arrival).1.dispatched = none ∧ ∃ next, (receive connection arrival).2 = .live next ∧
      Tracks next start (received ++ arrival.bytes) := by
  have halts := (HttpContext.halts_iff_not_gotAll 0 ⟨.kExpectRequestLine, start⟩ (received ++ arrival.bytes)).mpr (by simp)
  obtain ⟨expected, exits⟩ := halts_iff.mp halts
  cases pauses : expected.paused with
  | some place => exact tracks.receive_waits exits pauses
  | none =>
    have decided := (HttpContext.parsePass_resumable 0).exits_extend exits pauses missing
    have whole := WireRequest.exits_render wellFormed tracks.fresh tracks.empty 0 []
    rw [List.append_nil, ← cut] at whole
    have unread := congrArg Parsed.unread (decided.unique whole)
    exact absurd (List.append_eq_nil_iff.mp unread).2 proper

theorem receive_complete (tracks : Tracks connection start received) {wire : WireRequest}
    (wellFormed : wire.WellFormed) {arrival : Arrival} {rest : Bytes}
    (cut : received ++ arrival.bytes = wire.render ++ rest) :
    ∃ request, (receive connection arrival).1.dispatched = some request ∧ request.untimed = wire.request start 0 ∧
      ((∃ next, (receive connection arrival).2 = .live next ∧ Tracks next (leftover (wire.request start 0)) rest ∧
          (receive connection arrival).1.thrown = none) ∨
        (∃ next, (receive connection arrival).2 = .live next ∧ next.context.state = .kGotAll ∧
          (receive connection arrival).1.thrown = some .stdException) ∨
        (receive connection arrival).2 = .terminated ∧ (receive connection arrival).1.thrown = some .other) := by
  have exits := WireRequest.exits_render wellFormed tracks.fresh tracks.empty 0 rest
  rw [← cut] at exits
  obtain ⟨parsed, returns, expected⟩ :=
    parseRequest_of_exits ((tracks.same arrival.bytes _).mp exits) arrival.receiveTime
  have accepted : parsed.verdict = .returned true := congrArg Parsed.verdict expected
  have complete : parsed.context.state = .kGotAll := congrArg (fun p => p.context.state) expected
  have request : parsed.context.request.untimed = wire.request start 0 := congrArg (fun p => p.context.request) expected
  have unread : parsed.unread = rest := congrArg Parsed.unread expected
  obtain ⟨dispatched, outcome⟩ := receive_of_complete returns accepted complete
  refine ⟨_, dispatched, request, ?_⟩
  rcases outcome with ⟨next, lives, context, buffer, thrown⟩ | ⟨next, lives, context, thrown⟩ | ended
  · have again : next.context = ⟨.kExpectRequestLine, leftover (wire.request start 0)⟩ := by
      rw [context, ← request, leftover_untimed]; rfl
    refine .inl ⟨next, lives, ?_, thrown⟩
    rw [← unread, ← buffer]
    exact Tracks.reset next _ again
  · exact .inr (.inl ⟨next, lives, by rw [context, complete], thrown⟩)
  · exact .inr (.inr ended)

end Tracks

theorem stream_cases {buf future render others : Bytes} (same : buf ++ future = render ++ others) :
    (∃ rest, buf = render ++ rest ∧ rest ++ future = others) ∨
      ∃ missing, missing ≠ [] ∧ buf ++ missing = render ∧ future = missing ++ others := by
  rcases List.append_eq_append_iff.mp same with ⟨missing, cut, later⟩ | ⟨rest, cut, later⟩
  · by_cases whole : missing = []
    · subst missing
      exact .inl ⟨[], by simpa using cut.symm, by simpa using later⟩
    · exact .inr ⟨missing, whole, cut.symm, later⟩
  · exact .inl ⟨rest, cut, later.symm⟩

theorem receive_hung {connection : TcpConnection} (complete : connection.context.state = .kGotAll) (arrival : Arrival) :
    receive connection arrival =
      ({ context := connection.context, buf := connection.inputBuffer ++ arrival.bytes, verdict := none }, .hung) := by
  have endless : connection.context.parseRequest (connection.inputBuffer ++ arrival.bytes) arrival.receiveTime = none :=
    HttpContext.parseRequest_eq_none_iff.mpr complete
  simp [receive, onMessage, endless]

theorem serve_dead {life : Life} (dead : ∀ connection, life ≠ .live connection) (arrivals : List Arrival) :
    serve life arrivals = [] := by
  cases life with
  | live connection => exact absurd rfl (dead connection)
  | aborted | hung | terminated => cases arrivals <;> rfl

theorem dispatches_hung {connection : TcpConnection} (complete : connection.context.state = .kGotAll)
    (arrivals : List Arrival) : dispatches (serve (.live connection) arrivals) = [] := by
  cases arrivals with
  | nil => rfl
  | cons arrival arrivals =>
    rw [serve, receive_hung complete, serve_dead (by simp)]
    rfl

theorem dispatches_cons_none {connection : TcpConnection} {arrival : Arrival}
    (silent : (receive connection arrival).1.dispatched = none) (arrivals : List Arrival) :
    dispatches (serve (.live connection) (arrival :: arrivals)) =
      dispatches (serve (receive connection arrival).2 arrivals) := by
  rw [serve, dispatches, List.filterMap_cons_none silent]
  rfl

theorem dispatches_cons_some {connection : TcpConnection} {arrival : Arrival} {request : HttpRequest}
    (dispatched : (receive connection arrival).1.dispatched = some request) (arrivals : List Arrival) :
    dispatches (serve (.live connection) (arrival :: arrivals)) =
      request :: dispatches (serve (receive connection arrival).2 arrivals) := by
  rw [serve, dispatches, List.filterMap_cons_some dispatched]
  rfl

/-- Whatever the batches and the callbacks, requests are dispatched in order,
each at most once, and as the one context parses them. -/
theorem dispatches_prefix {connection : TcpConnection} {start : HttpRequest} {received : Bytes}
    (tracks : Tracks connection start received) {wires : List WireRequest}
    (wellFormed : ∀ wire ∈ wires, wire.WellFormed) {arrivals : List Arrival}
    (stream : received ++ arrivals.flatMap Arrival.bytes = wires.flatMap WireRequest.render) :
    (dispatches (serve (.live connection) arrivals)).map HttpRequest.untimed <+: deliver start wires := by
  induction arrivals generalizing connection start received wires with
  | nil => exact List.nil_prefix
  | cons arrival arrivals ih =>
    rw [List.flatMap_cons, ← List.append_assoc] at stream
    cases wires with
    | nil =>
      obtain ⟨nothing, later⟩ := List.append_eq_nil_iff.mp stream
      obtain ⟨silent, next, lives, tracks⟩ := tracks.receive_nothing nothing
      rw [dispatches_cons_none silent, lives]
      exact ih tracks wellFormed later
    | cons wire wires =>
      have valid := wellFormed wire (by simp)
      rw [List.flatMap_cons] at stream
      rcases stream_cases stream with ⟨rest, cut, later⟩ | ⟨missing, proper, cut, _⟩
      · obtain ⟨request, dispatched, parsed, outcome⟩ := tracks.receive_complete valid cut
        rw [dispatches_cons_some dispatched, List.map_cons, parsed, deliver, List.cons_prefix_cons]
        refine ⟨rfl, ?_⟩
        rcases outcome with ⟨next, lives, tracks, _⟩ | ⟨next, lives, complete, _⟩ | ⟨ended, _⟩
        · rw [lives]
          exact ih tracks (fun wire member => wellFormed wire (by simp [member])) later
        · rw [lives, dispatches_hung complete]
          exact List.nil_prefix
        · rw [ended, serve_dead (by simp)]
          exact List.nil_prefix
      · obtain ⟨silent, next, lives, tracks⟩ := tracks.receive_partial valid cut proper
        rw [dispatches_cons_none silent, lives]
        exact ih tracks wellFormed (stream.trans List.flatMap_cons.symm)

end HttpFramework.Http
