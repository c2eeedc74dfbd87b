import HttpFramework.Proofs.ConnectionStream
import HttpFramework.Proofs.ParserOutcomes

/-! Connections that receive arbitrary bytes. One step is told by what the parser
made of the buffer. A fault that spoils the connection shows in the call after it,
so a run is free of its effect exactly when no step but the last has the fault. -/

namespace HttpFramework.Http
open Loop

theorem dispatch_report (report : Report) (connection : TcpConnection) (callback : HttpCallback) :
    (dispatch report connection callback).1.context = report.context ∧
      (dispatch report connection callback).1.buf = report.buf ∧
      (dispatch report connection callback).1.verdict = report.verdict := by
  simp only [dispatch]
  split <;> exact ⟨rfl, rfl, rfl⟩

theorem receive_report (connection : TcpConnection) (arrival : Arrival) :
    (receive connection arrival).1.context = connection.context ∧
      (receive connection arrival).1.buf = connection.inputBuffer ++ arrival.bytes ∧
      (receive connection arrival).1.verdict = (connection.context.parseRequest
        (connection.inputBuffer ++ arrival.bytes) arrival.receiveTime).map Parsed.verdict := by
  simp only [receive, onMessage]
  cases connection.context.parseRequest (connection.inputBuffer ++ arrival.bytes) arrival.receiveTime with
  | none => exact ⟨rfl, rfl, rfl⟩
  | some parsed =>
    obtain ⟨verdict, context, unread⟩ := parsed
    cases verdict with
    | asserted | threw => exact ⟨rfl, rfl, rfl⟩
    | returned ok =>
      dsimp only
      split
      · split
        · exact dispatch_report _ _ _
        · exact ⟨rfl, rfl, rfl⟩
      · split
        · exact dispatch_report _ _ _
        · exact ⟨rfl, rfl, rfl⟩

/-- Everything that one call of `onMessage` can do. It hangs or aborts in the parser, it
goes on waiting for bytes, or it dispatches; the callback then returns, throws a
`std::exception`, or throws something else. -/
inductive Outcome (connection : TcpConnection) (arrival : Arrival) (report : Report) (life : Life) : Prop where
  | hangs (complete : connection.context.state = .kGotAll) (ends : life = .hung) (verdict : report.verdict = none)
      (silent : report.dispatched = none) (quiet : report.thrown = none)
  | aborts {parsed} (exits : Exits (HttpContext.parsePass arrival.receiveTime)
        (connection.context, connection.inputBuffer ++ arrival.bytes) parsed)
      (verdict : report.verdict = some parsed.verdict) (asserted : parsed.verdict = .asserted) (ends : life = .aborted)
      (silent : report.dispatched = none) (quiet : report.thrown = none)
  | waits {parsed next} (exits : Exits (HttpContext.parsePass arrival.receiveTime)
        (connection.context, connection.inputBuffer ++ arrival.bytes) parsed)
      (verdict : report.verdict = some parsed.verdict) (going : parsed.verdict ≠ .asserted)
      (incomplete : parsed.context.state ≠ .kGotAll) (lives : life = .live next)
      (context : next.context = parsed.context) (buffer : next.inputBuffer = parsed.unread)
      (silent : report.dispatched = none) (quiet : report.thrown = none)
  | answers {parsed next} (exits : Exits (HttpContext.parsePass arrival.receiveTime)
        (connection.context, connection.inputBuffer ++ arrival.bytes) parsed)
      (verdict : report.verdict = some (.returned true)) (complete : parsed.context.state = .kGotAll)
      (lives : life = .live next) (context : next.context = parsed.context.reset) (quiet : report.thrown = none)
  | raises {parsed next} (exits : Exits (HttpContext.parsePass arrival.receiveTime)
        (connection.context, connection.inputBuffer ++ arrival.bytes) parsed)
      (verdict : report.verdict = some (.returned true)) (complete : parsed.context.state = .kGotAll)
      (lives : life = .live next) (context : next.context = parsed.context)
      (thrown : report.thrown = some .stdException)
  | terminates {parsed} (exits : Exits (HttpContext.parsePass arrival.receiveTime)
        (connection.context, connection.inputBuffer ++ arrival.bytes) parsed)
      (verdict : report.verdict = some (.returned true)) (complete : parsed.context.state = .kGotAll)
      (ends : life = .terminated) (thrown : report.thrown = some .other)

theorem receive_outcome (connection : TcpConnection) (arrival : Arrival) :
    Outcome connection arrival (receive connection arrival).1 (receive connection arrival).2 := by
  cases returns : connection.context.parseRequest (connection.inputBuffer ++ arrival.bytes) arrival.receiveTime with
  | none =>
    have complete := HttpContext.parseRequest_eq_none_iff.mp returns
    rw [receive_hung complete arrival]
    exact .hangs complete rfl rfl rfl rfl
  | some parsed =>
    have exits := HttpContext.parseRequest_eq_some_iff.mp returns
    have verdict : (receive connection arrival).1.verdict = some parsed.verdict := by
      rw [(receive_report connection arrival).2.2, returns]
      rfl
    by_cases complete : parsed.context.state = .kGotAll
    · have accepted := HttpContext.exits_complete exits complete
      obtain ⟨_, outcome⟩ := receive_of_complete returns accepted complete
      rw [accepted] at verdict
      rcases outcome with ⟨next, lives, context, _, quiet⟩ | ⟨next, lives, context, thrown⟩ | ⟨ends, thrown⟩
      · exact .answers exits verdict complete lives context quiet
      · exact .raises exits verdict complete lives context thrown
      · exact .terminates exits verdict complete ends thrown
    · by_cases asserted : parsed.verdict = .asserted
      · obtain ⟨_, context, unread⟩ := parsed
        cases asserted
        have report : receive connection arrival = (⟨connection.context, connection.inputBuffer ++ arrival.bytes,
            some .asserted, none, none⟩, .aborted) := by
          simp only [receive, onMessage, returns]
        exact .aborts exits verdict rfl (by rw [report]) (by rw [report]) (by rw [report])
      · obtain ⟨silent, quiet, next, lives, context, buffer⟩ := receive_of_incomplete returns asserted complete
        exact .waits exits verdict asserted complete lives context buffer silent quiet

theorem serve_nil (life : Life) : serve life [] = [] := by
  cases life <;> rfl

section

variable {Good : Report → Prop} (Clean : TcpConnection → Prop) {Fault : TcpConnection → Arrival → Prop}

/-- The rule for faults that show one call later. -/
theorem serve_all_iff (good : ∀ connection arrival, Clean connection → Good (receive connection arrival).1)
    (keeps : ∀ connection arrival next, Clean connection → ¬ Fault connection arrival →
      (receive connection arrival).2 = .live next → Clean next)
    (spoils : ∀ connection arrival, Clean connection → Fault connection arrival →
      ∃ next, (receive connection arrival).2 = .live next ∧ ∀ arrival, ¬ Good (receive next arrival).1)
    {connection : TcpConnection} (clean : Clean connection) (arrivals : List Arrival) :
    (∀ report ∈ serve (.live connection) arrivals, Good report) ↔
      ∀ early arrival next late reached, arrivals = early ++ arrival :: next :: late →
        after (.live connection) early = .live reached → ¬ Fault reached arrival := by
  induction arrivals generalizing connection with
  | nil => simp [serve]
  | cons arrival arrivals ih =>
    have first := good connection arrival clean
    cases arrivals with
    | nil =>
      constructor
      · intro _ early arrival next late reached split
        have size := congrArg List.length split
        simp only [List.length_cons, List.length_nil, List.length_append] at size
        omega
      · intro _ report member
        rw [serve, List.mem_cons] at member
        rcases member with rfl | later
        · exact first
        · rw [serve_nil] at later
          cases later
    | cons second arrivals =>
      by_cases fault : Fault connection arrival
      · obtain ⟨next, lives, bad⟩ := spoils connection arrival clean fault
        constructor
        · intro all
          refine absurd (all (receive next second).1 ?_) (bad second)
          rw [serve, lives, serve]
          simp
        · intro none
          exact absurd fault (none [] arrival second arrivals connection rfl rfl)
      · have tail : (∀ report ∈ serve (receive connection arrival).2 (second :: arrivals), Good report) ↔
            ∀ early arrival' next late reached, second :: arrivals = early ++ arrival' :: next :: late →
              after (receive connection arrival).2 early = .live reached → ¬ Fault reached arrival' := by
          cases life : (receive connection arrival).2 with
          | live next => exact ih (keeps connection arrival next clean fault life)
          | aborted | hung | terminated =>
            rw [serve_dead (by simp)]
            refine ⟨fun _ early _ _ _ reached _ lives => ?_, fun _ => by simp⟩
            cases early <;> cases lives
        rw [serve, List.forall_mem_cons, tail]
        constructor
        · rintro ⟨_, later⟩ early arrival' next late reached split lives
          cases early with
          | nil =>
            cases split
            cases lives
            exact fault
          | cons one early =>
            obtain ⟨rfl, rest⟩ := List.cons_eq_cons.mp split
            exact later early arrival' next late reached rest lives
        · intro all
          refine ⟨first, fun early arrival' next late reached split lives => ?_⟩
          exact all (arrival :: early) arrival' next late reached (by rw [split]; rfl) lives

end

end HttpFramework.Http
