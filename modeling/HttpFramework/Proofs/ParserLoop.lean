import HttpFramework.Http.Context
import HttpFramework.Library.Resumable

/-! The parser's loop as a resumable loop. Every pass either waits, leaving the
context and the buffer alone, or takes a decision that bytes received later cannot
change. Only the state `kGotAll` makes the loop spin. -/

namespace HttpFramework.Http
open Loop

namespace Parsed

/-- A call that returned `true` without completing the request waits for more bytes. -/
def paused (parsed : Parsed) : Option (HttpContext × Bytes) :=
  if parsed.verdict = .returned true ∧ parsed.context.state ≠ .kGotAll then some (parsed.context, parsed.unread)
  else none

def extend (parsed : Parsed) (more : Bytes) : Parsed := { parsed with unread := parsed.unread ++ more }

theorem paused_of_gotAll {parsed : Parsed} (complete : parsed.context.state = .kGotAll) : parsed.paused = none := by
  simp [paused, complete]

theorem paused_of_verdict {parsed : Parsed} (ended : parsed.verdict ≠ .returned true) : parsed.paused = none := by
  simp [paused, ended]

theorem paused_eq_some {parsed : Parsed} {place : HttpContext × Bytes} (pauses : parsed.paused = some place) :
    parsed.verdict = .returned true ∧ parsed.context.state ≠ .kGotAll ∧ place = (parsed.context, parsed.unread) := by
  unfold paused at pauses
  split at pauses
  next waits => cases pauses; exact ⟨waits.1, waits.2, rfl⟩
  next => cases pauses

end Parsed

def grow (more : Bytes) : Pass (HttpContext × Bytes) Parsed → Pass (HttpContext × Bytes) Parsed
  | .again (context, rest) => .again (context, rest ++ more)
  | .leave parsed => .leave (parsed.extend more)

/-- A pass that has decided: later bytes do not matter to it. -/
structure Decides (receiveTime : Timestamp) (context : HttpContext) (buf : Bytes) : Prop where
  stable : ∀ more, HttpContext.parsePass receiveTime (context, buf ++ more) =
    grow more (HttpContext.parsePass receiveTime (context, buf))
  settled : ∀ parsed, HttpContext.parsePass receiveTime (context, buf) = .leave parsed → parsed.paused = none

theorem findCRLF_append {buf : Bytes} {crlf : Nat} (found : findCRLF buf = some crlf) (more : Bytes) :
    findCRLF (buf ++ more) = some crlf ∧ (buf ++ more).take crlf = buf.take crlf ∧
      (buf ++ more).drop (crlf + 2) = buf.drop (crlf + 2) ++ more := by
  have inside := Search.firstPair_bound found
  exact ⟨Search.firstPair_append found more, List.take_append_of_le_length (by omega),
    List.drop_append_of_le_length (by omega)⟩

namespace HttpContext

variable {receiveTime : Timestamp} {context : HttpContext} {buf : Bytes}

private theorem endHeaders_append (context : HttpContext) (buf rest more : Bytes) :
    endHeaders context (buf ++ more) (rest ++ more) = grow more (endHeaders context buf rest) := by
  simp only [endHeaders]
  split
  · split
    · split
      · rfl
      · split <;> rfl
    · rfl
  · rfl

private theorem endHeaders_settled {rest : Bytes} {parsed : Parsed}
    (left : endHeaders context buf rest = .leave parsed) : parsed.paused = none := by
  simp only [endHeaders] at left
  split at left
  · split at left
    · split at left
      · cases left; exact Parsed.paused_of_verdict (by simp)
      · split at left
        · cases left
        · cases left; exact Parsed.paused_of_gotAll rfl
    · cases left; exact Parsed.paused_of_verdict (by simp)
  · cases left; exact Parsed.paused_of_gotAll rfl

theorem decides_of_line {crlf : Nat} (found : findCRLF buf = some crlf)
    (expects : context.state = .kExpectRequestLine ∨ context.state = .kExpectHeaders) :
    Decides receiveTime context buf := by
  rcases expects with requestLine | headers
  · constructor
    · intro more
      obtain ⟨found', line, rest⟩ := findCRLF_append found more
      simp only [parsePass, requestLine, found, found', line, rest]
      split <;> rfl
    · intro parsed left
      simp only [parsePass, requestLine, found] at left
      split at left
      · cases left; exact Parsed.paused_of_verdict (by simp)
      · cases left
      · cases left; exact Parsed.paused_of_verdict (by simp)
  · constructor
    · intro more
      obtain ⟨found', line, rest⟩ := findCRLF_append found more
      simp only [parsePass, headers, found, found', line, rest]
      split
      · rfl
      · split
        · exact endHeaders_append context buf _ more
        · rfl
    · intro parsed left
      simp only [parsePass, headers, found] at left
      split at left
      · cases left
      · split at left
        · exact endHeaders_settled left
        · cases left; exact Parsed.paused_of_verdict (by simp)

theorem parsePass_cases (receiveTime : Timestamp) (context : HttpContext) (buf : Bytes) :
    parsePass receiveTime (context, buf) = .leave ⟨.returned true, context, buf⟩ ∧ context.state ≠ .kGotAll ∨
      Decides receiveTime context buf := by
  cases state : context.state with
  | kExpectRequestLine =>
    cases found : findCRLF buf with
    | none => left; simp [parsePass, state, found]
    | some crlf => right; exact decides_of_line found (.inl state)
  | kExpectHeaders =>
    cases found : findCRLF buf with
    | none => left; simp [parsePass, state, found]
    | some crlf => right; exact decides_of_line found (.inr state)
  | kExpectBody =>
    by_cases short : buf.length < context.request.contentLength
    · left; simp [parsePass, state, short]
    · right
      have enough : context.request.contentLength ≤ buf.length := by omega
      constructor
      · intro more
        have enough' : ¬ (buf ++ more).length < context.request.contentLength := by
          rw [List.length_append]; omega
        simp only [parsePass, state, short, enough', if_false, grow, Parsed.extend,
          List.take_append_of_le_length enough, List.drop_append_of_le_length enough]
      · intro parsed left
        simp only [parsePass, state, short, if_false, Pass.leave.injEq] at left
        exact Parsed.paused_of_gotAll (by rw [← left])
  | kGotAll =>
    right
    constructor
    · intro more; simp [parsePass, state, grow]
    · intro parsed left; simp [parsePass, state] at left

theorem parsePass_resumable (receiveTime : Timestamp) :
    Resumable (parsePass receiveTime) Parsed.paused Parsed.extend := by
  constructor
  · intro context next buf rest more repeated
    rcases parsePass_cases receiveTime context buf with ⟨waits, _⟩ | decides
    · rw [waits] at repeated; cases repeated
    · rw [decides.stable, repeated]; rfl
  · intro context buf parsed more left decided
    rcases parsePass_cases receiveTime context buf with ⟨waits, incomplete⟩ | decides
    · rw [waits] at left
      cases left
      simp [Parsed.paused, incomplete] at decided
    · rw [decides.stable, left]; rfl
  · intro context buf parsed place left pauses
    rcases parsePass_cases receiveTime context buf with ⟨waits, _⟩ | decides
    · rw [waits] at left
      cases left
      exact (Parsed.paused_eq_some pauses).2.2
    · rw [decides.settled parsed left] at pauses; cases pauses

/-- A pass that goes round again has retrieved a line, unless everything was
already there before the call. -/
theorem parsePass_again {next : HttpContext × Bytes} (incomplete : context.state ≠ .kGotAll)
    (repeated : parsePass receiveTime (context, buf) = .again next) :
    next.1.state ≠ .kGotAll ∧ next.2.length < buf.length := by
  have shorter (crlf : Nat) (found : findCRLF buf = some crlf) : (buf.drop (crlf + 2)).length < buf.length := by
    have inside := Search.firstPair_bound found
    rw [List.length_drop]
    omega
  cases state : context.state with
  | kExpectRequestLine =>
    simp only [parsePass, state] at repeated
    split at repeated
    next crlf found =>
      split at repeated
      · cases repeated
      · cases repeated; exact ⟨by simp, shorter crlf found⟩
      · cases repeated
    next => cases repeated
  | kExpectHeaders =>
    simp only [parsePass, state] at repeated
    split at repeated
    next crlf found =>
      split at repeated
      · cases repeated; exact ⟨by simp, shorter crlf found⟩
      · split at repeated
        · simp only [endHeaders] at repeated
          split at repeated
          · split at repeated
            · split at repeated
              · cases repeated
              · split at repeated
                · cases repeated; exact ⟨by simp, shorter crlf found⟩
                · cases repeated
            · cases repeated
          · cases repeated
        · cases repeated
    next => cases repeated
  | kExpectBody =>
    simp only [parsePass, state] at repeated
    split at repeated <;> cases repeated
  | kGotAll => exact absurd state incomplete

theorem parseRequest_isSome (buf : Bytes) (receiveTime : Timestamp) (incomplete : context.state ≠ .kGotAll) :
    (parseRequest context buf receiveTime).isSome := by
  apply run_isSome_of_measure (fun place => place.1.state ≠ .kGotAll) (fun place => place.2.length)
  · intro place next unfinished repeated
    exact parsePass_again unfinished repeated
  · exact incomplete
  · exact Nat.lt_succ_self _

/-- A call of `parseRequest` returns exactly when the context was not left in `kGotAll`. -/
theorem halts_iff_not_gotAll (receiveTime : Timestamp) (context : HttpContext) (buf : Bytes) :
    Halts (parsePass receiveTime) (context, buf) ↔ context.state ≠ .kGotAll := by
  constructor
  · intro halts complete
    apply not_halts_of_fixed _ halts
    simp [parsePass, complete]
  · intro incomplete
    exact ⟨_, parseRequest_isSome buf receiveTime incomplete⟩

/-- The fuel of `parseRequest` is never short: its results are those of the loop. -/
theorem parseRequest_eq_some_iff {parsed : Parsed} :
    parseRequest context buf receiveTime = some parsed ↔ Exits (parsePass receiveTime) (context, buf) parsed := by
  constructor
  · exact exits_of_run
  · intro exits
    have incomplete := (halts_iff_not_gotAll receiveTime context buf).mp (halts_iff.mpr ⟨parsed, exits⟩)
    obtain ⟨other, ran⟩ := Option.isSome_iff_exists.mp (parseRequest_isSome buf receiveTime incomplete)
    rw [ran, (exits_of_run ran).unique exits]

theorem parseRequest_eq_none_iff : parseRequest context buf receiveTime = none ↔ context.state = .kGotAll := by
  constructor
  · intro endless
    by_contra incomplete
    have returns := parseRequest_isSome buf receiveTime incomplete
    rw [endless] at returns
    cases returns
  · intro complete
    apply run_eq_none_of_fixed
    simp [parsePass, complete]

end HttpContext

end HttpFramework.Http
