import HttpFramework.Proofs.ParserLoop

/-! Parsing does not depend on how the bytes of a request were cut into pieces.
The time of receipt is the one member a cut can change: it is taken from the call
that sees the end of the request line. -/

namespace HttpFramework.Http
open Loop

def HttpRequest.untimed (request : HttpRequest) : HttpRequest := { request with receiveTime := 0 }

def HttpContext.untimed (context : HttpContext) : HttpContext :=
  { context with request := context.request.untimed }

def Parsed.untimed (parsed : Parsed) : Parsed := { parsed with context := parsed.context.untimed }

theorem Parsed.paused_untimed (parsed : Parsed) :
    parsed.untimed.paused = parsed.paused.map (Prod.map HttpContext.untimed id) := by
  cases pauses : parsed.paused with
  | none =>
    unfold Parsed.paused at pauses ⊢
    split at pauses
    · cases pauses
    next ended => exact if_neg ended
  | some place =>
    obtain ⟨accepted, incomplete, rfl⟩ := Parsed.paused_eq_some pauses
    exact if_pos ⟨accepted, incomplete⟩

theorem HttpRequest.setMethod_untimed (request : HttpRequest) (m : Bytes) :
    request.untimed.setMethod m = (request.setMethod m).map (Prod.map id HttpRequest.untimed) := by
  unfold HttpRequest.setMethod
  by_cases fresh : request.method = .kInvalid
  · have fresh' : request.untimed.method = .kInvalid := fresh
    rw [if_pos fresh, if_pos fresh']
    rfl
  · have used : ¬ request.untimed.method = .kInvalid := fresh
    rw [if_neg fresh, if_neg used]
    rfl

namespace HttpContext

theorem storeTarget_untimed (request : HttpRequest) (target : Bytes) :
    storeTarget request.untimed target = (storeTarget request target).untimed := by
  simp only [storeTarget]
  split <;> rfl

theorem processRequestLine_untimed (request : HttpRequest) (line : Bytes) :
    processRequestLine request.untimed line =
      (processRequestLine request line).map (Prod.map id HttpRequest.untimed) := by
  simp only [processRequestLine, HttpRequest.setMethod_untimed]
  split
  · cases request.setMethod (line.take (line.idxOf (chr ' '))) with
    | none => rfl
    | some result =>
      obtain ⟨known, request⟩ := result
      cases known with
      | false => rfl
      | true =>
        simp only [Option.map_some, Prod.map_apply, id_eq, storeTarget_untimed]
        split
        · split <;> rfl
        · rfl
  · rfl

theorem endHeaders_untimed (context : HttpContext) (buf rest : Bytes) :
    endHeaders context.untimed buf rest =
      (endHeaders context buf rest).map (Prod.map HttpContext.untimed id) Parsed.untimed := by
  have method : context.untimed.request.method = context.request.method := rfl
  have header : context.untimed.request.getHeader = context.request.getHeader := rfl
  simp only [endHeaders, method, header]
  split
  · split
    · split
      · rfl
      · rename_i length converted
        have stored : (context.untimed.request.setContentLength (toSizeT length)).contentLength =
            (context.request.setContentLength (toSizeT length)).contentLength := rfl
        rw [stored]
        split <;> rfl
    · rfl
  · rfl

theorem parsePass_untimed (receiveTime : Timestamp) (place : HttpContext × Bytes) :
    parsePass 0 (Prod.map HttpContext.untimed id place) =
      (parsePass receiveTime place).map (Prod.map HttpContext.untimed id) Parsed.untimed := by
  obtain ⟨context, buf⟩ := place
  have state : context.untimed.state = context.state := rfl
  have request : context.untimed.request = context.request.untimed := rfl
  have length : context.request.untimed.contentLength = context.request.contentLength := rfl
  simp only [parsePass, Prod.map_apply, id_eq, state, request, length, processRequestLine_untimed, endHeaders_untimed]
  split
  · split
    · rename_i crlf found
      cases processRequestLine context.request (buf.take crlf) with
      | none => rfl
      | some result =>
        obtain ⟨ok, request⟩ := result
        cases ok <;> rfl
    · rfl
  · split
    · split
      · rfl
      · split <;> rfl
    · rfl
  · split <;> rfl
  · rfl

theorem exits_untimed {receiveTime : Timestamp} {context : HttpContext} {buf : Bytes} {parsed : Parsed}
    (exits : Exits (parsePass receiveTime) (context, buf) parsed) :
    Exits (parsePass 0) (context.untimed, buf) parsed.untimed :=
  exits.map (parsePass_untimed receiveTime)

end HttpContext

/-- A piece of the input and the time at which it was received. -/
abbrev Chunk := Bytes × Timestamp

/-- Append the chunks one at a time and call `parseRequest` after each, until a call
rejects, throws or completes the request. What was not appended counts as unread. -/
def feed (context : HttpContext) (buf : Bytes) (chunk : Chunk) : List Chunk → Option Parsed
  | [] => context.parseRequest (buf ++ chunk.1) chunk.2
  | next :: rest =>
    match context.parseRequest (buf ++ chunk.1) chunk.2 with
    | none => none
    | some parsed =>
      match parsed.paused with
      | some (context, buf) => feed context buf next rest
      | none => some (parsed.extend ((next :: rest).map Prod.fst).flatten)

/-- The step of the induction on the chunks: the whole input is compared at time
zero, where the loops of all the calls are one and the same loop. -/
theorem feed_exits (chunks : List Chunk) (chunk : Chunk) (context : HttpContext) (buf : Bytes)
    (incomplete : context.state ≠ .kGotAll) :
    ∃ piecewise, feed context buf chunk chunks = some piecewise ∧
      Exits (HttpContext.parsePass 0) (context.untimed, buf ++ ((chunk :: chunks).map Prod.fst).flatten)
        piecewise.untimed := by
  induction chunks generalizing chunk context buf with
  | nil =>
    obtain ⟨parsed, returns⟩ :=
      Option.isSome_iff_exists.mp (HttpContext.parseRequest_isSome (buf ++ chunk.1) chunk.2 incomplete)
    refine ⟨parsed, returns, ?_⟩
    simpa using HttpContext.exits_untimed (HttpContext.parseRequest_eq_some_iff.mp returns)
  | cons next rest ih =>
    obtain ⟨parsed, returns⟩ :=
      Option.isSome_iff_exists.mp (HttpContext.parseRequest_isSome (buf ++ chunk.1) chunk.2 incomplete)
    have first := HttpContext.exits_untimed (HttpContext.parseRequest_eq_some_iff.mp returns)
    have whole : buf ++ ((chunk :: next :: rest).map Prod.fst).flatten =
        (buf ++ chunk.1) ++ ((next :: rest).map Prod.fst).flatten := by simp
    rw [whole]
    simp only [feed, returns]
    cases pauses : parsed.paused with
    | none =>
      refine ⟨_, rfl, ?_⟩
      have decided : parsed.untimed.paused = none := by rw [Parsed.paused_untimed, pauses]; rfl
      exact (HttpContext.parsePass_resumable 0).exits_extend first decided _
    | some place =>
      obtain ⟨-, unfinished, rfl⟩ := Parsed.paused_eq_some pauses
      obtain ⟨piecewise, fed, exits⟩ := ih next parsed.context parsed.unread unfinished
      refine ⟨piecewise, fed, ?_⟩
      have waits : parsed.untimed.paused = some (parsed.context.untimed, parsed.unread) := by
        rw [Parsed.paused_untimed, pauses]; rfl
      exact ((HttpContext.parsePass_resumable 0).sameFrom first waits _ _).mpr exits

/-- However the bytes are cut, feeding them to a fresh context piece by piece ends
as one call on all of them does: the same verdict, parse state, request up to its
time of receipt, and unread bytes. -/
theorem feed_eq_parseRequest (first : Chunk) (chunks : List Chunk) (receiveTime : Timestamp) :
    ∃ piecewise whole, feed {} [] first chunks = some piecewise ∧
      HttpContext.parseRequest {} ((first :: chunks).map Prod.fst).flatten receiveTime = some whole ∧
      piecewise.untimed = whole.untimed := by
  have fresh : ({} : HttpContext).state ≠ .kGotAll := by decide
  obtain ⟨piecewise, fed, exits⟩ := feed_exits chunks first {} [] fresh
  obtain ⟨whole, returns⟩ := Option.isSome_iff_exists.mp
    (HttpContext.parseRequest_isSome ((first :: chunks).map Prod.fst).flatten receiveTime fresh)
  refine ⟨piecewise, whole, fed, returns, ?_⟩
  have atOnce := HttpContext.exits_untimed (HttpContext.parseRequest_eq_some_iff.mp returns)
  exact exits.unique atOnce

end HttpFramework.Http
