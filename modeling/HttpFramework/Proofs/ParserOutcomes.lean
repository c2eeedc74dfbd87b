import HttpFramework.Proofs.RequestLine

/-! How a call of `parseRequest` can end on arbitrary bytes. The request line can
fail with an assertion or a refusal, and then the line stays in the buffer; behind
it the headers can be refused, and then the parser goes on expecting headers. -/

namespace HttpFramework.Http
open Loop Search

/-- A line of the headers without a colon that is not the blank line, or a blank
line where the length of the body is needed and was not given. -/
def BadHeaders (method : Method) (stored : Dict) (buf : Bytes) : Prop :=
  ∃ headers line rest, (∀ header ∈ headers, WireRequest.WellFormedHeader header) ∧
    Unbroken CR LF line ∧ chr ':' ∉ line ∧
    buf = (headers.flatMap fun header => WireRequest.headerLine header ++ CRLF) ++ (line ++ CRLF ++ rest) ∧
    (line ≠ [] ∨ method.HasBody ∧ (WireRequest.headerMap stored headers)[ascii "Content-Length"]?.getD [] = [])

theorem BadHeaders.cons {method : Method} {stored : Dict} {key value buf : Bytes}
    (valid : WireRequest.WellFormedHeader (key, value))
    (bad : BadHeaders method (stored.insert key (HttpRequest.trim value)) buf) :
    BadHeaders method stored (WireRequest.headerLine (key, value) ++ CRLF ++ buf) := by
  obtain ⟨headers, line, rest, all, unbroken, colon, rfl, fault⟩ := bad
  refine ⟨(key, value) :: headers, line, rest, ?_, unbroken, colon, ?_, ?_⟩
  · intro header member
    rcases List.mem_cons.mp member with rfl | member
    · exact valid
    · exact all header member
  · rw [List.flatMap_cons, ← List.append_assoc]
  · simpa only [WireRequest.headerMap, List.map_cons, Std.ExtTreeMap.insertMany_cons] using fault

theorem findCRLF_cases (buf : Bytes) :
    findCRLF buf = none ∨ ∃ line rest, Unbroken CR LF line ∧ buf = line ++ CRLF ++ rest := by
  cases found : findCRLF buf with
  | none => exact .inl rfl
  | some crlf =>
    obtain ⟨cut, unbroken⟩ := firstPair_cut found
    refine .inr ⟨_, buf.drop (crlf + 2), unbroken, ?_⟩
    rw [List.append_assoc]
    exact cut

structure Past (parsed : Parsed) : Prop where
  state : parsed.context.state ≠ .kExpectRequestLine
  verdict : parsed.verdict ≠ .asserted
  complete : parsed.context.state = .kGotAll → parsed.verdict = .returned true

namespace HttpContext

variable {receiveTime : Timestamp}

theorem parsePass_requestLine {context : HttpContext} (expects : context.state = .kExpectRequestLine) {line : Bytes}
    (unbroken : Unbroken CR LF line) (rest : Bytes) :
    parsePass receiveTime (context, line ++ CRLF ++ rest) =
      match processRequestLine context.request line with
      | none => .leave ⟨.asserted, context, line ++ CRLF ++ rest⟩
      | some (true, stored) => .again (⟨.kExpectHeaders, stored.setReceiveTime receiveTime⟩, rest)
      | some (false, stored) =>
        .leave ⟨.returned false, { context with request := stored }, line ++ CRLF ++ rest⟩ := by
  cases processed : processRequestLine context.request line with
  | none => simp only [parsePass, expects, findCRLF_line unbroken, take_line, processed]
  | some outcome =>
    obtain ⟨accepted, stored⟩ := outcome
    cases accepted with
    | false => simp only [parsePass, expects, findCRLF_line unbroken, take_line, processed]
    | true => simp only [parsePass, expects, findCRLF_line unbroken, take_line, drop_line, processed]

theorem parsePass_badHeader {line : Bytes} (unbroken : Unbroken CR LF line) (colon : chr ':' ∉ line)
    (nonempty : line ≠ []) (request : HttpRequest) (rest : Bytes) :
    parsePass receiveTime (⟨.kExpectHeaders, request⟩, line ++ CRLF ++ rest) =
      .leave ⟨.returned false, ⟨.kExpectHeaders, request⟩, rest⟩ := by
  have size : line.length ≠ 0 := by simpa using nonempty
  simp only [parsePass, findCRLF_line unbroken, take_line, drop_line, List.idxOf_eq_length colon, lt_irrefl, if_false,
    size]

theorem parsePass_headers_cases (receiveTime : Timestamp) (request : HttpRequest) (buf : Bytes) :
    parsePass receiveTime (⟨.kExpectHeaders, request⟩, buf) =
        .leave ⟨.returned true, ⟨.kExpectHeaders, request⟩, buf⟩ ∨
      (∃ key value rest, WireRequest.WellFormedHeader (key, value) ∧
        buf = WireRequest.headerLine (key, value) ++ CRLF ++ rest ∧
        parsePass receiveTime (⟨.kExpectHeaders, request⟩, buf) =
          .again (⟨.kExpectHeaders, { request with
            headers := request.headers.insert key (HttpRequest.trim value) }⟩, rest)) ∨
      (∃ rest, buf = CRLF ++ rest ∧
        parsePass receiveTime (⟨.kExpectHeaders, request⟩, buf) = endHeaders ⟨.kExpectHeaders, request⟩ buf rest) ∨
      ∃ line rest, Unbroken CR LF line ∧ chr ':' ∉ line ∧ line ≠ [] ∧ buf = line ++ CRLF ++ rest ∧
        parsePass receiveTime (⟨.kExpectHeaders, request⟩, buf) =
          .leave ⟨.returned false, ⟨.kExpectHeaders, request⟩, rest⟩ := by
  rcases findCRLF_cases buf with waits | ⟨line, rest, unbroken, rfl⟩
  · exact .inl (by simp only [parsePass, waits])
  · by_cases colon : chr ':' ∈ line
    · obtain ⟨cut, keyColon⟩ := idxOf_cut (List.idxOf_lt_length_of_mem colon).ne
      have whole := unbroken
      rw [cut] at whole
      have valid : WireRequest.WellFormedHeader
          (line.take (line.idxOf (chr ':')), line.drop (line.idxOf (chr ':') + 1)) :=
        ⟨keyColon, fun occurs => whole (occurs.trans (List.prefix_append _ _).isInfix),
          fun occurs => whole (occurs.trans ((List.suffix_cons _ _).trans (List.suffix_append _ _)).isInfix)⟩
      have line' : WireRequest.headerLine (line.take (line.idxOf (chr ':')), line.drop (line.idxOf (chr ':') + 1)) = line :=
        cut.symm
      have pass := @parsePass_header receiveTime _ _ valid request rest
      rw [line'] at pass
      exact .inr (.inl ⟨_, _, rest, valid, by rw [line'], pass⟩)
    · by_cases blank : line = []
      · subst blank
        exact .inr (.inr (.inl ⟨rest, rfl, parsePass_blank receiveTime request rest⟩))
      · exact .inr (.inr (.inr ⟨line, rest, unbroken, colon, blank, rfl,
          parsePass_badHeader unbroken colon blank request rest⟩))

theorem endHeaders_refused {request : HttpRequest} (body : request.method.HasBody)
    (missing : request.getHeader (ascii "Content-Length") = []) (buf rest : Bytes) :
    endHeaders ⟨.kExpectHeaders, request⟩ buf rest = .leave ⟨.returned false, ⟨.kExpectHeaders, request⟩, rest⟩ := by
  have needed : request.method = .kPost ∨ request.method = .kPut := body
  simp only [endHeaders, needed, missing, if_true, ne_eq, not_true, if_false]

theorem endHeaders_cases (request : HttpRequest) (buf rest : Bytes) :
    (request.method.HasBody ∧ request.getHeader (ascii "Content-Length") = [] ∧
      endHeaders ⟨.kExpectHeaders, request⟩ buf rest = .leave ⟨.returned false, ⟨.kExpectHeaders, request⟩, rest⟩) ∨
    (∃ exception, endHeaders ⟨.kExpectHeaders, request⟩ buf rest =
      .leave ⟨.threw exception, ⟨.kExpectHeaders, request⟩, buf⟩) ∨
    (∃ stored, endHeaders ⟨.kExpectHeaders, request⟩ buf rest = .again (⟨.kExpectBody, stored⟩, rest)) ∨
    ∃ stored, endHeaders ⟨.kExpectHeaders, request⟩ buf rest =
      .leave ⟨.returned true, ⟨.kGotAll, stored⟩, rest⟩ := by
  by_cases body : request.method = .kPost ∨ request.method = .kPut
  · by_cases declared : request.getHeader (ascii "Content-Length") = []
    · exact .inl ⟨body, declared, endHeaders_refused body declared buf rest⟩
    · simp only [endHeaders]
      rw [if_pos body, if_pos declared]
      cases stoi (request.getHeader (ascii "Content-Length")) with
      | error exception => exact .inr (.inl ⟨exception, rfl⟩)
      | ok length =>
        dsimp only
        split
        · exact .inr (.inr (.inl ⟨_, rfl⟩))
        · exact .inr (.inr (.inr ⟨_, rfl⟩))
  · simp only [endHeaders]
    rw [if_neg body]
    exact .inr (.inr (.inr ⟨_, rfl⟩))

theorem exits_of_body {context : HttpContext} {buf : Bytes} {parsed : Parsed}
    (exits : Exits (parsePass receiveTime) (context, buf) parsed) (expects : context.state = .kExpectBody) :
    Past parsed ∧ parsed.verdict = .returned true := by
  cases exits with
  | leave left =>
    simp only [parsePass, expects] at left
    split at left
    · cases left; exact ⟨⟨by simp [expects], by simp, by simp⟩, rfl⟩
    · cases left; exact ⟨⟨by simp, by simp, by simp⟩, rfl⟩
  | again repeated rest =>
    simp only [parsePass, expects] at repeated
    split at repeated <;> cases repeated

theorem exits_of_headers {place : HttpContext × Bytes} {parsed : Parsed}
    (exits : Exits (parsePass receiveTime) place parsed) (expects : place.1.state = .kExpectHeaders) :
    Past parsed ∧ (parsed.verdict = .returned false →
      BadHeaders place.1.request.method place.1.request.headers place.2) := by
  induction exits with
  | @leave place parsed left =>
    obtain ⟨⟨state, request⟩, buf⟩ := place
    cases expects
    rcases parsePass_headers_cases receiveTime request buf with
      waits | ⟨_, _, _, _, _, passes⟩ | ⟨rest, blank, ends⟩ | ⟨line, rest, unbroken, colon, nonempty, cut, refused⟩
    · rw [waits] at left
      cases left
      exact ⟨⟨by simp, by simp, by simp⟩, by simp⟩
    · rw [passes] at left
      cases left
    · rw [ends] at left
      rcases endHeaders_cases request buf rest with ⟨body, missing, refused⟩ | ⟨_, thrown⟩ | ⟨_, goes⟩ | ⟨_, complete⟩
      · rw [refused] at left
        cases left
        exact ⟨⟨by simp, by simp, by simp⟩, fun _ => ⟨[], [], rest, by simp, Unbroken.nil, by simp, blank,
          .inr ⟨body, missing⟩⟩⟩
      · rw [thrown] at left
        cases left
        exact ⟨⟨by simp, by simp, by simp⟩, by simp⟩
      · rw [goes] at left
        cases left
      · rw [complete] at left
        cases left
        exact ⟨⟨by simp, by simp, by simp⟩, by simp⟩
    · rw [refused] at left
      cases left
      exact ⟨⟨by simp, by simp, by simp⟩, fun _ => ⟨[], line, rest, by simp, unbroken, colon, cut, .inl nonempty⟩⟩
  | @again place next parsed repeated exits ih =>
    obtain ⟨⟨state, request⟩, buf⟩ := place
    cases expects
    rcases parsePass_headers_cases receiveTime request buf with
      waits | ⟨key, value, rest, valid, cut, passes⟩ | ⟨rest, blank, ends⟩ | ⟨_, _, _, _, _, _, refused⟩
    · rw [waits] at repeated
      cases repeated
    · rw [passes] at repeated
      cases repeated
      obtain ⟨past, bad⟩ := ih rfl
      exact ⟨past, fun failed => cut ▸ (bad failed).cons valid⟩
    · rw [ends] at repeated
      rcases endHeaders_cases request buf rest with ⟨_, _, refused⟩ | ⟨_, thrown⟩ | ⟨stored, goes⟩ | ⟨_, complete⟩
      · rw [refused] at repeated
        cases repeated
      · rw [thrown] at repeated
        cases repeated
      · rw [goes] at repeated
        cases repeated
        obtain ⟨past, accepted⟩ := exits_of_body exits rfl
        exact ⟨past, fun failed => by rw [accepted] at failed; cases failed⟩
      · rw [complete] at repeated
        cases repeated
    · rw [refused] at repeated
      cases repeated

/-- How a call ends that starts where a request line is expected. -/
inductive FromRequestLine (context : HttpContext) (buf : Bytes) (parsed : Parsed) : Prop where
  | waits (same : parsed = ⟨.returned true, context, buf⟩)
  | asserts {line rest} (unbroken : Unbroken CR LF line) (cut : buf = line ++ CRLF ++ rest)
      (processed : processRequestLine context.request line = none) (same : parsed = ⟨.asserted, context, buf⟩)
  | refuses {line rest stored} (unbroken : Unbroken CR LF line) (cut : buf = line ++ CRLF ++ rest)
      (processed : processRequestLine context.request line = some (false, stored))
      (same : parsed = ⟨.returned false, { context with request := stored }, buf⟩)
  | accepts {line rest stored} (unbroken : Unbroken CR LF line) (cut : buf = line ++ CRLF ++ rest)
      (processed : processRequestLine context.request line = some (true, stored)) (past : Past parsed)
      (bad : parsed.verdict = .returned false → BadHeaders stored.method stored.headers rest)

theorem exits_of_requestLine {context : HttpContext} {buf : Bytes} {parsed : Parsed}
    (exits : Exits (parsePass receiveTime) (context, buf) parsed) (expects : context.state = .kExpectRequestLine) :
    FromRequestLine context buf parsed := by
  rcases findCRLF_cases buf with waits | ⟨line, rest, unbroken, rfl⟩
  · have pass : parsePass receiveTime (context, buf) = .leave ⟨.returned true, context, buf⟩ := by
      simp only [parsePass, expects, waits]
    exact .waits (exits.unique (.leave pass))
  · have pass := @parsePass_requestLine receiveTime _ expects _ unbroken rest
    cases processed : processRequestLine context.request line with
    | none =>
      rw [processed] at pass
      exact .asserts unbroken rfl processed (exits.unique (.leave pass))
    | some outcome =>
      obtain ⟨accepted, stored⟩ := outcome
      rw [processed] at pass
      cases accepted with
      | false => exact .refuses unbroken rfl processed (exits.unique (.leave pass))
      | true =>
        cases exits with
        | leave left => rw [pass] at left; cases left
        | again repeated exits =>
          rw [pass] at repeated
          cases repeated
          obtain ⟨past, bad⟩ := exits_of_headers exits rfl
          exact .accepts unbroken rfl processed past bad

/-- A call that does not start with the request line never comes back to it. -/
theorem exits_past {context : HttpContext} {buf : Bytes} {parsed : Parsed}
    (exits : Exits (parsePass receiveTime) (context, buf) parsed) (behind : context.state ≠ .kExpectRequestLine) :
    Past parsed := by
  cases state : context.state with
  | kExpectRequestLine => exact absurd state behind
  | kExpectHeaders => exact (exits_of_headers exits state).1
  | kExpectBody => exact (exits_of_body exits state).1
  | kGotAll => exact absurd state ((halts_iff_not_gotAll receiveTime _ buf).mp (halts_iff.mpr ⟨parsed, exits⟩))

theorem exits_complete {context : HttpContext} {buf : Bytes} {parsed : Parsed}
    (exits : Exits (parsePass receiveTime) (context, buf) parsed) (complete : parsed.context.state = .kGotAll) :
    parsed.verdict = .returned true := by
  by_cases line : context.state = .kExpectRequestLine
  · cases exits_of_requestLine exits line with
    | waits same => rw [same]
    | asserts _ _ _ same =>
      rw [same] at complete
      cases line.symm.trans complete
    | refuses _ _ _ same =>
      rw [same] at complete
      cases line.symm.trans complete
    | accepts _ _ _ past => exact past.complete complete
  · exact (exits_past exits line).complete complete

end HttpContext

end HttpFramework.Http
