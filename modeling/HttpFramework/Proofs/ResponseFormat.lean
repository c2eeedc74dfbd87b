import HttpFramework.Proofs.RequestFormat
import HttpFramework.Proofs.StatusLine

/-! The bytes of a response read back. Each part ends where its separator stands for the first time:
the version at a space, the status line and the headers at a CR LF, a key at a colon. -/

namespace HttpFramework.Http
open Search

/-- The line for a header, without its end. -/
def headerText (header : Bytes × Bytes) : Bytes := header.1 ++ ascii ": " ++ header.2

structure PlainHeader (header : Bytes × Bytes) : Prop where
  colon : chr ':' ∉ header.1
  key : Unbroken CR LF header.1
  value : Unbroken CR LF header.2

/-- What a response must not contain so that its parts can be told apart. The body is free. -/
structure PlainResponse (response : HttpResponse) : Prop where
  short : response.httpVersion.length ≤ 26
  space : chr ' ' ∉ response.httpVersion
  zero : 0 ∉ response.httpVersion
  version : Unbroken CR LF response.httpVersion
  code : (decimal response.statusCode.toNat).length = 3
  message : Unbroken CR LF response.statusMessage
  headers : ∀ header ∈ response.headers.toList, PlainHeader header

def knownCodes : List HttpStatusCode :=
  [.k200Ok, .k204NoContent, .k301MovedPermanently, .k400BadRequest, .k401Unauthorized, .k403Forbidden, .k404NotFound,
    .k409Conflict, .k500InternalServerError]

/-- The header lines up to the blank line, and what follows it. -/
def readHeaders : Nat → Dict → Bytes → Option (Dict × Bytes)
  | 0, _, _ => none
  | fuel + 1, headers, bytes => do
    let crlf ← findCRLF bytes
    let line := bytes.take crlf
    let rest := bytes.drop (crlf + 2)
    if crlf = 0 then return (headers, rest)
    else
      let colon := line.idxOf (chr ':')
      readHeaders fuel (headers.insert (line.take colon) (line.drop (colon + 2))) rest

/-- The version, the code and the message of a status line. -/
def readStatusLine (line : Bytes) : Option (Bytes × HttpStatusCode × Bytes) := do
  let space := line.idxOf (chr ' ')
  let code := (line.drop (space + 1)).take 3
  let statusCode ← knownCodes.find? fun statusCode => decimal statusCode.toNat = code
  return (line.take space, statusCode, line.drop (space + 5))

def readConnection (line : Bytes) : Option Bool :=
  if line = ascii "Connection: close" then some true
  else if line = ascii "Connection: Keep-Alive" then some false
  else none

def readResponse (bytes : Bytes) : Option HttpResponse := do
  let crlf ← findCRLF bytes
  let (httpVersion, statusCode, statusMessage) ← readStatusLine (bytes.take crlf)
  let bytes := bytes.drop (crlf + 2)
  let crlf ← findCRLF bytes
  let closeConnection ← readConnection (bytes.take crlf)
  let bytes := bytes.drop (crlf + 2)
  let (headers, body) ← readHeaders (bytes.length + 1) ∅ bytes
  return { httpVersion, statusCode, statusMessage, closeConnection, headers, body }

section
variable {header : Bytes × Bytes} {headers : List (Bytes × Bytes)} {response : HttpResponse}

theorem headerText_eq (header : Bytes × Bytes) : headerText header = header.1 ++ chr ':' :: chr ' ' :: header.2 := by
  have separator : ascii ": " = [chr ':', chr ' '] := by decide
  rw [headerText, separator, List.append_assoc]
  rfl

theorem headerLine_eq (header : Bytes × Bytes) : HttpResponse.headerLine header = headerText header ++ CRLF := rfl

theorem PlainHeader.unbroken (plain : PlainHeader header) : Unbroken CR LF (headerText header) := by
  have value : Unbroken CR LF (chr ' ' :: header.2) := Unbroken.nil.join plain.value (by decide) (by decide)
  rw [headerText_eq]
  exact plain.key.join value (by decide) (by decide)

theorem readHeaders_line (plain : PlainHeader header) (start : Dict) (rest : Bytes) (fuel : Nat) :
    readHeaders (fuel + 1) start (headerText header ++ CRLF ++ rest) =
      readHeaders fuel (start.insert header.1 header.2) rest := by
  have nonempty : (headerText header).length ≠ 0 := by
    rw [headerText_eq, List.length_append, List.length_cons]
    omega
  have colon : (headerText header).idxOf (chr ':') = header.1.length := by
    rw [headerText_eq]
    exact idxOf_join plain.colon _
  have key : (headerText header).take header.1.length = header.1 := by
    rw [headerText_eq]
    exact List.take_left
  have value : (headerText header).drop (header.1.length + 2) = header.2 := by
    rw [headerText_eq]
    simp
  simp only [readHeaders, findCRLF_line plain.unbroken rest, Option.bind_eq_bind, Option.bind_some, if_neg nonempty, take_line,
    drop_line, colon, key, value]

theorem readHeaders_blank (start : Dict) (body : Bytes) (fuel : Nat) :
    readHeaders (fuel + 1) start (CRLF ++ body) = some (start, body) := by
  have blank : findCRLF (CRLF ++ body) = some 0 := findCRLF_line Unbroken.nil body
  simp only [readHeaders, blank, Option.bind_eq_bind, Option.bind_some, if_true]
  rfl

/-- Every line takes one round, and the blank line the last. -/
theorem readHeaders_lines (plain : ∀ header ∈ headers, PlainHeader header) (start : Dict) (body : Bytes) (fuel : Nat)
    (enough : headers.length < fuel) :
    readHeaders fuel start (headers.flatMap HttpResponse.headerLine ++ (CRLF ++ body)) = some (start.insertMany headers, body) := by
  induction headers generalizing start fuel with
  | nil =>
    obtain ⟨fuel, rfl⟩ := Nat.exists_eq_add_of_lt enough
    rw [List.length_nil, Nat.zero_add, List.flatMap_nil, List.nil_append, readHeaders_blank, Std.ExtTreeMap.insertMany_nil]
  | cons header headers ih =>
    obtain ⟨fuel, rfl⟩ := Nat.exists_eq_add_of_lt enough
    rw [List.flatMap_cons, headerLine_eq, List.append_assoc, readHeaders_line (plain header List.mem_cons_self),
      Std.ExtTreeMap.insertMany_cons]
    apply ih fun header member => plain header (List.mem_cons_of_mem _ member)
    rw [List.length_cons]
    omega

theorem length_le_headerLines (headers : List (Bytes × Bytes)) : headers.length ≤ (headers.flatMap HttpResponse.headerLine).length := by
  induction headers with
  | nil => exact Nat.le_refl 0
  | cons header headers ih =>
    rw [List.flatMap_cons, List.length_append, List.length_cons, headerLine_eq, List.length_append]
    have ending : CRLF.length = 2 := rfl
    omega

def connectionText (closeConnection : Bool) : Bytes :=
  if closeConnection then ascii "Connection: close" else ascii "Connection: Keep-Alive"

/-- The response line by line. -/
theorem appendToBuffer_eq (response : HttpResponse) : response.appendToBuffer =
    (response.statusPrefix ++ response.statusMessage) ++ CRLF ++ (connectionText response.closeConnection ++ CRLF ++
      (response.headers.toList.flatMap HttpResponse.headerLine ++ (CRLF ++ response.body))) := by
  simp only [HttpResponse.appendToBuffer, connectionText, List.append_assoc]

theorem appendToBuffer_lines (statusLine : Unbroken CR LF (response.statusPrefix ++ response.statusMessage))
    (headers : ∀ header ∈ response.headers.toList, Unbroken CR LF (headerText header)) :
    splitPair CR LF response.appendToBuffer =
      (response.statusPrefix ++ response.statusMessage) :: connectionText response.closeConnection ::
        (response.headers.toList.map headerText ++ [] :: splitPair CR LF response.body) := by
  have connection : Unbroken CR LF (connectionText response.closeConnection) := by
    cases response.closeConnection <;> decide
  have different : CR ≠ LF := by decide
  have lines : response.headers.toList.flatMap HttpResponse.headerLine =
      (response.headers.toList.map headerText).flatMap fun line => line ++ [CR, LF] := by
    rw [List.flatMap_map]
    rfl
  have listed : ∀ line ∈ response.headers.toList.map headerText, Unbroken CR LF line := by
    intro line member
    obtain ⟨header, present, rfl⟩ := List.mem_map.mp member
    exact headers header present
  rw [appendToBuffer_eq, lines, List.append_assoc (response.statusPrefix ++ response.statusMessage),
    List.append_assoc (connectionText response.closeConnection)]
  refine (splitPair_line different statusLine _).trans (congrArg _ ?_)
  refine (splitPair_line different connection _).trans (congrArg _ ?_)
  refine (splitPair_lines different listed _).trans (congrArg _ ?_)
  exact splitPair_line different Unbroken.nil response.body

theorem readConnection_text (closeConnection : Bool) : readConnection (connectionText closeConnection) = some closeConnection := by
  cases closeConnection <;> decide

theorem find_knownCodes {statusCode : HttpStatusCode} (three : (decimal statusCode.toNat).length = 3) :
    (knownCodes.find? fun other => decimal other.toNat = decimal statusCode.toNat) = some statusCode := by
  cases statusCode
  case kUnknown => exact absurd three (by decide)
  all_goals decide

namespace PlainResponse

/-- The array has room for the version and the code. -/
theorem statusPrefix (plain : PlainResponse response) :
    response.statusPrefix = response.httpVersion ++ chr ' ' :: (decimal response.statusCode.toNat ++ [chr ' ']) := by
  have blank : ascii " " = [chr ' '] := by decide
  have short := plain.short
  have code := plain.code
  rw [HttpResponse.statusPrefix, cString_of_absent plain.zero, blank]
  rw [List.take_of_length_le]
  · simp
  · simp only [List.length_append, List.length_singleton]
    omega

theorem statusLine (plain : PlainResponse response) : response.statusPrefix ++ response.statusMessage =
    response.httpVersion ++ chr ' ' :: (decimal response.statusCode.toNat ++ chr ' ' :: response.statusMessage) := by
  rw [plain.statusPrefix]
  simp

theorem readStatusLine (plain : PlainResponse response) :
    readStatusLine (response.statusPrefix ++ response.statusMessage) =
      some (response.httpVersion, response.statusCode, response.statusMessage) := by
  obtain ⟨a, b, c, digits⟩ := List.length_eq_three.mp plain.code
  have space := idxOf_join plain.space (decimal response.statusCode.toNat ++ chr ' ' :: response.statusMessage)
  have found := find_knownCodes plain.code
  rw [plain.statusLine, Http.readStatusLine, space]
  rw [digits] at found ⊢
  simp [found]

theorem statusLine_unbroken (plain : PlainResponse response) :
    Unbroken CR LF (response.statusPrefix ++ response.statusMessage) := by
  have digits : Unbroken CR LF (decimal response.statusCode.toNat) := by
    intro occurs
    have digit := (isLength_decimal response.statusCode.toNat).digits CR (occurs.subset List.mem_cons_self)
    exact absurd digit (by decide)
  rw [plain.statusLine]
  exact plain.version.join (digits.join plain.message (by decide) (by decide)) (by decide) (by decide)

theorem readResponse (plain : PlainResponse response) : readResponse response.appendToBuffer = some response := by
  have connection : Unbroken CR LF (connectionText response.closeConnection) := by
    cases response.closeConnection <;> decide
  have enough : response.headers.toList.length <
      (response.headers.toList.flatMap HttpResponse.headerLine ++ (CRLF ++ response.body)).length + 1 := by
    have lines := length_le_headerLines response.headers.toList
    rw [List.length_append]
    omega
  have headers := readHeaders_lines plain.headers ∅ response.body _ enough
  rw [insertMany_order (List.Perm.refl _)] at headers
  rw [appendToBuffer_eq, Http.readResponse]
  simp only [findCRLF_line plain.statusLine_unbroken, findCRLF_line connection, take_line, drop_line, plain.readStatusLine,
    readConnection_text, headers, Option.bind_eq_bind, Option.bind_some]
  rfl

end PlainResponse

/-- The parts of a response are read back from its bytes, so that no other response has the same. -/
theorem readResponse_appendToBuffer (plain : PlainResponse response) :
    readResponse response.appendToBuffer = some response ∧
      ∀ other, PlainResponse other → other.appendToBuffer = response.appendToBuffer → other = response := by
  refine ⟨plain.readResponse, ?_⟩
  intro other plain' same
  have read := plain'.readResponse
  rw [same, plain.readResponse] at read
  exact (Option.some_inj.mp read).symm

theorem readResponse_appendToBuffer_ok :
    let response : HttpResponse := { httpVersion := ascii "HTTP/1.1", statusCode := .k200Ok, statusMessage := ascii "OK", closeConnection := false, body := CRLF ++ CRLF }
    readResponse response.appendToBuffer = some response ∧
      ∀ other, PlainResponse other → other.appendToBuffer = response.appendToBuffer → other = response := by
  intro response
  refine readResponse_appendToBuffer ⟨by decide, by decide, by decide, by decide, by decide, by decide, ?_⟩
  intro header member
  cases member

end

end HttpFramework.Http
