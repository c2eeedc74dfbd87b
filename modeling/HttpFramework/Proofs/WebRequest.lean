import HttpFramework.Code.HttpConn
import HttpFramework.Library.Fallible
import HttpFramework.Proofs.BufferQueue

/-! What the parser of the web server makes of a request and of the bytes behind it. It takes no
notice of lengths: what stands behind the headers, up to the end of a line, is the body, and a
request that is not complete is answered as far as it has come. -/

namespace HttpFramework.Code
open Loop Search

namespace HttpRequest

variable {userVerify : Verifier} {request next : HttpRequest} {buff : Buffer} {line rest : Bytes}

theorem peek_content (valid : buff.Valid) : buff.peek buff.readableBytes = buff.content := by
  rw [valid.peek (Nat.le_refl _), List.take_of_length_le (by rw [valid.content_length])]

theorem readable_eq_zero (valid : buff.Valid) : buff.readableBytes = 0 ↔ buff.content = [] := by
  rw [← valid.content_length, List.length_eq_zero_iff]

/-- A whole line is taken from the buffer. -/
theorem pass_line (valid : buff.Valid) (going : request.state ≠ .FINISH)
    (holds : buff.content = line ++ CR :: LF :: rest) (unbroken : Unbroken CR LF line)
    (parsed : request.parseLine userVerify line buff.content.length = .ok (some next)) :
    ∃ later, pass userVerify (request, buff) = .again (next, later) ∧ later.Valid ∧ later.content = rest := by
  have readable := valid.content_length
  have nonempty : buff.readableBytes ≠ 0 := by
    rw [Ne, readable_eq_zero valid, holds]
    simp
  have found : firstPair CR LF buff.content = some line.length := by
    rw [holds]
    exact firstPair_line (by decide) unbroken rest
  have length : buff.content.length = line.length + (rest.length + 2) := by
    rw [holds, List.length_append, List.length_cons, List.length_cons]
  have inside : line.length + 2 ≤ buff.readableBytes := by omega
  obtain ⟨valid', left⟩ := valid.advance inside
  refine ⟨_, ?_, valid', ?_⟩
  · rw [readable] at parsed
    have cut : buff.content.take line.length = line := by
      rw [holds]
      exact List.take_left
    simp only [pass, nonempty, going, or_self, if_false, peek_content valid, found, Option.getD_some, cut, parsed]
    rw [if_neg (by omega), Buffer.retrieveUntil, Buffer.retrieve, if_pos inside]
  · rw [left, holds, ← List.drop_drop, List.drop_left]
    rfl

/-- The last line of the buffer has no end and stays there. -/
theorem pass_remainder (valid : buff.Valid) (going : request.state ≠ .FINISH) (nonempty : buff.content ≠ [])
    (unbroken : firstPair CR LF buff.content = none)
    (parsed : request.parseLine userVerify buff.content buff.content.length = .ok (some next)) :
    pass userVerify (request, buff) = .leave (.ok (true, next, buff)) := by
  have nonempty : buff.readableBytes ≠ 0 := by
    rw [Ne, readable_eq_zero valid]
    exact nonempty
  rw [valid.content_length] at parsed
  simp only [pass, nonempty, going, or_self, if_false, peek_content valid, unbroken, Option.getD_none, List.take_length,
    parsed, if_true]

theorem pass_fault {fault : Fault} (valid : buff.Valid) (going : request.state ≠ .FINISH) (nonempty : buff.content ≠ [])
    (failed : request.parseLine userVerify (buff.content.take ((firstPair CR LF buff.content).getD buff.content.length))
      buff.content.length = .error fault) :
    pass userVerify (request, buff) = .leave (.error fault) := by
  have nonempty : buff.readableBytes ≠ 0 := by
    rw [Ne, readable_eq_zero valid]
    exact nonempty
  rw [valid.content_length] at failed
  simp only [pass, nonempty, going, or_self, if_false, peek_content valid, valid.content_length, failed]

theorem pass_finished (finished : request.state = .FINISH) :
    pass userVerify (request, buff) = .leave (.ok (true, request, buff)) := by
  simp only [pass, finished, or_true, if_true]

/-- Another pass has taken a line and its end from the buffer. -/
theorem pass_again {current later : HttpRequest × Buffer} (valid : current.2.Valid)
    (again : pass userVerify current = .again later) :
    later.2.Valid ∧ later.2.readableBytes < current.2.readableBytes := by
  simp only [pass] at again
  split at again
  · cases again
  next going =>
    split at again
    · cases again
    · cases again
    next request parsed =>
      split at again
      · cases again
      next =>
        rw [Buffer.retrieveUntil, Buffer.retrieve] at again
        split at again
        next retrieved =>
          cases again
          split at retrieved
          next less =>
            cases retrieved
            obtain ⟨valid', left⟩ := valid.advance less
            refine ⟨valid', ?_⟩
            rw [← valid'.content_length, left, List.length_drop, valid.content_length]
            omega
          next => cases retrieved
        next => cases again

theorem parse_of_exits {result : Except Fault Parsed} (valid : buff.Valid) (nonempty : buff.content ≠ [])
    (exits : Exits (pass userVerify) (request, buff) result) : parse userVerify request buff = result := by
  have going : buff.readableBytes ≠ 0 := by
    rw [Ne, readable_eq_zero valid]
    exact nonempty
  have ends : (Loop.run (pass userVerify) (buff.readableBytes + 1) (request, buff)).isSome :=
    run_isSome_of_measure (fun current => current.2.Valid) (fun current => current.2.readableBytes)
      (fun _ _ => pass_again) valid (Nat.lt_succ_self _)
  obtain ⟨ended, ran⟩ := Option.isSome_iff_exists.mp ends
  rw [parse, if_neg going, ran, (exits_of_run ran).unique exits]
  rfl

end HttpRequest

/-- A header as it is written: the name, the colon, perhaps a blank, and the value. -/
structure HeaderText where
  name : Bytes
  blank : Bool := true
  value : Bytes

def HeaderText.line (header : HeaderText) : Bytes :=
  header.name ++ chr ':' :: ((if header.blank then ascii " " else []) ++ header.value)

structure HeaderText.WellFormed (header : HeaderText) : Prop where
  nameColon : chr ':' ∉ header.name
  nameLine : Unbroken CR LF header.name
  valueReturn : CR ∉ header.value
  valueFeed : LF ∉ header.value
  /-- A blank at the front is the one behind the colon. -/
  valueBlank : header.blank = false → header.value.head? ≠ some (chr ' ')

/-- A request as it is written. -/
structure RequestText where
  method : Bytes
  target : Bytes
  version : Bytes
  headers : List HeaderText
  body : Bytes := []

namespace RequestText

def requestLine (text : RequestText) : Bytes :=
  text.method ++ chr ' ' :: (text.target ++ chr ' ' :: (ascii "HTTP/" ++ text.version))

def render (text : RequestText) : Bytes :=
  text.requestLine ++ CRLF ++ (text.headers.flatMap fun header => header.line ++ CRLF) ++ CRLF ++ text.body

/-- The headers as a map, in which a repeated name has its last value. -/
def headerMap (text : RequestText) : Dict := (∅ : Dict).insertMany (text.headers.map fun header => (header.name, header.value))

structure WellFormed (text : RequestText) : Prop where
  methodBlank : chr ' ' ∉ text.method
  targetBlank : chr ' ' ∉ text.target
  versionBlank : chr ' ' ∉ text.version
  methodLine : Unbroken CR LF text.method
  targetLine : Unbroken CR LF text.target
  versionLine : Unbroken CR LF text.version
  headers : ∀ header ∈ text.headers, header.WellFormed
  announced : text.body = [] ∨ text.headerMap[ascii "Content-Length"]? = some (decimal text.body.length)

end RequestText

namespace HttpRequest

variable {userVerify : Verifier} {request : HttpRequest} {buff : Buffer}

theorem matchHeader_line {header : HeaderText} (wellFormed : header.WellFormed) :
    matchHeader header.line = some (header.name, header.value) := by
  have before : ∀ c ∈ header.name, (c != chr ':') = true := by
    intro c member
    simpa using fun same : c = chr ':' => wellFormed.nameColon (same ▸ member)
  let behind := (if header.blank then ascii " " else []) ++ header.value
  have after : header.line.dropWhile (· != chr ':') = chr ':' :: behind := by
    rw [HeaderText.line, List.dropWhile_append_of_pos before, List.dropWhile_cons]
    simp [behind]
  have name : header.line.takeWhile (· != chr ':') = header.name := by
    rw [HeaderText.line, List.takeWhile_append_of_pos before, List.takeWhile_cons]
    simp
  have value : (if behind.head? = some (chr ' ') then behind.tail else behind) = header.value := by
    cases blank : header.blank with
    | true => simp [behind, blank, ascii]
    | false =>
      have first := wellFormed.valueBlank blank
      simp [behind, blank, first]
  have plain : ¬ (header.value.contains CR ∨ header.value.contains LF) := by
    simp [wellFormed.valueReturn, wellFormed.valueFeed]
  simp only [matchHeader, after, name, value, plain, if_false]

theorem matchRequestLine_text {text : RequestText} (wellFormed : text.WellFormed) :
    matchRequestLine text.requestLine = some (text.method, text.target, text.version) := by
  have protocol : chr ' ' ∉ ascii "HTTP/" ++ text.version := by
    intro member
    rcases List.mem_append.mp member with fixed | free
    · exact absurd fixed (by decide)
    · exact wellFormed.versionBlank free
  have parts : text.requestLine.splitOn (chr ' ') = [text.method, text.target, ascii "HTTP/" ++ text.version] := by
    rw [RequestText.requestLine, List.splitOn_append_cons_self, List.splitOn_append_cons_self,
      List.splitOn_eq_singleton wellFormed.methodBlank, List.splitOn_eq_singleton wellFormed.targetBlank,
      List.splitOn_eq_singleton protocol]
    rfl
  have named : (ascii "HTTP/").isPrefixOf (ascii "HTTP/" ++ text.version) = true :=
    List.isPrefixOf_iff_prefix.mpr (List.prefix_append _ _)
  simp only [matchRequestLine, parts, named, if_true]
  rfl

theorem requestLine_unbroken {text : RequestText} (wellFormed : text.WellFormed) : Unbroken CR LF text.requestLine := by
  have protocol : Unbroken CR LF (ascii "HTTP/" ++ text.version) :=
    Unbroken.join (show Unbroken CR LF (ascii "HTTP") by decide) wellFormed.versionLine (by decide) (by decide)
  apply Unbroken.join wellFormed.methodLine _ (by decide) (by decide)
  exact Unbroken.join wellFormed.targetLine protocol (by decide) (by decide)

theorem headerLine_unbroken {header : HeaderText} (wellFormed : header.WellFormed) : Unbroken CR LF header.line := by
  apply Unbroken.join wellFormed.nameLine _ (by decide) (by decide)
  intro occurs
  have inside := occurs.subset List.mem_cons_self
  rcases List.mem_append.mp inside with blank | value
  · cases given : header.blank <;> rw [given] at blank <;> exact absurd blank (by decide)
  · exact wellFormed.valueReturn value

/-- The request after its request line. -/
def lineRequest (text : RequestText) : HttpRequest :=
  ({ method := text.method, path := text.target, version := text.version, state := .HEADERS } : HttpRequest).parsePath

theorem lineRequest_eq (text : RequestText) :
    lineRequest text = { method := text.method, path := (lineRequest text).path, version := text.version, state := .HEADERS } := by
  rw [lineRequest, parsePath]
  split
  · rfl
  · split <;> rfl

/-- The request line is taken first. -/
theorem exits_requestLine {text : RequestText} {rest : Bytes} (wellFormed : text.WellFormed) (valid : buff.Valid)
    (holds : buff.content = text.requestLine ++ CR :: LF :: rest) :
    ∃ later, later.Valid ∧ later.content = rest ∧ ∀ result,
      Exits (pass userVerify) (lineRequest text, later) result → Exits (pass userVerify) (init, buff) result := by
  have parsed : init.parseLine userVerify text.requestLine buff.content.length = .ok (some (lineRequest text)) := by
    simp only [parseLine, init, parseRequestLine, matchRequestLine_text wellFormed, Option.map_some]
    rfl
  obtain ⟨later, again, valid', left⟩ := pass_line valid (by decide) holds (requestLine_unbroken wellFormed) parsed
  exact ⟨later, valid', left, fun _ exits => .again again exits⟩

/-- The headers are taken one by one, since what follows them keeps the buffer from running short. -/
theorem exits_headers {headers : List HeaderText} {rest : Bytes} (wellFormed : ∀ header ∈ headers, header.WellFormed)
    (valid : buff.Valid) (inHeaders : request.state = .HEADERS)
    (holds : buff.content = (headers.flatMap fun header => header.line ++ CRLF) ++ CR :: LF :: rest) :
    ∃ later, later.Valid ∧ later.content = CR :: LF :: rest ∧ ∀ result,
      Exits (pass userVerify) ({ request with
        header := request.header.insertMany (headers.map fun header => (header.name, header.value)) }, later) result →
      Exits (pass userVerify) (request, buff) result := by
  induction headers generalizing request buff with
  | nil => exact ⟨buff, valid, holds, fun _ exits => exits⟩
  | cons header headers ih =>
    obtain ⟨own, others⟩ := List.forall_mem_cons.mp wellFormed
    let rest' := (headers.flatMap fun header => header.line ++ CRLF) ++ CR :: LF :: rest
    have cut : buff.content = header.line ++ CR :: LF :: rest' := by
      rw [holds]
      simp [rest', CRLF]
    let next := { request with header := request.header.insert header.name header.value }
    have parsed : request.parseLine userVerify header.line buff.content.length = .ok (some next) := by
      have long : ¬ buff.content.length ≤ 2 := by
        rw [cut]
        simp [rest']
        omega
      simp only [parseLine, inHeaders, parseHeader, matchHeader_line own, long, if_false, next]
    obtain ⟨later, again, valid', left⟩ := pass_line valid (by rw [inHeaders]; decide) cut (headerLine_unbroken own) parsed
    obtain ⟨last, valid'', left', exits⟩ := @ih next later others valid' inHeaders left
    refine ⟨last, valid'', left', ?_⟩
    intro result finished
    apply Exits.again again
    apply exits
    rwa [List.map_cons, Std.ExtTreeMap.insertMany_cons] at finished

/-- The request after its headers. -/
def headRequest (text : RequestText) : HttpRequest := { lineRequest text with header := text.headerMap }

/-- At the blank line it counts whether anything is left in the buffer. -/
theorem exits_head {text : RequestText} {suffix : Bytes} (wellFormed : text.WellFormed) (bodiless : text.body = [])
    (valid : buff.Valid) (holds : buff.content = text.render ++ suffix) :
    ∃ later, later.Valid ∧ later.content = suffix ∧ ∀ result, Exits (pass userVerify)
        ({ headRequest text with state := if suffix = [] then .FINISH else .BODY }, later) result →
      parse userVerify init buff = result := by
  have shape : buff.content = text.requestLine ++ CR :: LF ::
      ((text.headers.flatMap fun header => header.line ++ CRLF) ++ CR :: LF :: suffix) := by
    rw [holds, RequestText.render, bodiless]
    simp [CRLF]
  obtain ⟨first, valid₁, left₁, exits₁⟩ := exits_requestLine wellFormed valid shape
  have inHeaders : (lineRequest text).state = .HEADERS := by rw [lineRequest_eq]
  obtain ⟨second, valid₂, left₂, exits₂⟩ := exits_headers wellFormed.headers valid₁ inHeaders left₁
  have header : (lineRequest text).header = ∅ := by rw [lineRequest_eq]
  rw [header] at exits₂
  let next : HttpRequest := { headRequest text with state := if suffix = [] then .FINISH else .BODY }
  have parsed : (headRequest text).parseLine userVerify [] second.content.length = .ok (some next) := by
    have inHeaders : (headRequest text).state = .HEADERS := inHeaders
    have short : second.content.length ≤ 2 ↔ suffix = [] := by
      rw [left₂, List.length_cons, List.length_cons, ← List.length_eq_zero_iff]
      omega
    have unmatched : matchHeader [] = none := rfl
    simp only [parseLine, inHeaders, parseHeader, unmatched, short, next]
    split <;> rfl
  obtain ⟨third, again, valid₃, left₃⟩ :=
    pass_line valid₂ (by rw [headRequest, inHeaders]; decide) (show second.content = [] ++ _ from left₂) Unbroken.nil parsed
  refine ⟨third, valid₃, left₃, ?_⟩
  intro result exits
  apply parse_of_exits valid (by rw [shape]; simp)
  apply exits₁
  apply exits₂
  exact .again again exits

theorem Scan.step_length {scan next : Scan} (stepped : scan.step = .ok next) : next.body.length = scan.body.length := by
  simp only [Scan.step] at stepped
  split at stepped
  · cases stepped
  · split at stepped
    · cases stepped
      rfl
    · split at stepped
      · cases stepped
        exact List.length_set
      · split at stepped
        · split at stepped
          · cases stepped
            rw [List.length_set, List.length_set]
          · cases stepped
        · split at stepped <;> cases stepped <;> rfl

theorem Scan.run_length {n : Int} {fuel : Nat} {scan final : Scan} (ran : Scan.run n fuel scan = .ok final) :
    final.body.length = scan.body.length := by
  induction fuel generalizing scan with
  | zero =>
    cases ran
    rfl
  | succ fuel ih =>
    rw [Scan.run] at ran
    split at ran
    · obtain ⟨next, stepped, rest⟩ := Fallible.bind_ok ran
      exact (ih rest).trans (step_length stepped)
    · cases ran
      rfl

theorem parseFromUrlencoded_length {request next : HttpRequest} (parsed : request.parseFromUrlencoded = .ok next) :
    next.body.length = request.body.length := by
  rw [parseFromUrlencoded] at parsed
  split at parsed
  · cases parsed
    rfl
  · obtain ⟨scan, ran, rest⟩ := Fallible.bind_ok parsed
    have length := Scan.run_length ran
    split at rest
    · split at rest <;> cases rest <;> exact length
    · cases rest

theorem parsePost_length {request next : HttpRequest} (parsed : request.parsePost userVerify = .ok next) :
    next.body.length = request.body.length := by
  simp only [parsePost] at parsed
  split at parsed
  · split at parsed
    · obtain ⟨decoded, done, rest⟩ := Fallible.bind_ok parsed
      have length := parseFromUrlencoded_length done
      split at rest
      · cases rest
        exact length
      · split at rest
        · split at rest <;> cases rest <;> exact length
        · cases rest
          exact length
    · cases parsed
      rfl
  · cases parsed
    rfl

theorem parseBody_spec {request next : HttpRequest} {line : Bytes} (parsed : request.parseBody userVerify line = .ok next) :
    next.body.length = line.length ∧ next.state = .FINISH := by
  obtain ⟨posted, done, rest⟩ := Fallible.bind_ok parsed
  cases rest
  exact ⟨parsePost_length done, rfl⟩

/-- Bytes behind the headers end in the body or are taken away with it. -/
theorem parse_suffix {text : RequestText} {suffix : Bytes} (wellFormed : text.WellFormed) (bodiless : text.body = [])
    (valid : buff.Valid) (holds : buff.content = text.render ++ suffix) (more : suffix ≠ []) :
    (∃ fault, parse userVerify init buff = .error fault) ∨ ∃ request later,
      parse userVerify init buff = .ok (true, request, later) ∧ (request.body ≠ [] ∨ later.content ≠ suffix) := by
  obtain ⟨later, valid', left, exits⟩ := @exits_head userVerify _ _ _ wellFormed bodiless valid holds
  rw [if_neg more] at exits
  let request : HttpRequest := { headRequest text with state := .BODY }
  have going : request.state ≠ .FINISH := by
    intro finished
    cases finished
  subst left
  have line (line : Bytes) : request.parseLine userVerify line later.content.length =
      (request.parseBody userVerify line >>= fun next => .ok (some next)) := rfl
  cases found : firstPair CR LF later.content with
  | none =>
    cases parsed : request.parseBody userVerify later.content with
    | error fault =>
      refine .inl ⟨fault, exits _ (.leave (pass_fault valid' going more ?_))⟩
      rw [found, Option.getD_none, List.take_length, line, parsed]
      rfl
    | ok next =>
      have taken : request.parseLine userVerify later.content later.content.length = .ok (some next) := by
        rw [line, parsed]
        rfl
      refine .inr ⟨next, later, exits _ (.leave (pass_remainder valid' going more found taken)), .inl ?_⟩
      intro empty
      have length := (parseBody_spec parsed).1
      rw [empty] at length
      exact more (List.length_eq_zero_iff.mp length.symm)
  | some place =>
    obtain ⟨cut, unbroken⟩ := firstPair_cut found
    cases parsed : request.parseBody userVerify (later.content.take place) with
    | error fault =>
      refine .inl ⟨fault, exits _ (.leave (pass_fault valid' going more ?_))⟩
      rw [found, Option.getD_some, line, parsed]
      rfl
    | ok next =>
      have taken : request.parseLine userVerify (later.content.take place) later.content.length = .ok (some next) := by
        rw [line, parsed]
        rfl
      obtain ⟨last, again, _, rest⟩ := pass_line valid' going cut unbroken taken
      have finished := (parseBody_spec parsed).2
      refine .inr ⟨next, last, exits _ (.again again (.leave (pass_finished finished))), .inr ?_⟩
      intro same
      have inside := firstPair_bound found
      have length := congrArg List.length (same.symm.trans rest)
      rw [List.length_drop] at length
      omega

/-- The request is read as it was written, and what follows it is left. -/
def ReadsExactly (userVerify : Verifier) (text : RequestText) (suffix : Bytes) (buff : Buffer) : Prop :=
  ∃ request later, parse userVerify init buff = .ok (true, request, later) ∧ request.state = .FINISH ∧
    request.method = text.method ∧ request.path = (parsePath { path := text.target }).path ∧
    request.version = text.version ∧ request.header = text.headerMap ∧ request.body = [] ∧
    later.Valid ∧ later.content = suffix

theorem lineRequest_path (text : RequestText) : (lineRequest text).path = (parsePath { path := text.target }).path := by
  simp only [lineRequest, parsePath]
  split
  · rfl
  · split <;> rfl

theorem not_readsExactly {text : RequestText} {suffix : Bytes} (wellFormed : text.WellFormed) (bodiless : text.body = [])
    (valid : buff.Valid) (holds : buff.content = text.render ++ suffix) (more : suffix ≠ []) :
    ¬ ReadsExactly userVerify text suffix buff := by
  intro ⟨request, later, parsed, _, _, _, _, _, body, _, left⟩
  rcases @parse_suffix userVerify _ _ _ wellFormed bodiless valid holds more with ⟨fault, failed⟩ | ⟨request', later', parsed', wrong⟩
  · cases failed.symm.trans parsed
  · cases parsed'.symm.trans parsed
    rcases wrong with nonempty | taken
    · exact nonempty body
    · exact taken left

/-- Whatever the request, nothing may follow it in the buffer. -/
theorem readsExactly_iff {text : RequestText} (wellFormed : text.WellFormed) (bodiless : text.body = []) (suffix : Bytes)
    (userVerify : Verifier) {buff : Buffer} (valid : buff.Valid) (holds : buff.content = text.render ++ suffix) :
    ReadsExactly userVerify text suffix buff ↔ suffix = [] := by
  constructor
  · intro reads
    by_contra more
    exact not_readsExactly wellFormed bodiless valid holds more reads
  · intro empty
    subst empty
    obtain ⟨later, valid', left, exits⟩ := @exits_head userVerify _ _ _ wellFormed bodiless valid holds
    rw [if_pos rfl] at exits
    have parsed := exits _ (.leave (pass_finished rfl))
    have line := lineRequest_eq text
    refine ⟨_, later, parsed, rfl, ?_, lineRequest_path text, ?_, rfl, ?_, valid', left⟩
    · show (lineRequest text).method = text.method
      rw [line]
    · show (lineRequest text).version = text.version
      rw [line]
    · show (lineRequest text).body = []
      rw [line]

/-- A request for the page to log in. -/
def loginPage : RequestText where
  method := ascii "GET"
  target := ascii "/login"
  version := ascii "1.1"
  headers := [{ name := ascii "Host", value := ascii "a" }]

theorem loginPage_wellFormed : loginPage.WellFormed where
  methodBlank := by decide
  targetBlank := by decide
  versionBlank := by decide
  methodLine := by decide
  targetLine := by decide
  versionLine := by decide
  headers := by
    intro header member
    obtain rfl := List.mem_singleton.mp member
    exact ⟨by decide, by decide, by decide, by decide, fun unblank => by cases unblank⟩
  announced := .inl rfl

/-- A buffer that has just been filled. -/
def filled (bytes : Bytes) : Buffer := { buffer := bytes, writePos := bytes.length }

theorem filled_content (bytes : Bytes) : (filled bytes).content = bytes := List.take_length

theorem readsExactly_loginPage : ReadsExactly (fun _ _ _ => none) loginPage [] (filled (loginPage.render ++ [])) :=
  (readsExactly_iff loginPage_wellFormed rfl [] _ ⟨by decide, by decide, by decide⟩ (filled_content _)).mpr rfl

/-- The request line of the next request becomes the body. -/
theorem pipelined_swallowed :
    ¬ ∀ (text : RequestText) (suffix : Bytes) (userVerify : Verifier) (buff : Buffer), text.WellFormed → text.body = [] →
      text.headers ≠ [] → buff.Valid → buff.content = text.render ++ suffix → ReadsExactly userVerify text suffix buff := by
  intro reads
  have valid : (filled (loginPage.render ++ loginPage.render)).Valid := ⟨by decide, by decide, by decide⟩
  have content := filled_content (loginPage.render ++ loginPage.render)
  apply not_readsExactly loginPage_wellFormed rfl valid content (by decide)
  exact reads loginPage loginPage.render (fun _ _ _ => none) _ loginPage_wellFormed rfl (by decide) valid content

end HttpRequest

namespace HttpConn

variable {env : Environment} {conn next : HttpConn}

/-- Bytes have come into the read buffer, and nothing else has changed. -/
structure Delivers (conn : HttpConn) (data : Bytes) (next : HttpConn) : Prop where
  valid : next.readBuff.Valid
  content : next.readBuff.content = conn.readBuff.content ++ data
  others : next = { conn with readBuff := next.readBuff }

def Readv.data : Readv → Bytes
  | .received data => data
  | .failed _ => []

/-- Whatever `readv` brings is delivered. -/
theorem read_delivers {isET : Bool} {results : List Readv} {ret : Readv} (valid : conn.readBuff.Valid)
    (taken : conn.read isET results = some (.ok (next, ret))) : conn.Delivers (results.flatMap Readv.data) next := by
  induction results generalizing conn with
  | nil => cases taken
  | cons result results ih =>
    cases result with
    | failed eagain =>
      rw [read] at taken
      split at taken
      next last =>
        cases taken
        subst last
        exact ⟨valid, by simp [Readv.data], rfl⟩
      next => cases taken
    | received data =>
      rw [read] at taken
      split at taken
      · cases taken
      next fits =>
        split at taken
        · split at taken <;> cases taken
        next readBuff got =>
          have received : readBuff.Valid ∧ readBuff.content = conn.readBuff.content ++ data := by
            rcases valid.readFd (not_lt.mp fits) with ⟨buff, same, valid', content⟩ | ⟨_, _, failed, _⟩
            · cases same.symm.trans got
              exact ⟨valid', content⟩
            · cases failed.symm.trans got
          split at taken
          next =>
            have rest := @ih { conn with readBuff } received.1 taken
            refine ⟨rest.valid, ?_, rest.others⟩
            rw [rest.content, List.flatMap_cons, ← List.append_assoc]
            exact congrArg (· ++ _) received.2
          next =>
            split at taken
            next last =>
              cases taken
              subst last
              exact ⟨received.1, by simpa [Readv.data] using received.2, rfl⟩
            next => cases taken

/-- The request need not be complete: bytes of whatever kind are answered. -/
theorem process_answers {produced : Bool} (nonempty : conn.readBuff.readableBytes ≠ 0)
    (processed : conn.process env = .ok (produced, next)) : produced = true := by
  simp only [process, nonempty, if_false] at processed
  obtain ⟨⟨parsed, request, readBuff⟩, _, rest⟩ := Fallible.bind_ok processed
  simp only at rest
  split at rest
  · obtain ⟨_, _, rest⟩ := Fallible.bind_ok rest
    cases rest
    rfl
  · obtain ⟨_, _, rest⟩ := Fallible.bind_ok rest
    cases rest
    rfl

theorem Delivers.answered {data : Bytes} (delivered : conn.Delivers data next) (nonempty : data ≠ []) (waiting : HttpConn) :
    next.process env ≠ .ok (false, waiting) := by
  intro silent
  have readable : next.readBuff.readableBytes ≠ 0 := by
    rw [Ne, HttpRequest.readable_eq_zero delivered.valid, delivered.content]
    simp [nonempty]
  cases process_answers readable silent

/-- The two parts of a text lead to no response after the first, and after the second to the
request that the whole text leads to. -/
def SplitAgnostic (env : Environment) (conn : HttpConn) (first second : Bytes) : Prop :=
  ∃ begun waiting resumed answered whole served, conn.Delivers first begun ∧ begun.process env = .ok (false, waiting) ∧
    waiting.Delivers second resumed ∧ resumed.process env = .ok (true, answered) ∧
    conn.Delivers (first ++ second) whole ∧ whole.process env = .ok (true, served) ∧
    answered.request.method = served.request.method ∧ answered.request.path = served.request.path ∧
    answered.request.version = served.request.version ∧ answered.request.header = served.request.header ∧
    answered.request.body = served.request.body

/-- Wherever a text is split, and whatever the text, its first part is answered. -/
theorem never_splitAgnostic (env : Environment) (conn : HttpConn) {first : Bytes} (nonempty : first ≠ []) (second : Bytes) :
    ¬ SplitAgnostic env conn first second := by
  intro ⟨_, waiting, _, _, _, _, delivered, silent, _⟩
  exact delivered.answered nonempty waiting silent

/-- A server with nothing on its disk. -/
def emptyServer : Environment where
  files := { disk := Storage.Disk.fresh [], othersRead := fun _ => true }
  userVerify := fun _ _ _ => none
  srcDir := ascii "/resources/"
  isET := true

def freshConn : HttpConn := { readBuff := { buffer := List.replicate 1024 0 }, writeBuff := { buffer := List.replicate 1024 0 } }

theorem freshConn_valid : freshConn.readBuff.Valid where
  read := Nat.le_refl 0
  write := Nat.zero_le _
  size := by
    rw [freshConn, List.length_replicate]
    decide

open HttpRequest in
theorem never_splitAgnostic_loginPage :
    ¬ SplitAgnostic emptyServer freshConn (loginPage.render.take 30) (loginPage.render.drop 30) :=
  never_splitAgnostic _ _ (by decide) _

open HttpRequest in
/-- The page to log in is answered before the blank line has come. -/
theorem answered_too_early :
    ¬ ∀ (env : Environment) (conn : HttpConn) (text : RequestText) (first second : Bytes), text.WellFormed →
      conn.readBuff.Valid → conn.readBuff.content = [] → text.render = first ++ second → first ≠ [] → second ≠ [] →
      SplitAgnostic env conn first second := by
  intro agnostic
  obtain ⟨_, waiting, _, _, _, _, delivered, silent, _⟩ := agnostic emptyServer freshConn loginPage (loginPage.render.take 30)
    (loginPage.render.drop 30) loginPage_wellFormed freshConn_valid rfl (List.take_append_drop 30 _).symm
    (by decide) (by decide)
  exact delivered.answered (by decide) waiting silent

end HttpConn

end HttpFramework.Code
