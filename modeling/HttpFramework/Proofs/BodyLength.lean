import HttpFramework.Proofs.ParserChunks
import HttpFramework.Proofs.RequestFormat

/-! The length of a body, from the text of its header. What `stoi` makes of the text decides: a sign
and what follows the digits go unnoticed, and a negative number becomes a length of nearly 2^64. -/

namespace HttpFramework.Http
open Loop

/-- The text of the header, or nothing. -/
def declaredLength (request : HttpRequest) : Bytes := request.getHeader (ascii "Content-Length")

/-- What becomes of the blank line and the bytes behind it. -/
def afterBlank (request : HttpRequest) (rest : Bytes) : Parsed :=
  if declaredLength request = [] then ⟨.returned false, ⟨.kExpectHeaders, request⟩, rest⟩
  else
    match stoi (declaredLength request) with
    | .error exception => ⟨.threw exception, ⟨.kExpectHeaders, request⟩, CRLF ++ rest⟩
    | .ok value =>
      let length := toSizeT value
      let request := request.setContentLength length
      if length = 0 then ⟨.returned true, ⟨.kGotAll, request⟩, rest⟩
      else if rest.length < length then ⟨.returned true, ⟨.kExpectBody, request⟩, rest⟩
      else ⟨.returned true, ⟨.kGotAll, request.setBody (rest.take length)⟩, rest.drop length⟩

/-- However the blank line and the bytes behind it are cut, the request is complete with the given
number of bytes in its body as soon as they are there, and until then more are waited for. -/
def ReadsBody (request : HttpRequest) (length : Nat) : Prop :=
  ∀ first chunks rest, ((first :: chunks).map Prod.fst).flatten = CRLF ++ rest →
    ∃ parsed, feed ⟨.kExpectHeaders, request⟩ [] first chunks = some parsed ∧ parsed.verdict = .returned true ∧
      if length ≤ rest.length then
        parsed.context.gotAll = true ∧ parsed.context.request.content = rest.take length ∧ parsed.unread = rest.drop length
      else
        parsed.paused.isSome = true

/-- The blank line is refused, whatever stands behind it. -/
def RefusesBlank (request : HttpRequest) : Prop :=
  ∀ first chunks rest, ((first :: chunks).map Prod.fst).flatten = CRLF ++ rest →
    ∃ parsed, feed ⟨.kExpectHeaders, request⟩ [] first chunks = some parsed ∧
      (parsed.verdict = .returned false ∨ ∃ exception, parsed.verdict = .threw exception)

/-- The length is a plain number, and a body of this length is read, or the request is refused. -/
def FramesBody (request : HttpRequest) : Prop :=
  (∃ length, WireRequest.IsLength (declaredLength request) length ∧ length ≤ 2 ^ 31 - 1 ∧ ReadsBody request length) ∨
    RefusesBlank request

section
variable {request : HttpRequest} {rest : Bytes}

theorem exits_blank (body : request.method.HasBody) (receiveTime : Timestamp) (rest : Bytes) :
    Exits (HttpContext.parsePass receiveTime) (⟨.kExpectHeaders, request⟩, CRLF ++ rest) (afterBlank request rest) := by
  have blank := HttpContext.parsePass_blank receiveTime request rest
  have needed : request.method = .kPost ∨ request.method = .kPut := body
  simp only [HttpContext.endHeaders, needed, if_true] at blank
  rw [afterBlank, declaredLength]
  by_cases missing : request.getHeader (ascii "Content-Length") = []
  · rw [if_pos missing]
    rw [if_neg (not_not.mpr missing)] at blank
    exact .leave blank
  · rw [if_neg missing]
    rw [if_pos missing] at blank
    cases converted : stoi (request.getHeader (ascii "Content-Length")) with
    | error exception =>
      rw [converted] at blank
      exact .leave blank
    | ok value =>
      rw [converted] at blank
      have stored : (request.setContentLength (toSizeT value)).contentLength = toSizeT value := rfl
      dsimp only at blank ⊢
      rw [stored] at blank
      by_cases zero : toSizeT value = 0
      · rw [if_pos zero]
        rw [if_neg (fun positive : 0 < toSizeT value => absurd zero positive.ne')] at blank
        exact .leave blank
      · rw [if_neg zero]
        rw [if_pos (show 0 < toSizeT value from Nat.pos_of_ne_zero zero)] at blank
        refine .again blank (.leave ?_)
        simp only [HttpContext.parsePass, stored]
        by_cases short : rest.length < toSizeT value
        · simp only [short, if_true]
        · simp only [short, if_false]

theorem afterBlank_untimed (request : HttpRequest) (rest : Bytes) :
    afterBlank request.untimed rest = (afterBlank request rest).untimed := by
  have declared : declaredLength request.untimed = declaredLength request := rfl
  rw [afterBlank, afterBlank, declared]
  split
  · rfl
  · cases stoi (declaredLength request) with
    | error exception => rfl
    | ok value =>
      dsimp only
      split
      · rfl
      · split <;> rfl

/-- However the bytes are cut, they are taken as at once. -/
theorem feed_blank (body : request.method.HasBody) {first : Chunk} {chunks : List Chunk}
    (cut : ((first :: chunks).map Prod.fst).flatten = CRLF ++ rest) :
    ∃ parsed, feed ⟨.kExpectHeaders, request⟩ [] first chunks = some parsed ∧
      parsed.untimed = (afterBlank request rest).untimed := by
  obtain ⟨parsed, fed, exits⟩ := feed_exits chunks first ⟨.kExpectHeaders, request⟩ [] (by simp)
  refine ⟨parsed, fed, ?_⟩
  rw [List.nil_append, cut] at exits
  have body' : request.untimed.method.HasBody := body
  rw [← afterBlank_untimed]
  exact exits.unique (exits_blank body' 0 rest)

/-- All but the time of receipt is the same. -/
theorem same_of_untimed {parsed other : Parsed} (same : parsed.untimed = other.untimed) :
    parsed.verdict = other.verdict ∧ parsed.context.gotAll = other.context.gotAll ∧
      parsed.context.request.content = other.context.request.content ∧ parsed.unread = other.unread ∧
      parsed.paused.isSome = other.paused.isSome := by
  have verdict : parsed.untimed.verdict = other.untimed.verdict := by rw [same]
  have gotAll : parsed.untimed.context.gotAll = other.untimed.context.gotAll := by rw [same]
  have content : parsed.untimed.context.request.content = other.untimed.context.request.content := by rw [same]
  have unread : parsed.untimed.unread = other.untimed.unread := by rw [same]
  have paused : parsed.untimed.paused.isSome = other.untimed.paused.isSome := by rw [same]
  rw [Parsed.paused_untimed, Parsed.paused_untimed, Option.isSome_map, Option.isSome_map] at paused
  exact ⟨verdict, gotAll, content, unread, paused⟩

/-- What `stoi` has read is believed. -/
theorem afterBlank_of_ok {value : Int} (present : declaredLength request ≠ []) (read : stoi (declaredLength request) = .ok value)
    (rest : Bytes) : (afterBlank request rest).verdict = .returned true ∧
      if toSizeT value ≤ rest.length then
        (afterBlank request rest).context.gotAll = true ∧ (afterBlank request rest).unread = rest.drop (toSizeT value) ∧
          (afterBlank request rest).context.request.content =
            if toSizeT value = 0 then request.content else rest.take (toSizeT value)
      else
        (afterBlank request rest).paused.isSome = true := by
  rw [afterBlank, if_neg present, read]
  dsimp only
  by_cases zero : toSizeT value = 0
  · rw [if_pos zero, zero]
    exact ⟨rfl, rfl, rfl, rfl⟩
  · rw [if_neg zero]
    by_cases short : rest.length < toSizeT value
    · rw [if_pos short, if_neg (by omega)]
      exact ⟨rfl, rfl⟩
    · rw [if_neg short, if_pos (by omega), if_neg zero]
      exact ⟨rfl, rfl, rfl, rfl⟩

theorem refusesBlank_iff (body : request.method.HasBody) :
    RefusesBlank request ↔ declaredLength request = [] ∨ ∃ exception, stoi (declaredLength request) = .error exception := by
  constructor
  · intro refuses
    by_contra! accepts
    obtain ⟨present, reads⟩ := accepts
    obtain ⟨parsed, fed, refused⟩ := refuses (CRLF, 0) [] [] (by simp)
    obtain ⟨parsed', fed', same⟩ := @feed_blank request [] body (CRLF, 0) [] (by simp)
    cases fed.symm.trans fed'
    have verdict := (same_of_untimed same).1
    cases read : stoi (declaredLength request) with
    | error exception => exact reads exception read
    | ok value =>
      rw [verdict, (afterBlank_of_ok present read []).1] at refused
      simp at refused
  · intro refused first chunks rest cut
    obtain ⟨parsed, fed, same⟩ := feed_blank body cut
    refine ⟨parsed, fed, ?_⟩
    rw [(same_of_untimed same).1, afterBlank]
    rcases refused with missing | ⟨exception, thrown⟩
    · rw [if_pos missing]
      exact .inl rfl
    · split
      · exact .inl rfl
      · rw [thrown]
        exact .inr ⟨exception, rfl⟩

/-- An empty body is not stored, so that what was there before stays. -/
theorem readsBody_iff (body : request.method.HasBody) {length : Nat} (number : WireRequest.IsLength (declaredLength request) length)
    (small : length ≤ 2 ^ 31 - 1) : ReadsBody request length ↔ (length = 0 → request.content = []) := by
  have read := stoi_of_isLength number (by omega)
  have size : toSizeT length = length := toSizeT_natCast (by omega)
  have taken := fun rest => afterBlank_of_ok number.nonempty read rest
  rw [size] at taken
  constructor
  · intro reads zero
    subst zero
    obtain ⟨parsed, fed, _, complete⟩ := reads (CRLF, 0) [] [] (by simp)
    obtain ⟨parsed', fed', same⟩ := @feed_blank request [] body (CRLF, 0) [] (by simp)
    cases fed.symm.trans fed'
    have content := (same_of_untimed same).2.2.1
    rw [if_pos (Nat.zero_le _)] at complete
    rw [complete.2.1, (taken []).2.2.2] at content
    exact content.symm
  · intro kept first chunks rest cut
    obtain ⟨parsed, fed, same⟩ := feed_blank body cut
    obtain ⟨verdict, gotAll, content, unread, paused⟩ := same_of_untimed same
    obtain ⟨accepted, outcome⟩ := taken rest
    refine ⟨parsed, fed, verdict.trans accepted, ?_⟩
    rw [gotAll, content, unread, paused]
    by_cases enough : length ≤ rest.length
    · rw [if_pos enough] at outcome ⊢
      refine ⟨outcome.1, outcome.2.2.trans ?_, outcome.2.1⟩
      by_cases zero : length = 0
      · rw [if_pos zero, kept zero, zero, List.take_zero]
      · rw [if_neg zero]
    · rw [if_neg enough] at outcome ⊢
      exact outcome

/-- The body is framed as it should be exactly if `stoi` reads no number, or reads all of the text as
one; an empty body must not find another in its place. -/
theorem framesBody_iff (body : request.method.HasBody) : FramesBody request ↔
    (declaredLength request = [] ∨ ∃ exception, stoi (declaredLength request) = .error exception) ∨
      ∃ length, WireRequest.IsLength (declaredLength request) length ∧ length ≤ 2 ^ 31 - 1 ∧
        (length = 0 → request.content = []) := by
  rw [FramesBody, refusesBlank_iff body, or_comm]
  refine or_congr_right (exists_congr fun length => and_congr_right fun number => and_congr_right fun small => ?_)
  exact readsBody_iff body number small

/-- The request line and one header, as they are left after a call. -/
def negative : HttpRequest where
  method := .kPost
  version := ascii "HTTP/1.1"
  path := ascii "/"
  headers := (∅ : Dict).insert (ascii "Content-Length") (ascii "-1")

theorem framesBody_negative : FramesBody negative ↔
    (declaredLength negative = [] ∨ ∃ exception, stoi (declaredLength negative) = .error exception) ∨
      ∃ length, WireRequest.IsLength (declaredLength negative) length ∧ length ≤ 2 ^ 31 - 1 ∧
        (length = 0 → negative.content = []) :=
  framesBody_iff (.inl rfl)

/-- A body of 2^64 - 1 bytes is waited for. -/
theorem negative_length_read : ¬ ∀ bytes receiveTime request,
    HttpContext.parseRequest {} bytes receiveTime = some ⟨.returned true, ⟨.kExpectHeaders, request⟩, []⟩ →
      request.method.HasBody → FramesBody request := by
  intro frames
  have reached : HttpContext.parseRequest {} (ascii "POST / HTTP/1.1" ++ CRLF ++ ascii "Content-Length: -1" ++ CRLF) 0 =
      some ⟨.returned true, ⟨.kExpectHeaders, negative⟩, []⟩ := by decide
  have converted : stoi (declaredLength negative) = .ok (-1) := by decide
  rcases frames _ 0 negative reached (.inl rfl) with ⟨length, number, -⟩ | refuses
  · have digit := number.digits (chr '-') (by decide)
    exact absurd digit (by decide)
  · rcases (refusesBlank_iff (.inl rfl)).mp refuses with missing | ⟨exception, thrown⟩
    · exact absurd missing (by decide)
    · exact nomatch converted.symm.trans thrown

end

end HttpFramework.Http
