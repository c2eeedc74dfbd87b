import HttpFramework.Code.HttpConn
import HttpFramework.Library.Fallible
import HttpFramework.Proofs.BufferQueue
import HttpFramework.Proofs.RequestFormat

/-! The response as its receiver reads it: lines up to a blank one, and what stands behind it. The
texts that `MakeResponse` appends are such a response, with one line for the length. -/

namespace HttpFramework.Code
open Search

/-- The lines up to the blank one, and the bytes behind it. -/
structure Reply where
  lines : List Bytes
  behind : Bytes
deriving DecidableEq

namespace Reply

def render (reply : Reply) : Bytes := (reply.lines.flatMap fun line => line ++ CRLF) ++ CRLF ++ reply.behind

def readLines : Nat → Bytes → Option Reply
  | 0, _ => none
  | fuel + 1, text => do
    let place ← firstPair CR LF text
    let rest := text.drop (place + 2)
    if place = 0 then return { lines := [], behind := rest }
    else
      let reply ← readLines fuel rest
      return { reply with lines := text.take place :: reply.lines }

/-- Every line takes two bytes at least. -/
def read (text : Bytes) : Option Reply := readLines text.length text

/-- The second word of the status line. -/
def status (reply : Reply) : Option Bytes := reply.lines.head?.bind fun line => (line.splitOn (chr ' '))[1]?

def contentLength (reply : Reply) : Option Bytes :=
  (reply.lines.find? (ascii "Content-length: ").isPrefixOf).map (List.drop 16)

theorem readLines_render {reply : Reply} (lines : ∀ line ∈ reply.lines, line ≠ [] ∧ Unbroken CR LF line) {fuel : Nat}
    (enough : reply.lines.length < fuel) : readLines fuel reply.render = some reply := by
  obtain ⟨all, behind⟩ := reply
  induction all generalizing fuel with
  | nil =>
    obtain ⟨fuel, rfl⟩ := Nat.exists_eq_add_of_lt enough
    rfl
  | cons line rest ih =>
    obtain ⟨fuel, rfl⟩ := Nat.exists_eq_succ_of_ne_zero (Nat.ne_of_gt (Nat.zero_lt_of_lt enough))
    obtain ⟨nonempty, unbroken⟩ := lines line List.mem_cons_self
    have shape : render ⟨line :: rest, behind⟩ = line ++ CR :: LF :: render ⟨rest, behind⟩ := by
      simp [render, CRLF]
    have place := firstPair_line (show CR ≠ LF by decide) unbroken (render ⟨rest, behind⟩)
    have later := ih (fun line member => lines line (List.mem_cons_of_mem _ member)) (Nat.lt_of_succ_lt_succ enough)
    have left : (line ++ CR :: LF :: render ⟨rest, behind⟩).drop (line.length + 2) = render ⟨rest, behind⟩ := by
      rw [← List.drop_drop, List.drop_left]
      rfl
    rw [shape, readLines, place]
    simp [left, later, List.length_eq_zero_iff, nonempty]

theorem read_render {reply : Reply} (lines : ∀ line ∈ reply.lines, line ≠ [] ∧ Unbroken CR LF line) :
    read reply.render = some reply := by
  apply readLines_render lines
  have two : CRLF.length = 2 := rfl
  have each : ∀ lines : List Bytes, lines.length ≤ (lines.flatMap fun line => line ++ CRLF).length := by
    intro lines
    induction lines with
    | nil => exact Nat.le_refl _
    | cons line rest ih =>
      rw [List.flatMap_cons, List.length_append, List.length_append, List.length_cons, two]
      omega
  have most := each reply.lines
  rw [render, List.length_append, List.length_append, two]
  omega

end Reply

theorem unbroken_of_absent {line : Bytes} (absent : CR ∉ line) : Unbroken CR LF line :=
  fun occurs => absent (occurs.subset List.mem_cons_self)

theorem return_not_mem_decimal (n : Nat) : CR ∉ decimal n :=
  fun member => absurd ((Http.isLength_decimal n).digits CR member) (by decide)

namespace HttpResponse

variable {files : Files} {response made : HttpResponse} {texts : List Bytes}

def statusLine (status : Int × Bytes) : Bytes := ascii "HTTP/1.1 " ++ decimalInt status.1 ++ ascii " " ++ status.2

def headerLines (response : HttpResponse) : List Bytes :=
  (if response.isKeepAlive then [ascii "Connection: keep-alive", ascii "keep-alive: max=6, timeout=120"]
    else [ascii "Connection: close"]) ++ [ascii "Content-type: " ++ response.getFileType]

def lengthLine (length : Nat) : Bytes := ascii "Content-length: " ++ decimal length

/-- The response as a whole. -/
def reply (response : HttpResponse) (status : Int × Bytes) (length : Nat) (behind : Bytes) : Reply where
  lines := statusLine status :: response.headerLines ++ [lengthLine length]
  behind := behind

theorem getFileType_plain (response : HttpResponse) : CR ∉ response.getFileType ∧ response.getFileType.length ≤ 30 := by
  have types : ∀ type ∈ SUFFIX_TYPE.map Prod.snd, CR ∉ type ∧ type.length ≤ 30 := by decide
  have plain : CR ∉ ascii "text/plain" ∧ (ascii "text/plain").length ≤ 30 := by decide
  have known : ∀ suffix, CR ∉ (SUFFIX_TYPE.lookup suffix).getD (ascii "text/plain") ∧
      ((SUFFIX_TYPE.lookup suffix).getD (ascii "text/plain")).length ≤ 30 := by
    intro suffix
    cases found : SUFFIX_TYPE.lookup suffix with
    | none => exact plain
    | some type =>
      obtain ⟨before, after, shape, _⟩ := List.lookup_eq_some_iff.mp found
      exact types type (List.mem_map.mpr ⟨(suffix, type), by rw [shape]; exact List.mem_append_right _ List.mem_cons_self, rfl⟩)
  rw [getFileType]
  split
  · exact known _
  · exact plain

theorem headerLines_plain (response : HttpResponse) : ∀ line ∈ response.headerLines, line ≠ [] ∧ Unbroken CR LF line := by
  intro line member
  rw [headerLines] at member
  rcases List.mem_append.mp member with connection | type
  · have fixed : ∀ line ∈ [ascii "Connection: keep-alive", ascii "keep-alive: max=6, timeout=120", ascii "Connection: close"],
        line ≠ [] ∧ Unbroken CR LF line := by decide
    apply fixed
    split at connection
    · exact List.mem_append_left [ascii "Connection: close"] connection
    · rw [List.mem_singleton.mp connection]
      simp
  · rw [List.mem_singleton.mp type]
    refine ⟨by simp [ascii], unbroken_of_absent fun member => ?_⟩
    rcases List.mem_append.mp member with name | value
    · exact absurd name (by decide)
    · exact response.getFileType_plain.1 value

theorem lengthLine_plain (length : Nat) : lengthLine length ≠ [] ∧ Unbroken CR LF (lengthLine length) := by
  refine ⟨by simp [lengthLine, ascii], unbroken_of_absent fun member => ?_⟩
  rcases List.mem_append.mp member with name | value
  · exact absurd name (by decide)
  · exact return_not_mem_decimal length value

theorem statusLine_plain {status : Int × Bytes} (known : status ∈ CODE_STATUS) :
    statusLine status ≠ [] ∧ Unbroken CR LF (statusLine status) ∧
      ((statusLine status).splitOn (chr ' '))[1]? = some (decimalInt status.1) ∧
        (ascii "Content-length: ").isPrefixOf (statusLine status) = false := by
  have all : ∀ status ∈ CODE_STATUS, statusLine status ≠ [] ∧ Unbroken CR LF (statusLine status) ∧
      ((statusLine status).splitOn (chr ' '))[1]? = some (decimalInt status.1) ∧
        (ascii "Content-length: ").isPrefixOf (statusLine status) = false := by decide
  exact all status known

theorem headerLines_other (response : HttpResponse) :
    ∀ line ∈ response.headerLines, (ascii "Content-length: ").isPrefixOf line = false := by
  intro line member
  rw [headerLines] at member
  rcases List.mem_append.mp member with connection | type
  · have fixed : ∀ line ∈ [ascii "Connection: keep-alive", ascii "keep-alive: max=6, timeout=120", ascii "Connection: close"],
        (ascii "Content-length: ").isPrefixOf line = false := by decide
    apply fixed
    split at connection
    · exact List.mem_append_left [ascii "Connection: close"] connection
    · rw [List.mem_singleton.mp connection]
      simp
  · rw [List.mem_singleton.mp type]
    rfl

/-- The response is read as it is. -/
theorem read_reply {status : Int × Bytes} (known : status ∈ CODE_STATUS) (length : Nat) (behind : Bytes) :
    Reply.read (response.reply status length behind).render = some (response.reply status length behind) ∧
      (response.reply status length behind).status = some (decimalInt status.1) ∧
        (response.reply status length behind).contentLength = some (decimal length) := by
  obtain ⟨nonempty, unbroken, code, other⟩ := statusLine_plain known
  refine ⟨Reply.read_render ?_, code, ?_⟩
  · intro line member
    rcases List.mem_append.mp member with front | last
    · rcases List.mem_cons.mp front with rfl | header
      · exact ⟨nonempty, unbroken⟩
      · exact response.headerLines_plain line header
    · rw [List.mem_singleton.mp last]
      exact lengthLine_plain length
  · have passed : (statusLine status :: response.headerLines).find? (ascii "Content-length: ").isPrefixOf = none := by
      rw [List.find?_eq_none]
      intro line member
      rcases List.mem_cons.mp member with rfl | header
      · simp [other]
      · simp [response.headerLines_other line header]
    have found : (ascii "Content-length: ").isPrefixOf (lengthLine length) = true :=
      List.isPrefixOf_iff_prefix.mpr (List.prefix_append _ _)
    have value : (lengthLine length).drop (ascii "Content-length: ").length = decimal length := List.drop_left
    rw [Reply.contentLength, reply]
    simp only [List.find?_append, passed, List.find?_cons, found, Option.none_or, Option.map_some]
    exact congrArg some value

/-- The texts that make the response up. -/
theorem addStateLine_text (response : HttpResponse) :
    ∃ status ∈ CODE_STATUS, response.addStateLine.2 = [statusLine status ++ CRLF] ∧
      response.addStateLine.1 = { response with code := status.1 } ∧
        ((CODE_STATUS.lookup response.code).isSome → status.1 = response.code) := by
  rw [addStateLine]
  split
  next status found =>
    obtain ⟨before, after, shape, _⟩ := List.lookup_eq_some_iff.mp found
    refine ⟨(response.code, status), ?_, rfl, rfl, fun _ => rfl⟩
    rw [shape]
    exact List.mem_append_right _ List.mem_cons_self
  next unknown => exact ⟨(400, ascii "Bad Request"), by decide, rfl, rfl, fun known => by rw [unknown] at known; cases known⟩

theorem addHeader_text (response : HttpResponse) :
    response.addHeader.flatten = response.headerLines.flatMap fun line => line ++ CRLF := by
  rw [addHeader, headerLines]
  cases response.isKeepAlive <;> simp [ascii]

/-- The page that is made where there is none to be sent. -/
def errorBody (code : Int) (message : Bytes) : Bytes :=
  ascii "<html><title>Error</title>" ++ ascii "<body bgcolor=\"ffffff\">" ++ decimalInt code ++ ascii " : " ++
    (CODE_STATUS.lookup code).getD (ascii "Bad Request") ++ ascii "\n" ++ ascii "<p>" ++ message ++ ascii "</p>" ++
    ascii "<hr><em>TinyWebServer</em></body></html>"

theorem errorContent_text (response : HttpResponse) (message : Bytes) :
    (response.errorContent message).flatten =
      lengthLine (errorBody response.code message).length ++ CRLF ++ CRLF ++ errorBody response.code message := by
  rw [errorContent, List.flatten_cons, List.flatten_cons, List.flatten_nil, List.append_nil]
  rfl

/-- Of what `AddContent_` brings the length is that of the file behind it or of a page of its own. -/
theorem addContent_text (added : response.addContent files = .ok (made, texts)) :
    (made = response ∧ texts.flatten = lengthLine (errorBody response.code (ascii "File NotFound!")).length ++ CRLF ++ CRLF ++
        errorBody response.code (ascii "File NotFound!") ∧
        ∀ content mapping, files.openRead response.fileName = some content →
          files.mmap response.fileName response.fileLen content = some mapping → startsWithMinusOne mapping = true) ∨
      ∃ content mapping, files.openRead response.fileName = some content ∧
        files.mmap response.fileName response.fileLen content = some mapping ∧ startsWithMinusOne mapping = false ∧
        made = { response with mmFile := some mapping } ∧ texts.flatten = lengthLine response.fileLen ++ CRLF ++ CRLF := by
  rw [addContent] at added
  split at added
  next closed =>
    cases added
    refine .inl ⟨rfl, response.errorContent_text _, ?_⟩
    intro content mapping opened
    rw [closed] at opened
    cases opened
  next content opened =>
    split at added
    next => cases added
    next mapping mapped =>
      split at added
      next starts =>
        cases added
        refine .inl ⟨rfl, response.errorContent_text _, ?_⟩
        intro content' mapping' opened' mapped'
        cases opened.symm.trans opened'
        cases mapped.symm.trans mapped'
        exact starts
      next starts =>
        cases added
        exact .inr ⟨content, mapping, opened, mapped, Bool.eq_false_of_not_eq_true starts, rfl, by simp [lengthLine]⟩

/-- The response once its code and its file are settled. -/
def settled (files : Files) (response : HttpResponse) : HttpResponse :=
  ((response.chooseCode files).errorHtml files).addStateLine.1

/-- What `MakeResponse` appends is a response with the code that it has settled on. A file is mapped for
it, or a page stands behind the header. -/
theorem makeResponse_reply (done : response.makeResponse files = .ok (made, texts)) :
    ∃ status ∈ CODE_STATUS, status.1 = (response.settled files).code ∧
      ((made = response.settled files ∧ texts.flatten = ((response.settled files).reply status
          (errorBody status.1 (ascii "File NotFound!")).length (errorBody status.1 (ascii "File NotFound!"))).render ∧
          ∀ content mapping, files.openRead (response.settled files).fileName = some content →
            files.mmap (response.settled files).fileName (response.settled files).fileLen content = some mapping →
            startsWithMinusOne mapping = true) ∨
        ∃ content mapping, files.openRead (response.settled files).fileName = some content ∧
          files.mmap (response.settled files).fileName (response.settled files).fileLen content = some mapping ∧
          startsWithMinusOne mapping = false ∧ made = { response.settled files with mmFile := some mapping } ∧
          texts.flatten = ((response.settled files).reply status (response.settled files).fileLen []).render) := by
  obtain ⟨status, known, line, coded, _⟩ := addStateLine_text ((response.chooseCode files).errorHtml files)
  obtain ⟨⟨sent, content⟩, added, rest⟩ := Fallible.bind_ok done
  cases rest
  have code : status.1 = (response.settled files).code := by rw [settled, coded]
  have whole : ∀ length behind, content.flatten = lengthLine length ++ CRLF ++ CRLF ++ behind →
      (((response.chooseCode files).errorHtml files).addStateLine.2 ++ (response.settled files).addHeader ++ content).flatten =
        ((response.settled files).reply status length behind).render := by
    intro length behind same
    rw [List.flatten_append, List.flatten_append, line, addHeader_text, same, reply, Reply.render]
    simp
  refine ⟨status, known, code, ?_⟩
  rcases addContent_text added with ⟨rfl, page, refused⟩ | ⟨content, mapping, opened, mapped, starts, rfl, empty⟩
  · exact .inl ⟨rfl, whole _ _ (code ▸ page), refused⟩
  · exact .inr ⟨content, mapping, opened, mapped, starts, rfl, whole _ _ (by rw [List.append_nil]; exact empty)⟩

/-- What `MakeResponse` appends, as it is read. -/
theorem makeResponse_read (done : response.makeResponse files = .ok (made, texts)) :
    ∃ reply, Reply.read texts.flatten = some reply ∧ reply.status = some (decimalInt (response.settled files).code) ∧
      ((made = response.settled files ∧ reply.behind = errorBody (response.settled files).code (ascii "File NotFound!") ∧
          reply.contentLength = some (decimal reply.behind.length) ∧
          ∀ content mapping, files.openRead (response.settled files).fileName = some content →
            files.mmap (response.settled files).fileName (response.settled files).fileLen content = some mapping →
            startsWithMinusOne mapping = true) ∨
        ∃ content mapping, files.openRead (response.settled files).fileName = some content ∧
          files.mmap (response.settled files).fileName (response.settled files).fileLen content = some mapping ∧
          startsWithMinusOne mapping = false ∧ made = { response.settled files with mmFile := some mapping } ∧
          reply.behind = [] ∧ reply.contentLength = some (decimal (response.settled files).fileLen)) := by
  obtain ⟨status, known, code, cases⟩ := makeResponse_reply done
  have reads := fun length behind => @read_reply (response.settled files) status known length behind
  rcases cases with ⟨same, page, refused⟩ | ⟨content, mapping, opened, mapped, starts, same, whole⟩
  · obtain ⟨read, coded, announced⟩ := reads (errorBody status.1 (ascii "File NotFound!")).length _
    rw [page, ← code]
    exact ⟨_, read, coded, .inl ⟨same, rfl, announced, refused⟩⟩
  · obtain ⟨read, coded, announced⟩ := reads (response.settled files).fileLen []
    rw [whole, ← code]
    exact ⟨_, read, coded, .inr ⟨content, mapping, opened, mapped, starts, same, rfl, announced⟩⟩

end HttpResponse

end HttpFramework.Code
