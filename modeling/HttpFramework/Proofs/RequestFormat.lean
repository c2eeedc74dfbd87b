import HttpFramework.Proofs.ParserLoop

/-! The request format on the wire, and what the parser makes of a well-formed
request that starts at the front of the buffer. The request the parser starts from
need not be fresh: its body and content length are whatever was left there. -/

namespace HttpFramework.Http
open Loop Search

inductive Version where
  | http10 | http11
deriving DecidableEq, Repr

def Version.text : Version → Bytes
  | .http10 => ascii "HTTP/1.0"
  | .http11 => ascii "HTTP/1.1"

def Method.text : Method → Bytes
  | .kGet => ascii "GET"
  | .kPost => ascii "POST"
  | .kPut => ascii "PUT"
  | .kDelete => ascii "DELETE"
  | .kOptions => ascii "OPTIONS"
  | .kHead => ascii "HEAD"
  | .kInvalid => []

def Method.Supported (method : Method) : Prop :=
  method ∈ [Method.kGet, .kPost, .kPut, .kDelete, .kOptions]

/-- The methods whose requests have a body. -/
def Method.HasBody (method : Method) : Prop := method = .kPost ∨ method = .kPut

instance (method : Method) : Decidable method.Supported := inferInstanceAs (Decidable (_ ∈ _))
instance (method : Method) : Decidable method.HasBody := inferInstanceAs (Decidable (_ ∨ _))

/-- A request as it is written. A header is its key and the text after the colon. -/
structure WireRequest where
  method : Method
  target : Bytes
  version : Version
  headers : List (Bytes × Bytes)
  body : Bytes
deriving DecidableEq

namespace WireRequest

def requestLine (wire : WireRequest) : Bytes :=
  wire.method.text ++ chr ' ' :: (wire.target ++ chr ' ' :: wire.version.text)

def headerLine (header : Bytes × Bytes) : Bytes := header.1 ++ chr ':' :: header.2

def render (wire : WireRequest) : Bytes :=
  wire.requestLine ++ CRLF ++ (wire.headers.flatMap fun header => headerLine header ++ CRLF) ++ CRLF ++ wire.body

/-- The headers as the parser stores them: a repeated key keeps its last value. -/
def headerMap (start : Dict) (headers : List (Bytes × Bytes)) : Dict :=
  start.insertMany (headers.map fun header => (header.1, HttpRequest.trim header.2))

def declared (wire : WireRequest) : Bytes := (headerMap ∅ wire.headers)[ascii "Content-Length"]?.getD []

/-- The text is a plain decimal number. -/
structure IsLength (text : Bytes) (length : Nat) : Prop where
  nonempty : text ≠ []
  digits : ∀ d ∈ text, isdigit d
  value : decimalValue text = length

structure WellFormedHeader (header : Bytes × Bytes) : Prop where
  keyColon : chr ':' ∉ header.1
  keyLine : Unbroken CR LF header.1
  valueLine : Unbroken CR LF header.2

structure WellFormed (wire : WireRequest) : Prop where
  method : wire.method.Supported
  targetSpace : chr ' ' ∉ wire.target
  targetLine : Unbroken CR LF wire.target
  headers : ∀ header ∈ wire.headers, WellFormedHeader header
  bodyLength : wire.method.HasBody → IsLength wire.declared wire.body.length ∧ wire.body.length < 2 ^ 31
  noBody : ¬ wire.method.HasBody → wire.body = []

/-- The request after its request line, parsed from `start`. -/
def lineRequest (wire : WireRequest) (start : HttpRequest) : HttpRequest :=
  (HttpContext.storeTarget { start with method := wire.method } wire.target).setVersion wire.version.text

def headRequest (wire : WireRequest) (start : HttpRequest) (receiveTime : Timestamp) : HttpRequest :=
  let request := (wire.lineRequest start).setReceiveTime receiveTime
  { request with headers := headerMap start.headers wire.headers }

/-- The complete request. Without a body the old content stays, and without a
method that has one the old content length stays too. -/
def request (wire : WireRequest) (start : HttpRequest) (receiveTime : Timestamp) : HttpRequest :=
  let request := wire.headRequest start receiveTime
  if wire.method.HasBody then
    let request := request.setContentLength wire.body.length
    if wire.body = [] then request else request.setBody wire.body
  else
    request

end WireRequest

def targetQuery (parameters : Dict) (target : Bytes) : Dict :=
  if chr '?' ∈ target then
    let argumentStr := target.drop (target.idxOf (chr '?') + 1)
    HttpRequest.addParameters (argumentStr.length + 1) parameters argumentStr
  else
    parameters

theorem HttpContext.storeTarget_eq (request : HttpRequest) (target : Bytes) :
    HttpContext.storeTarget request target =
      { request with
        path := target.takeWhile (· != chr '?'), queryParameters := targetQuery request.queryParameters target } := by
  rw [← take_idxOf]
  by_cases query : chr '?' ∈ target
  · have inside := (List.idxOf_lt_length_of_mem query).ne
    simp only [HttpContext.storeTarget, targetQuery, query, inside, ne_eq, not_false_eq_true, if_true]
    rfl
  · have outside := List.idxOf_eq_length query
    simp only [HttpContext.storeTarget, targetQuery, query, outside, ne_eq, not_true, if_false, List.take_length]
    rfl

theorem findCRLF_line {line : Bytes} (unbroken : Unbroken CR LF line) (rest : Bytes) :
    findCRLF (line ++ CRLF ++ rest) = some line.length := by
  rw [List.append_assoc]
  exact firstPair_line (by decide) unbroken rest

theorem take_line (line rest : Bytes) : (line ++ CRLF ++ rest).take line.length = line := by
  rw [List.append_assoc, List.take_left]

theorem drop_line (line rest : Bytes) : (line ++ CRLF ++ rest).drop (line.length + 2) = rest := by
  have size : line.length + 2 = (line ++ CRLF).length := by simp [CRLF]
  rw [size, List.drop_left]

namespace HttpContext

theorem setMethod_text {start : HttpRequest} (fresh : start.method = .kInvalid) {method : Method}
    (supported : method.Supported) : start.setMethod method.text = some (true, { start with method }) := by
  unfold HttpRequest.setMethod
  rw [if_pos fresh]
  cases method with
  | kInvalid | kHead => exact absurd supported (by decide)
  | kGet | kPost | kPut | kDelete | kOptions => rfl

theorem acceptVersion_text (version : Version) : acceptVersion version.text = some version.text := by
  cases version <;> decide

theorem space_not_mem_text (method : Method) : chr ' ' ∉ method.text := by
  cases method <;> decide

theorem processRequestLine_render {wire : WireRequest} (supported : wire.method.Supported)
    (targetSpace : chr ' ' ∉ wire.target) {start : HttpRequest} (fresh : start.method = .kInvalid) :
    processRequestLine start wire.requestLine = some (true, wire.lineRequest start) := by
  have first := idxOf_join (space_not_mem_text wire.method) (wire.target ++ chr ' ' :: wire.version.text)
  have second := idxOf_join targetSpace wire.version.text
  have methodLength : wire.method.text.length ≠ wire.requestLine.length := by
    simp only [WireRequest.requestLine, List.length_append, List.length_cons]; omega
  have targetLength : wire.target.length ≠ (wire.target ++ chr ' ' :: wire.version.text).length := by
    simp only [List.length_append, List.length_cons]; omega
  have cut (before rest : Bytes) : (before ++ chr ' ' :: rest).drop (before.length + 1) = rest := by simp
  simp only [processRequestLine]
  rw [show wire.requestLine.idxOf (chr ' ') = wire.method.text.length from first, if_pos methodLength,
    show wire.requestLine.take wire.method.text.length = wire.method.text from List.take_left,
    setMethod_text fresh supported]
  dsimp only
  rw [show wire.requestLine.drop (wire.method.text.length + 1) = wire.target ++ chr ' ' :: wire.version.text
    from cut _ _, second, if_pos targetLength, List.take_left, cut, acceptVersion_text]
  rfl

variable {receiveTime : Timestamp}

theorem parsePass_header {key value : Bytes} (valid : WireRequest.WellFormedHeader (key, value))
    (request : HttpRequest) (rest : Bytes) :
    parsePass receiveTime (⟨.kExpectHeaders, request⟩, WireRequest.headerLine (key, value) ++ CRLF ++ rest) =
      .again (⟨.kExpectHeaders, { request with headers := request.headers.insert key (HttpRequest.trim value) }⟩,
        rest) := by
  have unbroken : Unbroken CR LF (WireRequest.headerLine (key, value)) :=
    valid.keyLine.join valid.valueLine (by decide) (by decide)
  have colon : (WireRequest.headerLine (key, value)).idxOf (chr ':') = key.length := idxOf_join valid.keyColon value
  have inside : key.length < (WireRequest.headerLine (key, value)).length := by
    simp only [WireRequest.headerLine, List.length_append, List.length_cons]; omega
  simp only [parsePass, findCRLF_line unbroken, take_line, drop_line, colon, inside, if_true]
  simp [HttpRequest.addHeader, WireRequest.headerLine]

theorem exits_headers {headers : List (Bytes × Bytes)} (valid : ∀ header ∈ headers, WireRequest.WellFormedHeader header)
    (request : HttpRequest) (rest : Bytes) {parsed : Parsed}
    (exits : Exits (parsePass receiveTime)
      (⟨.kExpectHeaders, { request with headers := WireRequest.headerMap request.headers headers }⟩, rest) parsed) :
    Exits (parsePass receiveTime) (⟨.kExpectHeaders, request⟩,
      (headers.flatMap fun header => WireRequest.headerLine header ++ CRLF) ++ rest) parsed := by
  induction headers generalizing request with
  | nil => exact exits
  | cons header headers ih =>
    obtain ⟨key, value⟩ := header
    rw [List.flatMap_cons, List.append_assoc]
    apply Exits.again (parsePass_header (valid (key, value) (by simp)) request _)
    apply ih (fun header member => valid header (by simp [member]))
    simpa only [WireRequest.headerMap, List.map_cons, Std.ExtTreeMap.insertMany_cons] using exits

theorem parsePass_blank (receiveTime : Timestamp) (request : HttpRequest) (rest : Bytes) :
    parsePass receiveTime (⟨.kExpectHeaders, request⟩, CRLF ++ rest) =
      endHeaders ⟨.kExpectHeaders, request⟩ (CRLF ++ rest) rest := by
  have found : findCRLF (CRLF ++ rest) = some 0 := findCRLF_line Unbroken.nil rest
  simp only [parsePass, found, List.take_zero, List.idxOf_nil, lt_irrefl, if_false, if_true]
  rfl

end HttpContext

theorem isspace_of_isdigit {d : UInt8} (digit : isdigit d) : isspace d = false := by
  simp only [isdigit, Bool.and_eq_true, decide_eq_true_eq, UInt8.le_iff_toNat_le] at digit
  have low : (48 : UInt8).toNat ≤ d.toNat := digit.1
  simp only [isspace, Bool.or_eq_false_iff, beq_eq_false_iff_ne, ne_eq, ← UInt8.toNat_inj, Bool.and_eq_false_iff,
    decide_eq_false_iff_not, UInt8.le_iff_toNat_le]
  simp only [UInt8.reduceToNat] at low ⊢
  omega

theorem stoi_of_isLength {text : Bytes} {length : Nat} (number : WireRequest.IsLength text length)
    (small : length < 2 ^ 31) : stoi text = .ok (length : Int) := by
  obtain ⟨nonempty, digits, value⟩ := number
  obtain ⟨d, rest, rfl⟩ := List.exists_cons_of_ne_nil nonempty
  have digit := digits d (by simp)
  have solid : (d :: rest).dropWhile isspace = d :: rest := by
    rw [List.dropWhile_cons, isspace_of_isdigit digit]; rfl
  have minus : d ≠ chr '-' := by rintro rfl; exact absurd digit (by decide)
  have plus : d ≠ chr '+' := by rintro rfl; exact absurd digit (by decide)
  have all : (d :: rest).takeWhile isdigit = d :: rest := List.takeWhile_eq_self_iff.mpr digits
  simp only [stoi, solid, List.head?_cons, Option.some.injEq, minus, plus, or_self, if_false, all, value]
  have inside : - 2 ^ 31 ≤ (length : Int) ∧ (length : Int) < 2 ^ 31 := by omega
  rw [if_neg (List.cons_ne_nil d rest), if_pos inside]

theorem toSizeT_natCast {n : Nat} (small : n < 2 ^ 31) : toSizeT (n : Int) = n := by
  unfold toSizeT
  omega

namespace WireRequest

variable {wire : WireRequest} {receiveTime : Timestamp}

theorem headRequest_eq (wire : WireRequest) (start : HttpRequest) (receiveTime : Timestamp) :
    wire.headRequest start receiveTime =
      { start with
        method := wire.method, path := wire.target.takeWhile (· != chr '?'),
        queryParameters := targetQuery start.queryParameters wire.target, version := wire.version.text,
        headers := headerMap start.headers wire.headers, receiveTime := receiveTime } := by
  simp only [headRequest, lineRequest, HttpContext.storeTarget_eq]
  rfl

theorem request_eq (noBody : ¬ wire.method.HasBody → wire.body = []) (start : HttpRequest) :
    wire.request start receiveTime =
      { wire.headRequest start receiveTime with
        content := if wire.body = [] then start.content else wire.body
        contentLength := if wire.method.HasBody then wire.body.length else start.contentLength } := by
  by_cases body : wire.method.HasBody
  · by_cases none : wire.body = []
    · simp only [request, body, none, if_true, headRequest_eq]
      rfl
    · simp only [request, body, none, if_true, if_false, headRequest_eq]
      rfl
  · simp only [request, body, noBody body, if_true, if_false, headRequest_eq]

theorem headRequest_method (start : HttpRequest) : (wire.headRequest start receiveTime).method = wire.method := by
  rw [headRequest_eq]

theorem headRequest_getHeader {start : HttpRequest} (empty : start.headers = ∅) :
    (wire.headRequest start receiveTime).getHeader (ascii "Content-Length") = wire.declared := by
  simp only [headRequest, HttpRequest.getHeader, declared, empty]

/-- Behind the headers of a well-formed request the loop reads exactly its body. -/
theorem exits_body (wellFormed : wire.WellFormed) {start : HttpRequest} (empty : start.headers = ∅)
    (receiveTime : Timestamp) (rest : Bytes) :
    Exits (HttpContext.parsePass receiveTime)
      (⟨.kExpectHeaders, wire.headRequest start receiveTime⟩, CRLF ++ (wire.body ++ rest))
      ⟨.returned true, ⟨.kGotAll, wire.request start receiveTime⟩, rest⟩ := by
  have blank := HttpContext.parsePass_blank receiveTime (wire.headRequest start receiveTime) (wire.body ++ rest)
  simp only [HttpContext.endHeaders, headRequest_method, headRequest_getHeader empty] at blank
  by_cases body : wire.method = .kPost ∨ wire.method = .kPut
  · obtain ⟨number, small⟩ := wellFormed.bodyLength body
    rw [if_pos body, if_pos number.nonempty, stoi_of_isLength number small] at blank
    simp only [toSizeT_natCast small] at blank
    by_cases none : wire.body = []
    · refine .leave (blank.trans ?_)
      simp [none, HttpRequest.setContentLength, request, Method.HasBody, body]
    · have positive : 0 < ((wire.headRequest start receiveTime).setContentLength wire.body.length).contentLength :=
        List.length_pos_iff.mpr none
      rw [if_pos positive] at blank
      refine .again blank (.leave ?_)
      simp [HttpContext.parsePass, HttpRequest.setContentLength, request, Method.HasBody, body, none]
  · rw [if_neg body] at blank
    refine .leave (blank.trans ?_)
    simp [wellFormed.noBody body, request, Method.HasBody, body]

/-- A well-formed request at the front of the buffer is parsed to the end and no further. -/
theorem exits_render (wellFormed : wire.WellFormed) {start : HttpRequest} (fresh : start.method = .kInvalid)
    (empty : start.headers = ∅) (receiveTime : Timestamp) (rest : Bytes) :
    Exits (HttpContext.parsePass receiveTime)
      (⟨.kExpectRequestLine, start⟩, wire.render ++ rest)
      ⟨.returned true, ⟨.kGotAll, wire.request start receiveTime⟩, rest⟩ := by
  have versionLine : Unbroken CR LF wire.version.text := by
    cases wire.version <;> exact fun occurs => absurd (occurs.subset (by simp : CR ∈ [CR, LF])) (by decide)
  have methodLine : Unbroken CR LF wire.method.text := by
    cases wire.method <;> exact fun occurs => absurd (occurs.subset (by simp : CR ∈ [CR, LF])) (by decide)
  have unbroken : Unbroken CR LF wire.requestLine :=
    methodLine.join (wellFormed.targetLine.join versionLine (by decide) (by decide)) (by decide) (by decide)
  let tail := (wire.headers.flatMap fun header => headerLine header ++ CRLF) ++ (CRLF ++ (wire.body ++ rest))
  have shape : wire.render ++ rest = wire.requestLine ++ CRLF ++ tail := by simp [render, tail]
  rw [shape]
  have line : HttpContext.parsePass receiveTime (⟨.kExpectRequestLine, start⟩, wire.requestLine ++ CRLF ++ tail) =
      .again (⟨.kExpectHeaders, (wire.lineRequest start).setReceiveTime receiveTime⟩, tail) := by
    simp only [HttpContext.parsePass, findCRLF_line unbroken, take_line, drop_line,
      HttpContext.processRequestLine_render wellFormed.method wellFormed.targetSpace fresh]
  have headers : ((wire.lineRequest start).setReceiveTime receiveTime).headers = start.headers := by
    simp only [lineRequest, HttpContext.storeTarget_eq]
    rfl
  apply Exits.again line
  apply HttpContext.exits_headers wellFormed.headers
  rw [headers]
  exact exits_body wellFormed empty receiveTime rest

end WireRequest

def Trimmed (value : Bytes) : Prop :=
  value.head?.all (fun c => !isspace c) ∧ value.getLast?.all (fun c => !isspace c)

instance (value : Bytes) : Decidable (Trimmed value) := inferInstanceAs (Decidable (_ ∧ _))

theorem trim_space {value : Bytes} (trimmed : Trimmed value) : HttpRequest.trim (chr ' ' :: value) = value := by
  obtain ⟨first, last⟩ := trimmed
  have front : (chr ' ' :: value).dropWhile isspace = value := by
    rw [List.dropWhile_cons, if_pos (by decide : isspace (chr ' ') = true)]
    cases value with
    | nil => rfl
    | cons c rest =>
      have solid : isspace c = false := by simpa using first
      rw [List.dropWhile_cons, solid]; rfl
  rw [HttpRequest.trim, front, List.rdropWhile_eq_self_iff]
  intro nonempty
  rw [List.getLast?_eq_some_getLast nonempty] at last
  simpa using last

theorem isLength_decimal (n : Nat) : WireRequest.IsLength (decimal n) n := by
  have digit (c : Char) (member : c ∈ Nat.toDigits 10 n) : 48 ≤ c.toNat ∧ c.toNat ≤ 57 := by
    simpa [Char.isDigit, ← UInt32.toNat_inj, UInt32.le_iff_toNat_le] using
      Nat.isDigit_of_mem_toDigits (by decide) (by decide) member
  have byte (c : Char) (member : c ∈ Nat.toDigits 10 n) : (chr c).toNat = c.toNat := by
    have bounds := digit c member
    simp only [chr, UInt8.toNat_ofNat', Nat.toUInt8]
    omega
  constructor
  · simp [decimal, Nat.toDigits_ne_nil]
  · intro d member
    obtain ⟨c, written, rfl⟩ := List.mem_map.mp member
    simpa [isdigit, UInt8.le_iff_toNat_le, byte c written] using digit c written
  · have same : (decimal n).map (fun d => Char.ofNat d.toNat) = Nat.toDigits 10 n := by
      have fixed : ∀ c ∈ Nat.toDigits 10 n, ((fun d => Char.ofNat d.toNat) ∘ chr) c = id c := by
        intro c member
        simp [byte c member]
      rw [decimal, List.map_map, List.map_congr_left fixed, List.map_id]
    rw [decimalValue, same, Nat.ofDigitChars_ten_toDigits]

theorem decimal_injective {m n : Nat} (same : decimal m = decimal n) : m = n := by
  rw [← (isLength_decimal m).value, same, (isLength_decimal n).value]

theorem decimalInt_injective {m n : Int} (same : decimalInt m = decimalInt n) : m = n := by
  have unsigned (k : Nat) (digits : Bytes) : decimal k ≠ chr '-' :: digits := by
    intro signed
    have digit := (isLength_decimal k).digits (chr '-') (by rw [signed]; exact List.mem_cons_self)
    exact absurd digit (by decide)
  simp only [decimalInt] at same
  split at same <;> split at same
  · have absolute := decimal_injective (List.cons_inj_right _ |>.mp same)
    omega
  · exact absurd same.symm (unsigned _ _)
  · exact absurd same (unsigned _ _)
  · have absolute := decimal_injective same
    omega

theorem zero_not_mem_decimal (n : Nat) : 0 ∉ decimal n := by
  intro member
  have digit := (isLength_decimal n).digits 0 member
  exact absurd digit (by decide)

/-- A request whose headers are written in the given order, each as `key: value`. -/
def renderText (method : Method) (target : Bytes) (version : Version) (order : List (Bytes × Bytes)) (body : Bytes) :
    Bytes :=
  method.text ++ ascii " " ++ target ++ ascii " " ++ version.text ++ CRLF ++
    (order.flatMap fun header => header.1 ++ ascii ": " ++ header.2 ++ CRLF) ++ CRLF ++ body

/-- A map is made again from its entries in any order. -/
theorem insertMany_order {table : Dict} {order : List (Bytes × Bytes)} (enumerates : order.Perm table.toList) :
    (∅ : Dict).insertMany order = table := by
  have distinct : order.Pairwise (fun a b => ¬ compare a.1 b.1 = .eq) :=
    (enumerates.pairwise_iff (fun differ same => differ (Std.OrientedCmp.eq_symm same))).mpr
      Std.ExtTreeMap.distinct_keys_toList
  apply Std.ExtTreeMap.ext_getElem?
  intro key
  cases bound : table[key]? with
  | some value =>
    have member : (key, value) ∈ order :=
      enumerates.mem_iff.mpr (Std.ExtTreeMap.mem_toList_iff_getElem?_eq_some.mpr bound)
    exact Std.ExtTreeMap.getElem?_insertMany_list_of_mem (Std.ReflCmp.compare_self) distinct member
  | none =>
    rw [Std.ExtTreeMap.getElem?_insertMany_list_of_contains_eq_false]
    · simp
    · rw [← Bool.not_eq_true, List.contains_iff_mem]
      intro present
      obtain ⟨⟨other, value⟩, member, rfl⟩ := List.mem_map.mp present
      have present := Std.ExtTreeMap.mem_toList_iff_getElem?_eq_some.mp (enumerates.mem_iff.mp member)
      rw [bound] at present
      cases present

/-- Writing the headers of a map in any order and reading them back gives the map. -/
theorem headerMap_order {headers : Dict} {order : List (Bytes × Bytes)} (enumerates : order.Perm headers.toList)
    (trimmed : ∀ header ∈ order, Trimmed header.2) :
    WireRequest.headerMap ∅ (order.map fun header => (header.1, chr ' ' :: header.2)) = headers := by
  have stored : (order.map fun header => (header.1, chr ' ' :: header.2)).map
      (fun header => (header.1, HttpRequest.trim header.2)) = order := by
    have fixed : ∀ header ∈ order, ((fun header => (header.1, HttpRequest.trim header.2)) ∘
        fun header : Bytes × Bytes => (header.1, chr ' ' :: header.2)) header = id header := by
      intro header member
      exact Prod.ext rfl (trim_space (trimmed header member))
    rw [List.map_map, List.map_congr_left fixed, List.map_id]
  rw [WireRequest.headerMap, stored]
  exact insertMany_order enumerates

theorem renderText_eq (method : Method) (target : Bytes) (version : Version) (order : List (Bytes × Bytes))
    (body : Bytes) : renderText method target version order body =
      WireRequest.render ⟨method, target, version, order.map fun header => (header.1, chr ' ' :: header.2), body⟩ := by
  have colon : ascii ": " = [chr ':', chr ' '] := by decide
  have space : ascii " " = [chr ' '] := by decide
  simp [renderText, WireRequest.render, WireRequest.requestLine, WireRequest.headerLine, List.flatMap_map, colon, space]

/-- Parsing undoes rendering, for every map of headers written in any order and
whatever follows the request in the buffer. -/
theorem parseRequest_renderText {method : Method} (supported : method.Supported) {target : Bytes}
    (targetSpace : chr ' ' ∉ target) (targetLine : Unbroken CR LF target) (version : Version)
    {headers : Dict} {order : List (Bytes × Bytes)} (enumerates : order.Perm headers.toList)
    (valid : ∀ header ∈ order, chr ':' ∉ header.1 ∧ Unbroken CR LF header.1 ∧ Unbroken CR LF header.2 ∧
      Trimmed header.2)
    {body : Bytes} (noBody : ¬ method.HasBody → body = [])
    (bodyLength : method.HasBody → headers[ascii "Content-Length"]? = some (decimal body.length) ∧
      body.length ≤ 2 ^ 31 - 1)
    (suffix : Bytes) (receiveTime : Timestamp) :
    ∃ parsed, HttpContext.parseRequest {} (renderText method target version order body ++ suffix) receiveTime =
        some parsed ∧
      parsed.verdict = .returned true ∧ parsed.context.gotAll ∧
      parsed.context.request.method = method ∧
      parsed.context.request.path = target.takeWhile (· != chr '?') ∧
      parsed.context.request.version = version.text ∧
      parsed.context.request.headers = headers ∧
      parsed.context.request.content = body ∧
      parsed.unread = suffix := by
  let wire : WireRequest :=
    ⟨method, target, version, order.map fun header => (header.1, chr ' ' :: header.2), body⟩
  have stored : WireRequest.headerMap ∅ wire.headers = headers :=
    headerMap_order enumerates (fun header member => (valid header member).2.2.2)
  have wellFormed : wire.WellFormed := by
    refine ⟨supported, targetSpace, targetLine, ?_, ?_, noBody⟩
    · intro header member
      obtain ⟨header, written, rfl⟩ := List.mem_map.mp member
      obtain ⟨colon, keyLine, valueLine, -⟩ := valid header written
      exact ⟨colon, keyLine, Unbroken.nil.join valueLine (by decide) (by decide)⟩
    · intro hasBody
      obtain ⟨bound, small⟩ := bodyLength hasBody
      have declared : wire.declared = decimal body.length := by
        rw [WireRequest.declared, stored, bound]; rfl
      exact ⟨declared ▸ isLength_decimal body.length, Nat.lt_of_le_of_lt small (by decide)⟩
  have exits := WireRequest.exits_render wellFormed (rfl : ({} : HttpRequest).method = .kInvalid) rfl receiveTime suffix
  refine ⟨_, HttpContext.parseRequest_eq_some_iff.mpr (renderText_eq method target version order body ▸ exits),
    rfl, rfl, ?_⟩
  rw [WireRequest.request_eq wellFormed.noBody, WireRequest.headRequest_eq]
  refine ⟨rfl, rfl, rfl, stored, ?_, rfl⟩
  by_cases none : body = []
  · simp [wire, none]
  · simp [wire, none]

def uploadOrder : List (Bytes × Bytes) :=
  [(ascii "Host", ascii "example"), (ascii "Content-Length", ascii "3")]

def uploadHeaders : Dict := (∅ : Dict).insertMany uploadOrder

theorem parseRequest_renderText_upload :
    ∃ parsed, HttpContext.parseRequest {}
        (renderText .kPost (ascii "/file?id=7") .http11 uploadOrder (ascii "xyz") ++ ascii "GET") 5 = some parsed ∧
      parsed.verdict = .returned true ∧ parsed.context.gotAll ∧
      parsed.context.request.method = .kPost ∧
      parsed.context.request.path = (ascii "/file?id=7").takeWhile (· != chr '?') ∧
      parsed.context.request.version = Version.http11.text ∧
      parsed.context.request.headers = uploadHeaders ∧
      parsed.context.request.content = ascii "xyz" ∧
      parsed.unread = ascii "GET" :=
  parseRequest_renderText (by decide) (by decide) (by decide) .http11 (by decide) (by decide) (by decide) (by decide)
    (ascii "GET") 5

end HttpFramework.Http
