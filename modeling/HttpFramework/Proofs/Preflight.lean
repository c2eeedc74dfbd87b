import HttpFramework.Proofs.ConnectionFaults
import HttpFramework.Proofs.ResponseFormat

/-! The answer to a preflight request, line by line. The origin is repeated from the request, and what
the parser stores for a header never contains a CR LF. -/

namespace HttpFramework.Http
open Loop Search

/-- No value could be taken for more than one line. -/
def UnbrokenValues (headers : Dict) : Prop := ∀ key value : Bytes, headers[key]? = some value → Unbroken CR LF value

theorem UnbrokenValues.empty : UnbrokenValues ∅ := by
  intro key value found
  simp at found

theorem UnbrokenValues.insert {headers : Dict} (unbroken : UnbrokenValues headers) {key value : Bytes}
    (added : Unbroken CR LF value) : UnbrokenValues (headers.insert key value) := by
  intro other stored found
  rw [Std.ExtTreeMap.getElem?_insert] at found
  split at found
  next => exact Option.some.inj found ▸ added
  next => exact unbroken other stored found

theorem UnbrokenValues.getHeader {request : HttpRequest} (unbroken : UnbrokenValues request.headers) (field : Bytes) :
    Unbroken CR LF (request.getHeader field) := by
  rw [HttpRequest.getHeader]
  cases found : request.headers[field]? with
  | none => exact Unbroken.nil
  | some value => exact unbroken field value found

theorem unbroken_trim {text : Bytes} (unbroken : Unbroken CR LF text) : Unbroken CR LF (HttpRequest.trim text) := by
  apply unbroken.part
  have front : HttpRequest.trim text <+: text.dropWhile isspace := List.rdropWhile_prefix _ _
  exact front.isInfix.trans (List.dropWhile_suffix _).isInfix

namespace HttpContext

variable {receiveTime : Timestamp} {context : HttpContext} {buf : Bytes}

theorem setMethod_headers {request stored : HttpRequest} {word : Bytes} {known : Bool}
    (set : request.setMethod word = some (known, stored)) : stored.headers = request.headers := by
  unfold HttpRequest.setMethod at set
  split at set
  next =>
    cases set
    rfl
  next => cases set

theorem processRequestLine_headers {request stored : HttpRequest} {line : Bytes} {accepted : Bool}
    (processed : processRequestLine request line = some (accepted, stored)) : stored.headers = request.headers := by
  simp only [processRequestLine] at processed
  split at processed
  · split at processed
    next => cases processed
    next kept set =>
      cases processed
      exact setMethod_headers set
    next named set =>
      have headers := setMethod_headers set
      split at processed
      · split at processed
        · cases processed
          rw [storeTarget_eq]
          exact headers
        · cases processed
          rw [storeTarget_eq]
          exact headers
      · cases processed
        exact headers
  · cases processed
    rfl

/-- The headers after a pass, whether the loop goes on or not. -/
def headersAfter : Pass (HttpContext × Bytes) Parsed → Dict
  | .again next => next.1.request.headers
  | .leave parsed => parsed.context.request.headers

theorem headersAfter_endHeaders (context : HttpContext) (buf rest : Bytes) :
    headersAfter (endHeaders context buf rest) = context.request.headers := by
  simp only [endHeaders]
  repeat' split
  all_goals rfl

/-- A pass stores at most one header, from a line of its own. -/
theorem headersAfter_parsePass (receiveTime : Timestamp) (context : HttpContext) (buf : Bytes) :
    headersAfter (parsePass receiveTime (context, buf)) = context.request.headers ∨
      ∃ key value, Unbroken CR LF value ∧
        headersAfter (parsePass receiveTime (context, buf)) = context.request.headers.insert key (HttpRequest.trim value) := by
  obtain ⟨state, request⟩ := context
  cases state with
  | kExpectRequestLine =>
    left
    simp only [parsePass]
    split
    · split
      next => rfl
      next request processed =>
        show request.headers = _
        exact processRequestLine_headers processed
      next request processed =>
        show request.headers = _
        exact processRequestLine_headers processed
    · rfl
  | kExpectHeaders =>
    rcases parsePass_headers_cases receiveTime request buf with
      waits | ⟨key, value, rest, valid, _, passes⟩ | ⟨rest, _, ends⟩ | ⟨_, _, _, _, _, _, refused⟩
    · exact .inl (by rw [waits]; rfl)
    · exact .inr ⟨key, value, valid.valueLine, by rw [passes]; rfl⟩
    · exact .inl (by rw [ends, headersAfter_endHeaders])
    · exact .inl (by rw [refused]; rfl)
  | kExpectBody =>
    left
    simp only [parsePass]
    split <;> rfl
  | kGotAll => exact .inl rfl

theorem exits_unbroken {parsed : Parsed} (exits : Exits (parsePass receiveTime) (context, buf) parsed)
    (unbroken : UnbrokenValues context.request.headers) : UnbrokenValues parsed.context.request.headers := by
  have pass (place : HttpContext × Bytes) (kept : UnbrokenValues place.1.request.headers) :
      UnbrokenValues (headersAfter (parsePass receiveTime place)) := by
    rcases headersAfter_parsePass receiveTime place.1 place.2 with same | ⟨key, value, line, added⟩
    · rw [same]
      exact kept
    · rw [added]
      exact kept.insert (unbroken_trim line)
  have repeats : ∀ (place next : HttpContext × Bytes), UnbrokenValues place.1.request.headers →
      parsePass receiveTime place = .again next → UnbrokenValues next.1.request.headers := by
    intro place next kept repeated
    have after := pass place kept
    rwa [repeated] at after
  have leaves : ∀ (place : HttpContext × Bytes) (parsed : Parsed), UnbrokenValues place.1.request.headers →
      parsePass receiveTime place = .leave parsed → UnbrokenValues parsed.context.request.headers := by
    intro place parsed kept left
    have after := pass place kept
    rwa [left] at after
  exact exits.rule (fun place : HttpContext × Bytes => UnbrokenValues place.1.request.headers) repeats leaves unbroken

end HttpContext

/-- What is dispatched has been parsed to its end. -/
theorem parsed_of_dispatched {connection : TcpConnection} {arrival : Arrival} {request : HttpRequest}
    (dispatched : (receive connection arrival).1.dispatched = some request) :
    ∃ parsed, Exits (HttpContext.parsePass arrival.receiveTime)
        (connection.context, connection.inputBuffer ++ arrival.bytes) parsed ∧ request = parsed.context.request := by
  cases receive_outcome connection arrival with
  | hangs _ _ _ silent | aborts _ _ _ _ silent | waits _ _ _ _ _ _ _ silent =>
    rw [silent] at dispatched
    cases dispatched
  | answers exits _ complete | raises exits _ complete | terminates exits _ complete =>
    have returns := HttpContext.parseRequest_eq_some_iff.mpr exits
    have sent := (receive_of_complete returns (HttpContext.exits_complete exits complete) complete).1
    rw [dispatched] at sent
    exact ⟨_, exits, Option.some.inj sent⟩

/-- However the bytes are cut and whatever came before, no dispatched request has a broken value. -/
theorem dispatches_unbroken (arrivals : List Arrival) :
    ∀ request ∈ dispatches (serve opened arrivals), UnbrokenValues request.headers := by
  let Stored (report : Report) : Prop := ∀ request, report.dispatched = some request → UnbrokenValues request.headers
  have stored : ∀ (connection : TcpConnection) (arrival : Arrival), UnbrokenValues connection.context.request.headers →
      Stored (receive connection arrival).1 := by
    intro connection arrival unbroken request dispatched
    obtain ⟨parsed, exits, rfl⟩ := parsed_of_dispatched dispatched
    exact HttpContext.exits_unbroken exits unbroken
  have keeps : ∀ (connection : TcpConnection) (arrival : Arrival) (next : TcpConnection),
      UnbrokenValues connection.context.request.headers → ¬ False → (receive connection arrival).2 = .live next →
        UnbrokenValues next.context.request.headers := by
    intro connection arrival next unbroken _ lives
    cases receive_outcome connection arrival with
    | hangs _ ends | aborts _ _ _ ends | terminates _ _ _ ends =>
      rw [lives] at ends
      cases ends
    | waits exits _ _ _ lives' context | raises exits _ _ lives' context =>
      cases lives.symm.trans lives'
      rw [context]
      exact HttpContext.exits_unbroken exits unbroken
    | answers _ _ _ lives' context =>
      cases lives.symm.trans lives'
      rw [context]
      exact UnbrokenValues.empty
  have clean : UnbrokenValues (({} : TcpConnection).context.request.headers) := UnbrokenValues.empty
  have served : ∀ report ∈ serve opened arrivals, Stored report := (serve_all_iff (fun connection => UnbrokenValues connection.context.request.headers) stored keeps
    (fun _ _ _ fault => fault.elim) clean arrivals).mpr fun _ _ _ _ _ _ _ => id
  intro request member
  obtain ⟨report, found, dispatched⟩ := List.mem_filterMap.mp member
  exact served report found request dispatched

/-- A map that is made from pairs with different keys has these pairs. -/
theorem toList_insertMany {pairs : List (Bytes × Bytes)} (distinct : (pairs.map Prod.fst).Nodup) :
    ((∅ : Dict).insertMany pairs).toList.Perm pairs := by
  have keys : pairs.Pairwise (fun a b => ¬ compare a.1 b.1 = .eq) := by
    refine (List.pairwise_map.mp distinct).imp ?_
    intro a b different same
    exact different (Std.LawfulEqCmp.eq_of_compare same)
  refine (List.perm_ext_iff_of_nodup ?_ (List.Nodup.of_map _ distinct)).mpr ?_
  · refine Std.ExtTreeMap.distinct_keys_toList.imp ?_
    rintro a b different rfl
    exact different Std.ReflCmp.compare_self
  · intro pair
    obtain ⟨key, value⟩ := pair
    have stored {value : Bytes} (member : (key, value) ∈ pairs) : ((∅ : Dict).insertMany pairs)[key]? = some value :=
      Std.ExtTreeMap.getElem?_insertMany_list_of_mem Std.ReflCmp.compare_self keys member
    rw [Std.ExtTreeMap.mem_toList_iff_getElem?_eq_some]
    constructor
    · intro found
      by_cases present : key ∈ pairs.map Prod.fst
      · obtain ⟨⟨_, other⟩, member, rfl⟩ := List.mem_map.mp present
        cases found.symm.trans (stored member)
        exact member
      · rw [Std.ExtTreeMap.getElem?_insertMany_list_of_contains_eq_false (by simpa using present)] at found
        simp at found
    · exact stored

namespace CorsMiddleware

variable {config : CorsConfig} {origin : Bytes}

/-- The headers that are set for an origin, in the order in which they are set. -/
def corsHeaders (config : CorsConfig) (origin : Bytes) : List (Bytes × Bytes) :=
  [(ascii "Access-Control-Allow-Origin", origin)] ++
    (if config.allowCredentials then [(ascii "Access-Control-Allow-Credentials", ascii "true")] else []) ++
    (if config.allowedMethods = [] then []
      else [(ascii "Access-Control-Allow-Methods", join config.allowedMethods (ascii ", "))]) ++
    (if config.allowedHeaders = [] then []
      else [(ascii "Access-Control-Allow-Headers", join config.allowedHeaders (ascii ", "))]) ++
    [(ascii "Access-Control-Max-Age", decimalInt config.maxAge)]

theorem headers_addCorsHeaders (response : HttpResponse) :
    (addCorsHeaders config origin response).headers = response.headers.insertMany (corsHeaders config origin) := by
  simp only [addCorsHeaders, corsHeaders, HttpResponse.addHeader, Std.ExtTreeMap.insertMany_append,
    Std.ExtTreeMap.insertMany_list_singleton]
  repeat' split
  all_goals simp

theorem corsHeaders_distinct (config : CorsConfig) (origin : Bytes) : ((corsHeaders config origin).map Prod.fst).Nodup := by
  simp only [corsHeaders]
  repeat' split
  all_goals
    simp only [List.map_append, List.map_cons, List.map_nil]
    decide

/-- No string of the configuration could be taken for more than one line. -/
structure UnbrokenConfig (config : CorsConfig) : Prop where
  origins : ∀ text ∈ config.allowedOrigins, Unbroken CR LF text
  methods : ∀ text ∈ config.allowedMethods, Unbroken CR LF text
  headers : ∀ text ∈ config.allowedHeaders, Unbroken CR LF text

theorem unbroken_join {strings : List Bytes} (unbroken : ∀ text ∈ strings, Unbroken CR LF text) :
    Unbroken CR LF (join strings (ascii ", ")) := by
  have delimiter : ascii ", " = [chr ',', chr ' '] := by decide
  induction strings with
  | nil => exact Unbroken.nil
  | cons first rest ih =>
    have front := unbroken first List.mem_cons_self
    have later := ih fun text member => unbroken text (List.mem_cons_of_mem _ member)
    cases rest with
    | nil => simpa [join] using front
    | cons second rest =>
      have spaced : Unbroken CR LF (chr ' ' :: join (second :: rest) (ascii ", ")) :=
        Unbroken.nil.join later (by decide) (by decide)
      have whole : join (first :: second :: rest) (ascii ", ") =
          first ++ chr ',' :: chr ' ' :: join (second :: rest) (ascii ", ") := by
        rw [join, List.intercalate_cons_cons, delimiter, List.append_assoc]
        rfl
      rw [whole]
      exact front.join spaced (by decide) (by decide)

theorem unbroken_decimalInt (n : Int) : Unbroken CR LF (decimalInt n) := by
  have digits (k : Nat) : CR ∉ decimal k := by
    intro member
    exact absurd ((isLength_decimal k).digits CR member) (by decide)
  have other : CR ≠ chr '-' := by decide
  intro occurs
  have member : CR ∈ decimalInt n := occurs.subset List.mem_cons_self
  rw [decimalInt] at member
  split at member
  · exact digits _ ((List.mem_cons.mp member).resolve_left other)
  · exact digits _ member

theorem corsHeaders_plain (unbroken : UnbrokenConfig config) (line : Unbroken CR LF origin) :
    ∀ header ∈ corsHeaders config origin, PlainHeader header := by
  have fixed {key value : Bytes} (colon : chr ':' ∉ key) (start : Unbroken CR LF key) (rest : Unbroken CR LF value) :
      PlainHeader (key, value) := ⟨colon, start, rest⟩
  intro header member
  simp only [corsHeaders, List.mem_append] at member
  rcases member with (((named | credentials) | methods) | headers) | age
  · cases List.mem_singleton.mp named
    exact fixed (by decide) (by decide) line
  · split at credentials
    · cases List.mem_singleton.mp credentials
      exact fixed (by decide) (by decide) (by decide)
    · cases credentials
  · split at methods
    · cases methods
    · cases List.mem_singleton.mp methods
      exact fixed (by decide) (by decide) (unbroken_join unbroken.methods)
  · split at headers
    · cases headers
    · cases List.mem_singleton.mp headers
      exact fixed (by decide) (by decide) (unbroken_join unbroken.headers)
  · cases List.mem_singleton.mp age
    exact fixed (by decide) (by decide) (unbroken_decimalInt _)

theorem addCorsHeaders_rest (response : HttpResponse) :
    addCorsHeaders config origin response = { response with headers := response.headers.insertMany (corsHeaders config origin) } := by
  rw [← headers_addCorsHeaders]
  simp only [addCorsHeaders, HttpResponse.addHeader]
  repeat' split
  all_goals rfl

/-- The lines of the answer to a preflight. -/
theorem handlePreflightRequest_lines (unbroken : UnbrokenConfig config) {request : HttpRequest}
    (values : UnbrokenValues request.headers) :
    (isOriginAllowed config (request.getHeader (ascii "Origin")) = false ∧
      splitPair CR LF (handlePreflightRequest config request {}).appendToBuffer =
        [ascii " 403 ", ascii "Connection: close", [], []]) ∨
    isOriginAllowed config (request.getHeader (ascii "Origin")) = true ∧ ∃ lines,
      splitPair CR LF (handlePreflightRequest config request {}).appendToBuffer =
        ascii " 204 " :: ascii "Connection: close" :: (lines ++ [[], []]) ∧
      lines.Perm ((corsHeaders config (request.getHeader (ascii "Origin"))).map headerText) := by
  cases allowed : isOriginAllowed config (request.getHeader (ascii "Origin")) with
  | false =>
    refine .inl ⟨rfl, ?_⟩
    have answer : handlePreflightRequest config request {} = { statusCode := .k403Forbidden } := by
      rw [handlePreflightRequest, allowed]
      rfl
    rw [answer]
    decide
  | true =>
    refine .inr ⟨rfl, ?_⟩
    have plain := corsHeaders_plain unbroken (values.getHeader (ascii "Origin"))
    have listed := toList_insertMany (corsHeaders_distinct config (request.getHeader (ascii "Origin")))
    have answer : handlePreflightRequest config request {} =
        { statusCode := .k204NoContent
          headers := (∅ : Dict).insertMany (corsHeaders config (request.getHeader (ascii "Origin"))) } := by
      simp only [handlePreflightRequest, allowed, if_true, addCorsHeaders_rest]
    refine ⟨_, ?_, listed.map headerText⟩
    have status (headers : Dict) : ({ statusCode := .k204NoContent, headers } : HttpResponse).statusPrefix ++ [] = ascii " 204 " := by
      have text : (cString [] ++ ascii " " ++ decimal HttpStatusCode.k204NoContent.toNat ++ ascii " ").take 31 ++ [] =
          ascii " 204 " := by decide
      exact text
    rw [answer, appendToBuffer_lines]
    · rw [status]
      rfl
    · rw [status]
      decide
    · intro header member
      exact (plain header (listed.mem_iff.mp member)).unbroken

end CorsMiddleware

namespace HttpServer

variable {σ : Type} {server : HttpServer σ} {config : CorsConfig} {rest : List Middleware} {request : HttpRequest}

theorem handleRequest_preflight (first : server.middlewares = corsMiddleware config :: rest)
    (options : request.method = .kOptions) (resp : HttpResponse) (state : σ) :
    server.handleRequest request resp state = some (.ok (CorsMiddleware.handlePreflightRequest config request {}, state)) := by
  have thrown : MiddlewareChain.processBefore server.middlewares request =
      .error (.response (CorsMiddleware.handlePreflightRequest config request {})) := by
    rw [first, MiddlewareChain.processBefore, List.foldlM_cons]
    show CorsMiddleware.before config request >>= _ = _
    rw [CorsMiddleware.before, if_pos options]
    rfl
  rw [handleRequest, thrown]
  rfl

/-- Whatever an opened connection receives, a preflight request that comes out of it is answered with
the lines of the headers that are set and nothing else, and with none of these when it is refused. -/
theorem preflight_lines (first : server.middlewares = corsMiddleware config :: rest)
    (unbroken : CorsMiddleware.UnbrokenConfig config) {arrivals : List Arrival}
    (arrived : request ∈ dispatches (serve opened arrivals)) (options : request.method = .kOptions)
    (connection : TcpConnection) (state : σ) :
    ∃ bytes, server.onRequest connection request state = some (.ok ((connection.send bytes).shutdown, state)) ∧
      ((CorsMiddleware.isOriginAllowed config (request.getHeader (ascii "Origin")) = false ∧
        splitPair CR LF bytes = [ascii " 403 ", ascii "Connection: close", [], []]) ∨
      CorsMiddleware.isOriginAllowed config (request.getHeader (ascii "Origin")) = true ∧ ∃ lines,
        splitPair CR LF bytes = ascii " 204 " :: ascii "Connection: close" :: (lines ++ [[], []]) ∧
        lines.Perm ((CorsMiddleware.corsHeaders config (request.getHeader (ascii "Origin"))).map headerText)) := by
  have values := dispatches_unbroken arrivals request arrived
  have handled := handleRequest_preflight first options { closeConnection := wantsClose request } state
  have closes : (CorsMiddleware.handlePreflightRequest config request {}).closeConnection = true := by
    rw [CorsMiddleware.handlePreflightRequest]
    split
    · rw [CorsMiddleware.addCorsHeaders_rest]
    · rfl
  have sent : server.onRequest connection request state = _ := onRequest_of_handled handled
  rw [if_pos closes] at sent
  exact ⟨_, sent, CorsMiddleware.handlePreflightRequest_lines unbroken values⟩

def preflight : HttpRequest where
  method := .kOptions
  version := ascii "HTTP/1.1"
  path := ascii "/"
  headers := (∅ : Dict).insert (ascii "Origin") (ascii "http://a")

theorem preflight_lines_default :
    let server : HttpServer Unit := { middlewares := [corsMiddleware .defaultConfig] }
    ∃ bytes, server.onRequest {} preflight () = some (.ok ((({} : TcpConnection).send bytes).shutdown, ())) ∧
      ((CorsMiddleware.isOriginAllowed .defaultConfig (preflight.getHeader (ascii "Origin")) = false ∧
        splitPair CR LF bytes = [ascii " 403 ", ascii "Connection: close", [], []]) ∨
      CorsMiddleware.isOriginAllowed .defaultConfig (preflight.getHeader (ascii "Origin")) = true ∧ ∃ lines,
        splitPair CR LF bytes = ascii " 204 " :: ascii "Connection: close" :: (lines ++ [[], []]) ∧
        lines.Perm ((CorsMiddleware.corsHeaders .defaultConfig (preflight.getHeader (ascii "Origin"))).map headerText)) := by
  have unbroken : CorsMiddleware.UnbrokenConfig .defaultConfig := ⟨by decide, by decide, by decide⟩
  have arrived : preflight ∈ dispatches (serve opened
      [plain (ascii "OPTIONS / HTTP/1.1" ++ CRLF ++ ascii "Origin: http://a" ++ CRLF ++ CRLF)]) := by decide
  exact preflight_lines rfl unbroken arrived rfl {} ()

end HttpServer

end HttpFramework.Http
