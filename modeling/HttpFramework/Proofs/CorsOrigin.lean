import HttpFramework.Http.Middleware

/-! The two places where `CorsMiddleware` names an allowed origin. The answer to a preflight repeats
the origin of the request; the actual response has the first of the configuration. -/

namespace HttpFramework.Http.CorsMiddleware

variable {config : CorsConfig} {request : HttpRequest} {response : HttpResponse} {origin : Bytes}

def allowOrigin (response : HttpResponse) : Option Bytes := response.headers[ascii "Access-Control-Allow-Origin"]?

theorem allowOrigin_addHeader {key value : Bytes} (other : key ≠ ascii "Access-Control-Allow-Origin") :
    allowOrigin (response.addHeader key value) = allowOrigin response := by
  rw [allowOrigin, HttpResponse.addHeader, Std.ExtTreeMap.getElem?_insert, if_neg]
  · rfl
  · exact fun same => other (Std.LawfulEqCmp.eq_of_compare same)

theorem allowOrigin_addCorsHeaders : allowOrigin (addCorsHeaders config origin response) = some origin := by
  have named : allowOrigin (response.addHeader (ascii "Access-Control-Allow-Origin") origin) = some origin := by
    rw [allowOrigin, HttpResponse.addHeader, Std.ExtTreeMap.getElem?_insert_self]
  have credentials (response : HttpResponse) (value : Bytes) :
      allowOrigin (response.addHeader (ascii "Access-Control-Allow-Credentials") value) = allowOrigin response :=
    allowOrigin_addHeader (by decide)
  have methods (response : HttpResponse) (value : Bytes) :
      allowOrigin (response.addHeader (ascii "Access-Control-Allow-Methods") value) = allowOrigin response :=
    allowOrigin_addHeader (by decide)
  have headers (response : HttpResponse) (value : Bytes) :
      allowOrigin (response.addHeader (ascii "Access-Control-Allow-Headers") value) = allowOrigin response :=
    allowOrigin_addHeader (by decide)
  rw [addCorsHeaders, allowOrigin_addHeader (by decide)]
  simp only [apply_ite allowOrigin, credentials, methods, headers, ite_self, named]

/-- The preflight is granted. -/
def Grants (config : CorsConfig) (request : HttpRequest) : Prop :=
  (handlePreflightRequest config request {}).statusCode = .k204NoContent ∧
    (allowOrigin (handlePreflightRequest config request {})).isSome = true

/-- Whatever the response, the browser is told that the origin of the request may have it. -/
def Admits (config : CorsConfig) (request : HttpRequest) : Prop :=
  ∀ response, ∃ value, allowOrigin (after config response) = some value ∧
    (value = ascii "*" ∨ value = request.getHeader (ascii "Origin"))

theorem grants_iff : Grants config request ↔ isOriginAllowed config (request.getHeader (ascii "Origin")) = true := by
  rw [Grants, handlePreflightRequest]
  split
  next allowed =>
    exact ⟨fun _ => allowed, fun _ => ⟨rfl, by
      show (allowOrigin (addCorsHeaders config _ {})).isSome = true
      rw [allowOrigin_addCorsHeaders]
      rfl⟩⟩
  next refused =>
    constructor
    · intro granted
      cases granted.1
    · intro allowed
      exact absurd allowed refused

theorem admits_iff : Admits config request ↔ config.allowedOrigins.contains (ascii "*") = true ∨
    config.allowedOrigins.head? = some (request.getHeader (ascii "Origin")) := by
  rw [Admits]
  cases listed : config.allowedOrigins with
  | nil =>
    constructor
    · intro admits
      obtain ⟨value, present, _⟩ := admits {}
      rw [after, listed] at present
      cases present
    · intro either
      cases either with
      | inl wildcard => cases wildcard
      | inr first => cases first
  | cons first rest =>
    have sent (response : HttpResponse) : allowOrigin (after config response) =
        some (if config.allowedOrigins.contains (ascii "*") then ascii "*" else first) := by
      rw [after, listed]
      dsimp only
      split
      · exact allowOrigin_addCorsHeaders
      · exact allowOrigin_addCorsHeaders
    rw [← listed, List.head?_eq_some_iff]
    constructor
    · intro admits
      obtain ⟨value, present, either⟩ := admits {}
      rw [sent] at present
      split at present
      next wildcard => exact .inl wildcard
      next =>
        cases present
        refine either.imp (fun same => ?_) fun same => ⟨rest, by rw [listed, same]⟩
        rw [listed, List.contains_cons, same]
        rfl
    · intro either response
      refine ⟨_, sent response, ?_⟩
      split
      next => exact .inl rfl
      next other =>
        rcases either with wildcard | ⟨tail, same⟩
        · exact absurd wildcard other
        · exact .inr (List.cons.inj (listed.symm.trans same)).1

/-- The two paths agree for an origin that is refused, with the wildcard, and for the first origin of
the configuration. -/
theorem grants_admits_iff : (Grants config request → Admits config request) ↔
    isOriginAllowed config (request.getHeader (ascii "Origin")) = false ∨
      config.allowedOrigins.contains (ascii "*") = true ∨
      config.allowedOrigins.head? = some (request.getHeader (ascii "Origin")) := by
  rw [grants_iff, admits_iff]
  cases isOriginAllowed config (request.getHeader (ascii "Origin")) with
  | false => simp
  | true => simp

def fromSecond : HttpRequest := { headers := (∅ : Dict).insert (ascii "Origin") (ascii "http://b") }

/-- Of two allowed origins the second is granted the preflight and told of the first. -/
theorem second_origin_refused :
    ¬ ∀ (config : CorsConfig) (request : HttpRequest), Grants config request → Admits config request := by
  intro agree
  have origin : fromSecond.getHeader (ascii "Origin") = ascii "http://b" := by decide
  have admits := agree { allowedOrigins := [ascii "http://a", ascii "http://b"] } fromSecond
    (grants_iff.mpr (by rw [origin]; decide))
  have either := admits_iff.mp admits
  rw [origin] at either
  exact absurd either (by decide)

end HttpFramework.Http.CorsMiddleware
