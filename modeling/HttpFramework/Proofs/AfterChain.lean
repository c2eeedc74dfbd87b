import HttpFramework.Http.Router

/-! Which middlewares see the response. `handleRequest` is told once more with the calls of `after`
recorded, by the places of the middlewares in the chain. A response that is made in a `catch` block
passes none of them. -/

namespace HttpFramework.Http

variable {σ : Type}

namespace MiddlewareChain

/-- `afterAll` with the places of the middlewares it has called. -/
def afterCalls : List (Middleware × Nat) → HttpResponse → List Nat × Option Exception × HttpResponse
  | [], response => ([], none, response)
  | (middleware, place) :: rest, response =>
    match middleware.after response with
    | (none, response) => (place :: (afterCalls rest response).1, (afterCalls rest response).2)
    | (some thrown, response) => ([place], some thrown, response)

theorem afterCalls_snd (middlewares : List (Middleware × Nat)) (response : HttpResponse) :
    (afterCalls middlewares response).2 = afterAll (middlewares.map Prod.fst) response := by
  induction middlewares generalizing response with
  | nil => rfl
  | cons first rest ih =>
    obtain ⟨middleware, place⟩ := first
    rw [afterCalls, List.map_cons, afterAll]
    cases called : middleware.after response with
    | mk thrown response =>
      cases thrown with
      | none => exact ih response
      | some thrown => rfl

/-- Middlewares whose `after` does not throw. -/
def Quiet (middlewares : List Middleware) : Prop :=
  ∀ middleware ∈ middlewares, ∀ response, (middleware.after response).1 = none

/-- Each is called, and none throws. -/
theorem afterCalls_quiet (middlewares : List (Middleware × Nat)) (quiet : Quiet (middlewares.map Prod.fst))
    (response : HttpResponse) :
    (afterCalls middlewares response).1 = middlewares.map Prod.snd ∧ (afterCalls middlewares response).2.1 = none := by
  induction middlewares generalizing response with
  | nil => exact ⟨rfl, rfl⟩
  | cons first rest ih =>
    obtain ⟨middleware, place⟩ := first
    have silent := quiet middleware List.mem_cons_self response
    rw [afterCalls]
    cases called : middleware.after response with
    | mk thrown response =>
      rw [called] at silent
      cases silent
      obtain ⟨places, none⟩ := ih (fun other member => quiet other (List.mem_cons_of_mem _ member)) response
      exact ⟨congrArg (place :: ·) places, none⟩

end MiddlewareChain

namespace HttpServer

variable {server : HttpServer σ} {request mutableReq : HttpRequest} {resp : HttpResponse} {state : σ}

/-- `processAfter` with the calls of `after`. -/
def processAfterCalls (server : HttpServer σ) (resp : HttpResponse) (state : σ) : List Nat × Except Thrown (HttpResponse × σ) :=
  match MiddlewareChain.afterCalls server.middlewares.zipIdx.reverse resp with
  | (calls, none, resp) | (calls, some (.std _), resp) => (calls, .ok (resp, state))
  | (calls, some thrown, resp) => (calls, caught thrown resp state)

def finishCalls (server : HttpServer σ) : Option Exception × HttpResponse × σ → List Nat × Except Thrown (HttpResponse × σ)
  | (none, resp, state) => server.processAfterCalls resp state
  | (some thrown, resp, state) => ([], caught thrown resp state)

/-- `handleRequest` with the calls of `after`. -/
def handleRequestCalls (server : HttpServer σ) (request : HttpRequest) (resp : HttpResponse) (state : σ) :
    Option (List Nat × Except Thrown (HttpResponse × σ)) :=
  match MiddlewareChain.processBefore server.middlewares request with
  | .error thrown => some ([], caught thrown resp state)
  | .ok mutableReq =>
    match server.router.target? mutableReq with
    | none => some (server.processAfterCalls (notFound resp) state)
    | some (handler, request) => (handler request resp state).map server.finishCalls

theorem processAfterCalls_snd (server : HttpServer σ) (resp : HttpResponse) (state : σ) :
    (server.processAfterCalls resp state).2 = server.processAfter resp state := by
  have same := MiddlewareChain.afterCalls_snd server.middlewares.zipIdx.reverse resp
  rw [List.map_reverse, List.zipIdx_map_fst] at same
  rw [processAfterCalls, processAfter, MiddlewareChain.processAfter, ← same]
  rcases MiddlewareChain.afterCalls server.middlewares.zipIdx.reverse resp with ⟨calls, thrown, resp⟩
  rcases thrown with _ | _ | _ | _ <;> rfl

theorem handleRequestCalls_snd (server : HttpServer σ) (request : HttpRequest) (resp : HttpResponse) (state : σ) :
    (server.handleRequestCalls request resp state).map Prod.snd = server.handleRequest request resp state := by
  rw [handleRequestCalls, handleRequest]
  cases MiddlewareChain.processBefore server.middlewares request with
  | error thrown => rfl
  | ok mutableReq =>
    dsimp only
    cases server.router.target? mutableReq with
    | none => exact congrArg some (server.processAfterCalls_snd _ _)
    | some found =>
      obtain ⟨handler, request⟩ := found
      dsimp only
      rw [Option.map_map]
      congr 1
      funext result
      obtain ⟨thrown, resp, state⟩ := result
      cases thrown with
      | none => exact server.processAfterCalls_snd resp state
      | some thrown => rfl

/-- A response that is sent has passed every middleware, the last that was registered first. -/
def PassesAfter (server : HttpServer σ) (request : HttpRequest) (resp : HttpResponse) (state : σ) : Prop :=
  ∀ calls sent state', server.handleRequestCalls request resp state = some (calls, .ok (sent, state')) →
    calls = (List.range server.middlewares.length).reverse

/-- What the route throws is caught by `handleRequest`, and there is a middleware to pass. -/
def CaughtPastChain (server : HttpServer σ) (mutableReq : HttpRequest) (resp : HttpResponse) (state : σ) : Prop :=
  server.middlewares ≠ [] ∧ ∃ handler request thrown resp' state', server.router.target? mutableReq = some (handler, request) ∧
    handler request resp state = some (some thrown, resp', state') ∧ thrown ≠ .other

theorem processAfterCalls_quiet {calls : List Nat} {result : Except Thrown (HttpResponse × σ)}
    (quiet : MiddlewareChain.Quiet server.middlewares) (processed : server.processAfterCalls resp state = (calls, result)) :
    calls = (List.range server.middlewares.length).reverse := by
  have quiet' : MiddlewareChain.Quiet (server.middlewares.zipIdx.reverse.map Prod.fst) := by
    intro middleware member
    rw [List.map_reverse, List.mem_reverse, List.zipIdx_map_fst] at member
    exact quiet middleware member
  obtain ⟨places, none⟩ := MiddlewareChain.afterCalls_quiet _ quiet' resp
  rw [List.map_reverse, List.zipIdx_map_snd, ← List.range_eq_range'] at places
  rw [processAfterCalls] at processed
  generalize MiddlewareChain.afterCalls server.middlewares.zipIdx.reverse resp = called at places none processed
  obtain ⟨calls, thrown, resp⟩ := called
  cases none
  cases processed
  exact places

theorem caught_answers {thrown : Exception} (known : thrown ≠ .other) : ∃ sent, caught thrown resp state = .ok sent := by
  cases thrown with
  | response res => exact ⟨_, rfl⟩
  | std what => exact ⟨_, rfl⟩
  | other => exact absurd rfl known

section
variable (completes : MiddlewareChain.processBefore server.middlewares request = .ok mutableReq)
include completes

theorem handleRequestCalls_unrouted (routed : server.router.target? mutableReq = none) (resp : HttpResponse) (state : σ) :
    server.handleRequestCalls request resp state = some (server.processAfterCalls (notFound resp) state) := by
  simp only [handleRequestCalls, completes, routed]

variable {handler : Handler σ} {passed : HttpRequest} (routed : server.router.target? mutableReq = some (handler, passed))
include routed

theorem handleRequestCalls_routed (resp : HttpResponse) (state : σ) :
    server.handleRequestCalls request resp state = (handler passed resp state).map server.finishCalls := by
  simp only [handleRequestCalls, completes, routed]

/-- An answer to what is thrown has passed no middleware. -/
theorem passesAfter_thrown_iff {thrown : Exception} {resp' : HttpResponse} {state' : σ}
    (threw : handler passed resp state = some (some thrown, resp', state')) :
    server.PassesAfter request resp state ↔ (thrown ≠ .other → server.middlewares = []) := by
  have handled : server.handleRequestCalls request resp state = some ([], caught thrown resp' state') := by
    rw [handleRequestCalls_routed completes routed, threw]
    rfl
  rw [PassesAfter, handled]
  constructor
  · intro passes known
    obtain ⟨sent, answered⟩ := @caught_answers _ resp' state' _ known
    have none : [] = (List.range server.middlewares.length).reverse := passes [] sent.1 sent.2 (by rw [answered])
    simpa using none.symm
  · intro free calls sent final result
    obtain ⟨rfl, answered⟩ := Prod.mk.inj (Option.some.inj result)
    have known : thrown ≠ .other := by
      intro other
      subst other
      cases answered
    rw [free known]
    rfl

end

/-- Where the route throws nothing there is nothing to be caught. -/
theorem not_caughtPastChain (returns : ∀ handler passed thrown resp' state',
      server.router.target? mutableReq = some (handler, passed) → handler passed resp state ≠ some (some thrown, resp', state')) :
    ¬ server.CaughtPastChain mutableReq resp state := by
  intro past
  obtain ⟨_, handler, passed, thrown, resp', state', routed, threw, _⟩ := past
  exact returns handler passed thrown resp' state' routed threw

/-- The response passes the middlewares unless what the route throws is caught. -/
theorem passesAfter_iff (quiet : MiddlewareChain.Quiet server.middlewares)
    (completes : MiddlewareChain.processBefore server.middlewares request = .ok mutableReq) (resp : HttpResponse) (state : σ) :
    server.PassesAfter request resp state ↔ ¬ server.CaughtPastChain mutableReq resp state := by
  cases routed : server.router.target? mutableReq with
  | none =>
    refine iff_of_true ?_ (not_caughtPastChain ?_)
    · intro calls sent state' result
      rw [handleRequestCalls_unrouted completes routed] at result
      exact processAfterCalls_quiet quiet (Option.some.inj result)
    · intro _ _ _ _ _ target
      cases routed.symm.trans target
  | some found =>
    obtain ⟨handler, passed⟩ := found
    cases returned : handler passed resp state with
    | none =>
      refine iff_of_true ?_ (not_caughtPastChain ?_)
      · intro calls sent state' result
        rw [handleRequestCalls_routed completes routed, returned] at result
        cases result
      · intro _ _ _ _ _ target threw
        cases routed.symm.trans target
        cases returned.symm.trans threw
    | some result =>
      obtain ⟨thrown, resp', state'⟩ := result
      cases thrown with
      | none =>
        refine iff_of_true ?_ (not_caughtPastChain ?_)
        · intro calls sent state' result
          rw [handleRequestCalls_routed completes routed, returned] at result
          exact processAfterCalls_quiet quiet (Option.some.inj result)
        · intro _ _ _ _ _ target threw
          cases routed.symm.trans target
          cases returned.symm.trans threw
      | some thrown =>
        rw [passesAfter_thrown_iff completes routed returned]
        constructor
        · intro free ⟨chain, _, _, _, _, _, target, threw, known⟩
          cases routed.symm.trans target
          cases returned.symm.trans threw
          exact chain (free known)
        · intro free known
          by_contra chain
          exact free ⟨chain, handler, passed, thrown, resp', state', routed, returned, known⟩

/-- A server with one middleware and one route, whose handler throws. -/
def throwing : HttpServer Unit where
  router := Router.registerCallback .kGet (ascii "/fail") (fun _ resp state => some (some (.std (ascii "fail")), resp, state)) {}
  middlewares := [corsMiddleware .defaultConfig]

theorem throwing_quiet : MiddlewareChain.Quiet throwing.middlewares := by
  intro middleware member response
  cases List.mem_singleton.mp member
  rfl

/-- A path without a route. -/
theorem passesAfter_notFound : throwing.PassesAfter { method := .kGet, path := ascii "/" } {} () := by
  apply (passesAfter_iff throwing_quiet rfl {} ()).mpr
  intro caught
  obtain ⟨_, _, _, _, _, _, target, _⟩ := caught
  have unrouted : throwing.router.target? { method := .kGet, path := ascii "/" } = none := rfl
  cases unrouted.symm.trans target

/-- The answer with the code 500 passes no middleware. -/
theorem error_answer_unprocessed :
    ¬ ∀ (server : HttpServer Unit) (request mutableReq : HttpRequest) (resp : HttpResponse) (state : Unit),
      MiddlewareChain.Quiet server.middlewares →
      MiddlewareChain.processBefore server.middlewares request = .ok mutableReq →
      server.PassesAfter request resp state := by
  intro passes
  have none := passes throwing { method := .kGet, path := ascii "/fail" } _ {} () throwing_quiet rfl [] _ _ rfl
  cases none

end HttpServer

end HttpFramework.Http
