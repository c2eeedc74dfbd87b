import HttpFramework.Http.Router
import HttpFramework.Proofs.RequestFormat

/-! What a dynamic route passes on. The parts captured are bound to `param1`, `param2` and so on, in a
copy of the request, and a dynamic callback is called with the original. -/

namespace HttpFramework.Http

def paramName (number : Nat) : Bytes := ascii "param" ++ decimal number

theorem paramName_injective {first second : Nat} (same : paramName first = paramName second) : first = second :=
  decimal_injective (List.append_cancel_left same)

/-- The request, with the captured parts bound. -/
structure ExtendedWith (request : HttpRequest) (groups : List Bytes) (passed : HttpRequest) : Prop where
  other : passed = { request with pathParameters := passed.pathParameters }
  bound : ∀ index part, groups[index]? = some part → passed.pathParameters[paramName (index + 1)]? = some part
  kept : ∀ key, (∀ index < groups.length, key ≠ paramName (index + 1)) →
    passed.pathParameters[key]? = request.pathParameters[key]?

section
variable {request passed passed' : HttpRequest} {groups : List Bytes}

theorem ExtendedWith.unique (first : ExtendedWith request groups passed) (second : ExtendedWith request groups passed') :
    passed = passed' := by
  have same : passed.pathParameters = passed'.pathParameters := by
    refine Std.ExtTreeMap.ext_getElem? fun key => ?_
    by_cases named : ∃ index < groups.length, key = paramName (index + 1)
    · obtain ⟨index, inside, rfl⟩ := named
      have there := List.getElem?_eq_getElem inside
      rw [first.bound index _ there, second.bound index _ there]
    · have free : ∀ index < groups.length, key ≠ paramName (index + 1) := fun index inside same => named ⟨index, inside, same⟩
      rw [first.kept key free, second.kept key free]
  rw [first.other, second.other, same]

/-- The parts that are bound from a number on. -/
def bindFrom (groups : List Bytes) (number : Nat) (request : HttpRequest) : HttpRequest :=
  (groups.zipIdx number).foldl (fun request group => request.setPathParameters (paramName group.2) group.1) request

theorem bindFrom_cons (part : Bytes) (groups : List Bytes) (number : Nat) (request : HttpRequest) :
    bindFrom (part :: groups) number request = bindFrom groups (number + 1) (request.setPathParameters (paramName number) part) :=
  rfl

theorem bindFrom_other (groups : List Bytes) (number : Nat) (request : HttpRequest) :
    bindFrom groups number request = { request with pathParameters := (bindFrom groups number request).pathParameters } := by
  induction groups generalizing number request with
  | nil => rfl
  | cons part groups ih =>
    rw [bindFrom_cons, ih]
    rfl

theorem bindFrom_kept (groups : List Bytes) (number : Nat) (request : HttpRequest) {key : Bytes}
    (free : ∀ index < groups.length, key ≠ paramName (number + index)) :
    (bindFrom groups number request).pathParameters[key]? = request.pathParameters[key]? := by
  induction groups generalizing number request with
  | nil => rfl
  | cons part groups ih =>
    have other : key ≠ paramName number := free 0 (Nat.zero_lt_succ _)
    have later : ∀ index < groups.length, key ≠ paramName (number + 1 + index) := by
      intro index inside
      have apart := free (index + 1) (Nat.succ_lt_succ inside)
      rwa [Nat.add_right_comm]
    rw [bindFrom_cons, ih _ _ later, HttpRequest.setPathParameters, Std.ExtTreeMap.getElem?_insert,
      if_neg fun same => other (Std.LawfulEqCmp.eq_of_compare same).symm]

theorem bindFrom_bound (groups : List Bytes) (number : Nat) (request : HttpRequest) {index : Nat} {part : Bytes}
    (there : groups[index]? = some part) :
    (bindFrom groups number request).pathParameters[paramName (number + index)]? = some part := by
  induction groups generalizing number request index with
  | nil => cases there
  | cons first groups ih =>
    rw [bindFrom_cons]
    cases index with
    | zero =>
      obtain rfl : first = part := by simpa using there
      have later : ∀ index < groups.length, paramName (number + 0) ≠ paramName (number + 1 + index) := by
        intro index _ same
        have := paramName_injective same
        omega
      rw [bindFrom_kept _ _ _ later, HttpRequest.setPathParameters, Nat.add_zero, Std.ExtTreeMap.getElem?_insert_self]
    | succ index =>
      have later := ih (number + 1) (request.setPathParameters (paramName number) first) (by simpa using there)
      rwa [show number + (index + 1) = number + 1 + index by omega]

theorem extendedWith_extract (groups : List Bytes) (request : HttpRequest) :
    ExtendedWith request groups (Router.extractPathParameters groups request) := by
  refine ⟨bindFrom_other groups 1 request, fun index part there => ?_, fun key free => ?_⟩
  · rw [Nat.add_comm]
    exact bindFrom_bound groups 1 request there
  · refine bindFrom_kept groups 1 request fun index inside => ?_
    rw [Nat.add_comm]
    exact free index inside

end

section
variable {σ : Type} {router withHandler withCallback : Router σ} {route : RegexRoute σ} {routes : List (RegexRoute σ)}
  {request : HttpRequest} {groups : List Bytes} {method : Method} {pathRegex : PathRegex} {handler callback : Handler σ}

/-- The route is the first in its table to take the request. -/
structure RegexRoute.First (route : RegexRoute σ) (routes : List (RegexRoute σ)) (request : HttpRequest) (groups : List Bytes) :
    Prop where
  sameMethod : route.method = request.method
  matched : route.pathRegex request.path = some groups
  listed : ∃ before after, routes = before ++ route :: after ∧ Router.matching before request = none

namespace Router

/-- A dynamic handler takes the request. -/
structure TakenByHandler (router : Router σ) (route : RegexRoute σ) (request : HttpRequest) (groups : List Bytes) : Prop where
  noHandler : router.handlers ⟨request.method, request.path⟩ = none
  noCallback : router.callbacks ⟨request.method, request.path⟩ = none
  first : route.First router.regexHandlers request groups

/-- A dynamic callback takes the request, as no dynamic handler does. -/
structure TakenByCallback (router : Router σ) (route : RegexRoute σ) (request : HttpRequest) (groups : List Bytes) : Prop where
  noHandler : router.handlers ⟨request.method, request.path⟩ = none
  noCallback : router.callbacks ⟨request.method, request.path⟩ = none
  unhandled : matching router.regexHandlers request = none
  first : route.First router.regexCallbacks request groups

theorem matching_first (first : route.First routes request groups) : matching routes request = some (route.handler, groups) := by
  obtain ⟨before, after, rfl, missed⟩ := first.listed
  rw [matching, List.findSome?_append]
  rw [matching] at missed
  rw [missed, Option.none_or, List.findSome?_cons, if_pos first.sameMethod, first.matched]
  rfl

theorem unrouted_iff : router.target? request = none ↔ router.handlers ⟨request.method, request.path⟩ = none ∧
    router.callbacks ⟨request.method, request.path⟩ = none ∧ matching router.regexHandlers request = none ∧
      matching router.regexCallbacks request = none := by
  rw [target?]
  cases router.handlers ⟨request.method, request.path⟩ <;> cases router.callbacks ⟨request.method, request.path⟩ <;>
    cases matching router.regexHandlers request <;> simp

theorem takenByHandler_add (unrouted : router.target? request = none) (sameMethod : method = request.method)
    (matched : pathRegex request.path = some groups) :
    (router.addRegexHandler method pathRegex handler).TakenByHandler ⟨method, pathRegex, handler⟩ request groups := by
  obtain ⟨noHandler, noCallback, unhandled, -⟩ := unrouted_iff.mp unrouted
  exact ⟨noHandler, noCallback, sameMethod, matched, router.regexHandlers, [], rfl, unhandled⟩

theorem takenByCallback_add (unrouted : router.target? request = none) (sameMethod : method = request.method)
    (matched : pathRegex request.path = some groups) :
    (router.addRegexCallback method pathRegex callback).TakenByCallback ⟨method, pathRegex, callback⟩ request groups := by
  obtain ⟨noHandler, noCallback, unhandled, uncalled⟩ := unrouted_iff.mp unrouted
  exact ⟨noHandler, noCallback, unhandled, sameMethod, matched, router.regexCallbacks, [], rfl, uncalled⟩

theorem target_of_takenByHandler (taken : router.TakenByHandler route request groups) :
    router.target? request = some (route.handler, extractPathParameters groups request) := by
  rw [target?, taken.noHandler, taken.noCallback, matching_first taken.first]

/-- The copy with the captured parts is dropped. -/
theorem target_of_takenByCallback (taken : router.TakenByCallback route request groups) :
    router.target? request = some (route.handler, request) := by
  rw [target?, taken.noHandler, taken.noCallback, taken.unhandled, matching_first taken.first]
  rfl

theorem passes_alike_iff (handled : withHandler.TakenByHandler ⟨method, pathRegex, handler⟩ request groups)
    (called : withCallback.TakenByCallback ⟨method, pathRegex, callback⟩ request groups) :
    (∃ passed, ExtendedWith request groups passed ∧ withHandler.target? request = some (handler, passed) ∧
        withCallback.target? request = some (callback, passed)) ↔
      ∀ index part, groups[index]? = some part → request.pathParameters[paramName (index + 1)]? = some part := by
  rw [target_of_takenByHandler handled, target_of_takenByCallback called]
  constructor
  · rintro ⟨passed, extended, -, same⟩
    obtain rfl : request = passed := congrArg Prod.snd (Option.some.inj same)
    exact extended.bound
  · intro there
    have extended := extendedWith_extract groups request
    have unchanged : ExtendedWith request groups request := ⟨rfl, there, fun _ _ => rfl⟩
    have same := extended.unique unchanged
    exact ⟨_, extended, rfl, congrArg (fun passed => some (callback, passed)) same.symm⟩

/-- A handler or callback that shows its parameter. -/
def showId : Handler Unit := fun request resp state =>
  some (none, { resp with body := request.getPathParameters (paramName 1) }, state)

def userRegex : PathRegex := (convertToRegex (ascii "/user/:id")).getD fun _ => none

def userRequest : HttpRequest := { method := .kGet, path := ascii "/user/7" }

theorem userRegex_matches : userRegex userRequest.path = some [ascii "7"] := by decide

def userHandlers : Router Unit := ({} : Router Unit).addRegexHandler .kGet userRegex showId

def userCallbacks : Router Unit := ({} : Router Unit).addRegexCallback .kGet userRegex showId

theorem userHandlers_taken : userHandlers.TakenByHandler ⟨.kGet, userRegex, showId⟩ userRequest [ascii "7"] :=
  takenByHandler_add (show target? {} userRequest = none from rfl) rfl userRegex_matches

theorem userCallbacks_taken : userCallbacks.TakenByCallback ⟨.kGet, userRegex, showId⟩ userRequest [ascii "7"] :=
  takenByCallback_add (show target? {} userRequest = none from rfl) rfl userRegex_matches

theorem passes_alike_user :
    (∃ passed, ExtendedWith userRequest [ascii "7"] passed ∧ userHandlers.target? userRequest = some (showId, passed) ∧
        userCallbacks.target? userRequest = some (showId, passed)) ↔
      ∀ index part, [ascii "7"][index]? = some part → userRequest.pathParameters[paramName (index + 1)]? = some part :=
  passes_alike_iff userHandlers_taken userCallbacks_taken

theorem callback_passed_original : ¬ ∀ (withHandler withCallback : Router Unit) method pathRegex handler callback request groups,
    withHandler.TakenByHandler ⟨method, pathRegex, handler⟩ request groups →
      withCallback.TakenByCallback ⟨method, pathRegex, callback⟩ request groups →
        ∃ passed, ExtendedWith request groups passed ∧ withHandler.target? request = some (handler, passed) ∧
          withCallback.target? request = some (callback, passed) := by
  intro alike
  obtain ⟨passed, extended, -, same⟩ := alike _ _ _ _ _ _ _ _ userHandlers_taken userCallbacks_taken
  rw [target_of_takenByCallback userCallbacks_taken] at same
  obtain rfl : userRequest = passed := congrArg Prod.snd (Option.some.inj same)
  have bound := extended.bound 0 (ascii "7") rfl
  exact absurd bound (by decide)

end Router

end

end HttpFramework.Http
