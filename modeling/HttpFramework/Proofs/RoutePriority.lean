import HttpFramework.Http.Router

/-! Which registration takes a request. The four tables are filled by any sequence of calls; `route`
agrees with one rule over the sequence itself. -/

namespace HttpFramework.Http

inductive RouteTable where
  | handlers
  | callbacks
  | regexHandlers
  | regexCallbacks
deriving DecidableEq, Repr

/-- A call of `registerHandler`, `registerCallback`, `addRegexHandler` or `addRegexCallback`. -/
structure Registration (σ : Type) where
  table : RouteTable
  method : Method
  path : Bytes
  handler : Handler σ

section
variable {σ : Type} (regexOf : Bytes → Option PathRegex)

namespace Registration

/-- A pattern that is no regular expression throws, and nothing is registered. -/
def register (router : Router σ) (registration : Registration σ) : Router σ :=
  match registration.table with
  | .handlers => router.registerHandler registration.method registration.path registration.handler
  | .callbacks => router.registerCallback registration.method registration.path registration.handler
  | .regexHandlers =>
    match regexOf registration.path with
    | some pathRegex => router.addRegexHandler registration.method pathRegex registration.handler
    | none => router
  | .regexCallbacks =>
    match regexOf registration.path with
    | some pathRegex => router.addRegexCallback registration.method pathRegex registration.handler
    | none => router

/-- The path is that of the request, or the pattern matches it. -/
def matchesPath (registration : Registration σ) (path : Bytes) : Bool :=
  match registration.table with
  | .handlers | .callbacks => registration.path = path
  | .regexHandlers | .regexCallbacks => ((regexOf registration.path).bind (· path)).isSome

def takes (registration : Registration σ) (request : HttpRequest) : Bool :=
  registration.method = request.method && registration.matchesPath regexOf request.path

/-- It takes the request, as an entry of the table. -/
def takesIn (table : RouteTable) (request : HttpRequest) (registration : Registration σ) : Bool :=
  registration.table = table && registration.takes regexOf request

/-- The route that a dynamic registration appends to its table. -/
def routeIn (table : RouteTable) (registration : Registration σ) : Option (RegexRoute σ) :=
  if registration.table = table then
    (regexOf registration.path).map fun pathRegex => ⟨registration.method, pathRegex, registration.handler⟩
  else none

/-- What its pattern captures. -/
def captured (request : HttpRequest) (registration : Registration σ) : Option (Handler σ × List Bytes) :=
  ((regexOf registration.path).bind (· request.path)).map (registration.handler, ·)

end Registration

/-- The router after the calls. -/
def registered (registrations : List (Registration σ)) : Router σ := registrations.foldl (Registration.register regexOf) {}

section
variable (table : RouteTable) (registrations : List (Registration σ)) (request : HttpRequest)

def lastIn : Option (Registration σ) := registrations.reverse.find? (Registration.takesIn regexOf table request)

def firstIn : Option (Registration σ) := registrations.find? (Registration.takesIn regexOf table request)

/-- The last handler for the path, else the last callback for it, else the first matching dynamic
handler, else the first matching dynamic callback. -/
def prescribed : Option (Registration σ) :=
  (lastIn regexOf .handlers registrations request).or <| (lastIn regexOf .callbacks registrations request).or <|
    (firstIn regexOf .regexHandlers registrations request).or <| firstIn regexOf .regexCallbacks registrations request

end

variable {regexOf} {registrations : List (Registration σ)} {registration : Registration σ} {table : RouteTable}
  {request : HttpRequest}

theorem registered_concat (registrations : List (Registration σ)) (registration : Registration σ) :
    registered regexOf (registrations ++ [registration]) =
      registration.register regexOf (registered regexOf registrations) := by
  rw [registered, List.foldl_append]
  rfl

/-- What a table of exact paths has for the request. -/
def Router.boundIn (router : Router σ) (request : HttpRequest) : RouteTable → Option (Handler σ)
  | .handlers => router.handlers ⟨request.method, request.path⟩
  | .callbacks => router.callbacks ⟨request.method, request.path⟩
  | _ => none

def Router.routesIn (router : Router σ) : RouteTable → List (RegexRoute σ)
  | .regexHandlers => router.regexHandlers
  | .regexCallbacks => router.regexCallbacks
  | _ => []

theorem boundIn_register (exactPaths : table = .handlers ∨ table = .callbacks) (router : Router σ)
    (registration : Registration σ) (request : HttpRequest) :
    (registration.register regexOf router).boundIn request table =
      if registration.takesIn regexOf table request then some registration.handler else router.boundIn request table := by
  obtain ⟨own, method, path, handler⟩ := registration
  have same : (request.method = method ∧ request.path = path) ↔ (method = request.method ∧ path = request.path) := by
    rw [eq_comm, @eq_comm _ request.path]
  rcases exactPaths with rfl | rfl <;> cases own <;> cases compiled : regexOf path <;>
    simp [Router.boundIn, Registration.register, Registration.takesIn, Registration.takes, Registration.matchesPath, compiled,
      same, Router.registerHandler, Router.registerCallback, Router.addRegexHandler, Router.addRegexCallback,
      Function.update_apply]

theorem routesIn_register (router : Router σ) (registration : Registration σ)
    (patterns : table = .regexHandlers ∨ table = .regexCallbacks) :
    (registration.register regexOf router).routesIn table =
      router.routesIn table ++ (registration.routeIn regexOf table).toList := by
  obtain ⟨own, method, path, handler⟩ := registration
  rcases patterns with rfl | rfl <;> cases own <;> cases compiled : regexOf path <;>
    simp [Router.routesIn, Registration.register, Registration.routeIn, compiled, Router.registerHandler,
      Router.registerCallback, Router.addRegexHandler, Router.addRegexCallback]

theorem takesIn_pattern (patterns : table = .regexHandlers ∨ table = .regexCallbacks) :
    registration.takesIn regexOf table request =
      (registration.table = table && (registration.method = request.method && (registration.captured regexOf request).isSome)) := by
  obtain ⟨own, method, path, handler⟩ := registration
  rcases patterns with rfl | rfl <;> cases own <;> cases compiled : regexOf path <;>
    simp [Registration.takesIn, Registration.takes, Registration.matchesPath, Registration.captured, compiled]

section
variable (registrations : List (Registration σ)) (request : HttpRequest)

/-- The last registration decides what a path is bound to. -/
theorem boundIn_registered (exactPaths : table = .handlers ∨ table = .callbacks) :
    (registered regexOf registrations).boundIn request table =
      (lastIn regexOf table registrations request).map Registration.handler := by
  induction registrations using List.reverseRecOn with
  | nil => rcases exactPaths with rfl | rfl <;> rfl
  | append_singleton registrations registration ih =>
    rw [registered_concat, boundIn_register exactPaths, ih, lastIn, lastIn, List.reverse_concat, List.find?_cons]
    cases registration.takesIn regexOf table request <;> rfl

/-- Dynamic routes stand in the order of their registrations. -/
theorem routesIn_registered (patterns : table = .regexHandlers ∨ table = .regexCallbacks) :
    (registered regexOf registrations).routesIn table = registrations.filterMap (Registration.routeIn regexOf table) := by
  induction registrations using List.reverseRecOn with
  | nil => rcases patterns with rfl | rfl <;> rfl
  | append_singleton registrations registration ih =>
    rw [registered_concat, routesIn_register _ _ patterns, ih, List.filterMap_append]
    cases found : registration.routeIn regexOf table <;> simp [found]

/-- The first route to take the request is that of the first registration to take it. -/
theorem matching_routes (patterns : table = .regexHandlers ∨ table = .regexCallbacks) :
    Router.matching (registrations.filterMap (Registration.routeIn regexOf table)) request =
      (firstIn regexOf table registrations request).bind (Registration.captured regexOf request) := by
  induction registrations with
  | nil => rfl
  | cons registration registrations ih =>
    rw [firstIn, List.find?_cons, takesIn_pattern patterns, ← firstIn]
    by_cases same : registration.table = table
    · cases compiled : regexOf registration.path with
      | none =>
        have unrouted : registration.routeIn regexOf table = none := by rw [Registration.routeIn, if_pos same, compiled]; rfl
        have missed : registration.captured regexOf request = none := by rw [Registration.captured, compiled]; rfl
        rw [List.filterMap_cons_none unrouted, ih, missed]
        simp
      | some pathRegex =>
        have routed : registration.routeIn regexOf table = some ⟨registration.method, pathRegex, registration.handler⟩ := by
          rw [Registration.routeIn, if_pos same, compiled]
          rfl
        have captured : registration.captured regexOf request = (pathRegex request.path).map (registration.handler, ·) := by
          rw [Registration.captured, compiled]
          rfl
        rw [List.filterMap_cons_some routed, Router.matching, List.findSome?_cons, ← Router.matching, ih, captured]
        by_cases sameMethod : registration.method = request.method
        · cases matched : pathRegex request.path <;> simp [same, sameMethod, matched, captured]
        · simp [sameMethod]
    · have unrouted : registration.routeIn regexOf table = none := by rw [Registration.routeIn, if_neg same]
      rw [List.filterMap_cons_none unrouted, ih]
      simp [same]

theorem matching_registered (patterns : table = .regexHandlers ∨ table = .regexCallbacks) :
    Router.matching ((registered regexOf registrations).routesIn table) request =
      (firstIn regexOf table registrations request).bind (Registration.captured regexOf request) := by
  rw [routesIn_registered _ patterns, matching_routes _ _ patterns]

end

/-- A registration that takes the request is found in its own table. -/
theorem unprescribed (unfound : prescribed regexOf registrations request = none) :
    ∀ registration ∈ registrations, registration.takes regexOf request = false := by
  simp only [prescribed, lastIn, firstIn, Option.or_eq_none_iff, List.find?_eq_none, List.mem_reverse] at unfound
  obtain ⟨noHandler, noCallback, unhandled, uncalled⟩ := unfound
  intro registration member
  cases table : registration.table with
  | handlers => simpa [Registration.takesIn, table] using noHandler registration member
  | callbacks => simpa [Registration.takesIn, table] using noCallback registration member
  | regexHandlers => simpa [Registration.takesIn, table] using unhandled registration member
  | regexCallbacks => simpa [Registration.takesIn, table] using uncalled registration member

theorem captured_of_taken (patterns : table = .regexHandlers ∨ table = .regexCallbacks)
    (found : firstIn regexOf table registrations request = some registration) :
    ∃ groups, registration.captured regexOf request = some (registration.handler, groups) := by
  have taken := List.find?_some found
  rw [takesIn_pattern patterns, Bool.and_eq_true, Bool.and_eq_true] at taken
  obtain ⟨both, captured⟩ := Option.isSome_iff_exists.mp taken.2.2
  have own := captured
  rw [Registration.captured, Option.map_eq_some_iff] at own
  obtain ⟨groups, -, rfl⟩ := own
  exact ⟨groups, captured⟩

theorem route_prescribed (registrations : List (Registration σ)) (request : HttpRequest) (resp : HttpResponse) (state : σ) :
    (∃ registration passed, prescribed regexOf registrations request = some registration ∧
        ((registered regexOf registrations).route request resp state).calls = [(registration.handler, passed)] ∧
          ((registered regexOf registrations).route request resp state).outcome =
            (registration.handler passed resp state).map fun left => (left.1.elim (.ok true) .error, left.2)) ∨
      (∀ registration ∈ registrations, registration.takes regexOf request = false) ∧
        ((registered regexOf registrations).route request resp state).calls = [] ∧
          ((registered regexOf registrations).route request resp state).outcome = some (.ok false, resp, state) := by
  have handlers : (registered regexOf registrations).handlers ⟨request.method, request.path⟩ = _ :=
    boundIn_registered registrations request (.inl rfl)
  have callbacks : (registered regexOf registrations).callbacks ⟨request.method, request.path⟩ = _ :=
    boundIn_registered registrations request (.inr rfl)
  have regexHandlers : Router.matching (registered regexOf registrations).regexHandlers request = _ :=
    matching_registered registrations request (.inl rfl)
  have regexCallbacks : Router.matching (registered regexOf registrations).regexCallbacks request = _ :=
    matching_registered registrations request (.inr rfl)
  rw [Router.route, handlers]
  cases handled : lastIn regexOf .handlers registrations request with
  | some registration => exact .inl ⟨registration, request, by rw [prescribed, handled]; rfl, rfl, rfl⟩
  | none =>
    rw [callbacks]
    cases called : lastIn regexOf .callbacks registrations request with
    | some registration => exact .inl ⟨registration, request, by rw [prescribed, handled, called]; rfl, rfl, rfl⟩
    | none =>
      rw [regexHandlers]
      cases matched : firstIn regexOf .regexHandlers registrations request with
      | some registration =>
        obtain ⟨groups, captured⟩ := captured_of_taken (.inl rfl) matched
        have found : prescribed regexOf registrations request = some registration := by
          rw [prescribed, handled, called, matched]
          rfl
        rw [Option.bind_some, captured]
        exact .inl ⟨registration, _, found, rfl, rfl⟩
      | none =>
        rw [regexCallbacks]
        cases passed : firstIn regexOf .regexCallbacks registrations request with
        | some registration =>
          obtain ⟨groups, captured⟩ := captured_of_taken (.inr rfl) passed
          have found : prescribed regexOf registrations request = some registration := by
            rw [prescribed, handled, called, matched, passed]
            rfl
          rw [Option.bind_some, captured]
          exact .inl ⟨registration, _, found, rfl, rfl⟩
        | none =>
          have unfound : prescribed regexOf registrations request = none := by
            rw [prescribed, handled, called, matched, passed]
            rfl
          exact .inr ⟨unprescribed unfound, rfl, rfl⟩

end

end HttpFramework.Http
