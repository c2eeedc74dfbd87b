import HttpFramework.Proofs.RequestFormat

/-! What `processRequestLine` does with a line, told by the form of the line. -/

namespace HttpFramework.Http
open Search

/-- A supported method, a target without spaces and a version. -/
def ValidLine (line : Bytes) : Prop :=
  ∃ wire : WireRequest, wire.method.Supported ∧ chr ' ' ∉ wire.target ∧ line = wire.requestLine

/-- The line starts like the request line of a supported method. -/
def NamesMethod (line : Bytes) : Prop :=
  ∃ method rest, Method.Supported method ∧ line = method.text ++ chr ' ' :: rest

/-- The three words of a request line. The target may be empty. -/
structure LineWords (line : Bytes) (method : Method) (target : Bytes) (version : Version) : Prop where
  supported : method.Supported
  targetSpace : chr ' ' ∉ target
  words : line = method.text ++ chr ' ' :: (target ++ chr ' ' :: version.text)

/-- A request after its line has been stored: the target is cut at its first `?`. -/
structure StoresWords (request stored : HttpRequest) (method : Method) (target : Bytes) (version : Version) : Prop where
  method : stored.method = method
  version : stored.version = version.text
  unasked : chr '?' ∉ target → stored.path = target ∧ stored.queryParameters = request.queryParameters
  asked : ∀ path query, chr '?' ∉ path → target = path ++ chr '?' :: query →
    stored.path = path ∧ stored.queryParameters = (request.setQueryParameters query).queryParameters

theorem ValidLine.words {line : Bytes} (valid : ValidLine line) :
    ∃ method target version, LineWords line method target version := by
  obtain ⟨wire, supported, targetSpace, same⟩ := valid
  exact ⟨wire.method, wire.target, wire.version, supported, targetSpace, same⟩

theorem ValidLine.namesMethod {line : Bytes} (valid : ValidLine line) : NamesMethod line := by
  obtain ⟨wire, supported, _, same⟩ := valid
  exact ⟨wire.method, _, supported, same⟩

theorem NamesMethod.space {line : Bytes} (named : NamesMethod line) : chr ' ' ∈ line := by
  obtain ⟨method, rest, _, rfl⟩ := named
  simp

theorem acceptVersion_eq_some {text version : Bytes} (accepted : HttpContext.acceptVersion text = some version) :
    ∃ known : Version, text = known.text ∧ version = known.text := by
  unfold HttpContext.acceptVersion at accepted
  split at accepted
  next shape =>
    obtain ⟨size, start⟩ := shape
    have tail : (text.drop 7).length = 1 := by rw [List.length_drop, size]
    obtain ⟨last, single⟩ := List.length_eq_one_iff.mp tail
    have whole : text = ascii "HTTP/1." ++ [last] := by
      rw [← start, ← single, List.take_append_drop]
    have ending : text.getLast? = some last := by rw [whole, List.getLast?_concat]
    rw [ending] at accepted
    split at accepted
    next one =>
      cases accepted
      exact ⟨.http11, by rw [whole, Option.some.inj one]; decide, rfl⟩
    next =>
      split at accepted
      next zero =>
        cases accepted
        exact ⟨.http10, by rw [whole, Option.some.inj zero]; decide, rfl⟩
      next => cases accepted
  next => cases accepted

namespace HttpContext

variable {request : HttpRequest}

theorem setMethod_cases (fresh : request.method = .kInvalid) (word : Bytes) :
    (∃ method : Method, method.Supported ∧ word = method.text ∧
      request.setMethod word = some (true, { request with method })) ∨
    (∀ method : Method, method.Supported → word ≠ method.text) ∧ request.setMethod word = some (false, request) := by
  by_cases known : ∃ method : Method, method.Supported ∧ word = method.text
  · obtain ⟨method, supported, rfl⟩ := known
    exact .inl ⟨method, supported, rfl, setMethod_text fresh supported⟩
  · right
    have unknown (method : Method) (supported : method.Supported) : word ≠ method.text :=
      fun same => known ⟨method, supported, same⟩
    have get : word ≠ ascii "GET" := unknown .kGet (by decide)
    have post : word ≠ ascii "POST" := unknown .kPost (by decide)
    have put : word ≠ ascii "PUT" := unknown .kPut (by decide)
    have delete : word ≠ ascii "DELETE" := unknown .kDelete (by decide)
    have options : word ≠ ascii "OPTIONS" := unknown .kOptions (by decide)
    refine ⟨unknown, ?_⟩
    rw [HttpRequest.setMethod, if_pos fresh]
    simp only [get, post, put, delete, options, if_false, bne_self_eq_false]
    rw [← fresh]

theorem processRequestLine_of_no_space (request : HttpRequest) {line : Bytes} (absent : chr ' ' ∉ line) :
    processRequestLine request line = some (false, request) := by
  simp only [processRequestLine, List.idxOf_eq_length absent, ne_eq, not_true, if_false]

theorem processRequestLine_of_stored (stored : request.method ≠ .kInvalid) {line : Bytes} (space : chr ' ' ∈ line) :
    processRequestLine request line = none := by
  have inside := (List.idxOf_lt_length_of_mem space).ne
  have asserts (word : Bytes) : request.setMethod word = none := by rw [HttpRequest.setMethod, if_neg stored]
  simp only [processRequestLine, ne_eq, inside, not_false_eq_true, if_true, asserts]

theorem processRequestLine_of_validLine (fresh : request.method = .kInvalid) {line : Bytes} (valid : ValidLine line) :
    ∃ wire : WireRequest, wire.method.Supported ∧ chr ' ' ∉ wire.target ∧ line = wire.requestLine ∧
      processRequestLine request line = some (true, wire.lineRequest request) := by
  obtain ⟨wire, supported, targetSpace, rfl⟩ := valid
  exact ⟨wire, supported, targetSpace, rfl, processRequestLine_render supported targetSpace fresh⟩

/-- A line that names a method and then goes wrong leaves the method stored. -/
theorem processRequestLine_of_namesMethod (fresh : request.method = .kInvalid) {line : Bytes} (named : NamesMethod line)
    (broken : ¬ ValidLine line) :
    ∃ stored, processRequestLine request line = some (false, stored) ∧ stored.method ≠ .kInvalid := by
  obtain ⟨method, rest, supported, rfl⟩ := named
  have known : method ≠ .kInvalid := by rintro rfl; exact absurd supported (by decide)
  have inside : method.text.length ≠ (method.text ++ chr ' ' :: rest).length := by
    simp only [List.length_append, List.length_cons]; omega
  have behind : (method.text ++ chr ' ' :: rest).drop (method.text.length + 1) = rest := by simp
  simp only [processRequestLine]
  rw [idxOf_join (space_not_mem_text method) rest, if_pos inside, List.take_left, setMethod_text fresh supported]
  dsimp only
  rw [behind]
  by_cases more : rest.idxOf (chr ' ') ≠ rest.length
  · rw [if_pos more]
    obtain ⟨cut, targetSpace⟩ := idxOf_cut more
    cases accepted : acceptVersion (rest.drop (rest.idxOf (chr ' ') + 1)) with
    | some version =>
      obtain ⟨known, text, _⟩ := acceptVersion_eq_some accepted
      rw [text] at cut
      refine absurd ⟨⟨method, rest.take (rest.idxOf (chr ' ')), known, [], []⟩, supported, targetSpace, ?_⟩ broken
      rw [WireRequest.requestLine, ← cut]
    | none =>
      refine ⟨_, rfl, ?_⟩
      rw [storeTarget_eq]
      exact known
  · rw [if_neg more]
    exact ⟨_, rfl, known⟩

theorem processRequestLine_of_unnamed (fresh : request.method = .kInvalid) {line : Bytes} (space : chr ' ' ∈ line)
    (unnamed : ¬ NamesMethod line) : processRequestLine request line = some (false, request) := by
  have inside := (List.idxOf_lt_length_of_mem space).ne
  have cut := (idxOf_cut inside).1
  rcases setMethod_cases fresh (line.take (line.idxOf (chr ' '))) with ⟨method, supported, word, _⟩ | ⟨_, rejected⟩
  · rw [word] at cut
    exact absurd ⟨method, _, supported, cut⟩ unnamed
  · simp only [processRequestLine, ne_eq, inside, not_false_eq_true, if_true, rejected]

theorem validLine_of_accepted {line : Bytes} {stored : HttpRequest}
    (accepted : processRequestLine request line = some (true, stored)) :
    request.method = .kInvalid ∧ ValidLine line := by
  by_cases space : chr ' ' ∈ line
  · by_cases fresh : request.method = .kInvalid
    · refine ⟨fresh, ?_⟩
      by_contra broken
      by_cases named : NamesMethod line
      · obtain ⟨_, rejected, _⟩ := processRequestLine_of_namesMethod fresh named broken
        rw [rejected] at accepted
        cases accepted
      · rw [processRequestLine_of_unnamed fresh space named] at accepted
        cases accepted
    · rw [processRequestLine_of_stored fresh space] at accepted
      cases accepted
  · rw [processRequestLine_of_no_space request space] at accepted
    cases accepted

theorem stored_of_asserted {line : Bytes} (asserts : processRequestLine request line = none) :
    request.method ≠ .kInvalid ∧ chr ' ' ∈ line := by
  by_cases space : chr ' ' ∈ line
  · refine ⟨fun fresh => ?_, space⟩
    by_cases named : NamesMethod line
    · by_cases valid : ValidLine line
      · obtain ⟨_, _, _, _, accepted⟩ := processRequestLine_of_validLine fresh valid
        cases accepted.symm.trans asserts
      · obtain ⟨_, rejected, _⟩ := processRequestLine_of_namesMethod fresh named valid
        cases rejected.symm.trans asserts
    · cases (processRequestLine_of_unnamed fresh space named).symm.trans asserts
  · cases (processRequestLine_of_no_space request space).symm.trans asserts

theorem kept_of_refused (fresh : request.method = .kInvalid) {line : Bytes} {stored : HttpRequest}
    (refused : processRequestLine request line = some (false, stored)) (unnamed : ¬ NamesMethod line) :
    stored = request := by
  by_cases space : chr ' ' ∈ line
  · cases (processRequestLine_of_unnamed fresh space unnamed).symm.trans refused
    rfl
  · cases (processRequestLine_of_no_space request space).symm.trans refused
    rfl

theorem storesWords_lineRequest (request : HttpRequest) (wire : WireRequest) :
    StoresWords request (wire.lineRequest request) wire.method wire.target wire.version := by
  have stored : wire.lineRequest request = { request with
      method := wire.method
      path := wire.target.takeWhile (· != chr '?')
      queryParameters := targetQuery request.queryParameters wire.target
      version := wire.version.text } := by
    rw [WireRequest.lineRequest, storeTarget_eq]
    rfl
  refine ⟨by rw [stored], by rw [stored], ?_, ?_⟩
  · intro unasked
    rw [stored, targetQuery, if_neg unasked]
    refine ⟨List.takeWhile_eq_self_iff.mpr ?_, rfl⟩
    intro c member
    simpa using fun same : c = chr '?' => unasked (same ▸ member)
  · intro path query absent cut
    have asked : chr '?' ∈ wire.target := by simp [cut]
    have place : wire.target.idxOf (chr '?') = path.length := cut ▸ idxOf_join absent query
    have behind : (path ++ chr '?' :: query).drop (path.length + 1) = query := by simp
    rw [stored, targetQuery, if_pos asked, ← take_idxOf, place, cut, behind]
    exact ⟨List.take_left, rfl⟩

/-- Exactly the lines of three words are accepted, and the words are stored. -/
theorem processRequestLine_exact (fresh : request.method = .kInvalid) (line : Bytes) :
    ((∃ stored, processRequestLine request line = some (true, stored)) ↔
      ∃ method target version, LineWords line method target version) ∧
    ∀ method target version, LineWords line method target version →
      ∃ stored, processRequestLine request line = some (true, stored) ∧ StoresWords request stored method target version := by
  have accepts : ∀ method target version, LineWords line method target version →
      ∃ stored, processRequestLine request line = some (true, stored) ∧
        StoresWords request stored method target version := by
    intro method target version split
    let wire : WireRequest := ⟨method, target, version, [], []⟩
    refine ⟨wire.lineRequest request, ?_, storesWords_lineRequest request wire⟩
    rw [split.words]
    show processRequestLine request wire.requestLine = _
    exact processRequestLine_render split.supported split.targetSpace fresh
  refine ⟨⟨?_, ?_⟩, accepts⟩
  · intro ⟨stored, accepted⟩
    exact (validLine_of_accepted accepted).2.words
  · intro ⟨method, target, version, split⟩
    obtain ⟨stored, accepted, _⟩ := accepts method target version split
    exact ⟨stored, accepted⟩

theorem processRequestLine_exact_get :
    ((∃ stored, processRequestLine {} (ascii "GET /a?b=c HTTP/1.0") = some (true, stored)) ↔
      ∃ method target version, LineWords (ascii "GET /a?b=c HTTP/1.0") method target version) ∧
    ∀ method target version, LineWords (ascii "GET /a?b=c HTTP/1.0") method target version →
      ∃ stored, processRequestLine {} (ascii "GET /a?b=c HTTP/1.0") = some (true, stored) ∧
        StoresWords {} stored method target version :=
  processRequestLine_exact rfl _

end HttpContext

end HttpFramework.Http
