import HttpFramework.Proofs.ConnectionStream

/-! What one request of a connection shows of the requests before it. `reset` keeps
the content and its length, and only a request with a body of its own overwrites
them. -/

namespace HttpFramework.Http

set_option maxRecDepth 4000

def freshRequest (wire : WireRequest) : Option HttpRequest :=
  (HttpContext.parseRequest {} wire.render 0).map fun parsed => parsed.context.request

theorem freshRequest_eq {wire : WireRequest} (wellFormed : wire.WellFormed) :
    freshRequest wire = some (wire.request {} 0) := by
  have exits := WireRequest.exits_render wellFormed (rfl : ({} : HttpRequest).method = .kInvalid) rfl 0 []
  rw [List.append_nil] at exits
  rw [freshRequest, HttpContext.parseRequest_eq_some_iff.mpr exits]
  rfl

/-- A context just reset holds a content and a length, and nothing else. -/
def carrying (content : Bytes) (length : Nat) : HttpRequest := { content := content, contentLength := length }

theorem leftover_eq (request : HttpRequest) : leftover request = carrying request.content request.contentLength := rfl

theorem request_content {wire : WireRequest} (wellFormed : wire.WellFormed) (content : Bytes) (length : Nat) :
    (wire.request (carrying content length) 0).content = (if wire.body = [] then content else wire.body) := by
  rw [WireRequest.request_eq wellFormed.noBody]
  rfl

theorem request_contentLength {wire : WireRequest} (wellFormed : wire.WellFormed) (content : Bytes) (length : Nat) :
    (wire.request (carrying content length) 0).contentLength =
      (if wire.method.HasBody then wire.body.length else length) := by
  rw [WireRequest.request_eq wellFormed.noBody]
  rfl

/-- The content and its length are all that can differ from a fresh parse. -/
theorem request_carrying_iff {wire : WireRequest} (wellFormed : wire.WellFormed) (content : Bytes) (length : Nat) :
    wire.request (carrying content length) 0 = wire.request {} 0 ↔
      (wire.body = [] → content = []) ∧ (¬ wire.method.HasBody → length = 0) := by
  have fresh : ({} : HttpRequest) = carrying [] 0 := rfl
  rw [fresh]
  constructor
  · intro same
    have contents := congrArg HttpRequest.content same
    have lengths := congrArg HttpRequest.contentLength same
    rw [request_content wellFormed, request_content wellFormed] at contents
    rw [request_contentLength wellFormed, request_contentLength wellFormed] at lengths
    refine ⟨fun none => ?_, fun bodyless => ?_⟩
    · simpa only [none, if_true] using contents
    · simpa only [bodyless, if_false] using lengths
  · intro ⟨contents, lengths⟩
    rw [WireRequest.request_eq wellFormed.noBody, WireRequest.request_eq wellFormed.noBody,
      WireRequest.headRequest_eq, WireRequest.headRequest_eq]
    have sameContent : (if wire.body = [] then content else wire.body) = if wire.body = [] then [] else wire.body := by
      by_cases none : wire.body = []
      · rw [if_pos none, if_pos none, contents none]
      · rw [if_neg none, if_neg none]
    have sameLength : (if wire.method.HasBody then wire.body.length else length) =
        if wire.method.HasBody then wire.body.length else 0 := by
      by_cases body : wire.method.HasBody
      · rw [if_pos body, if_pos body]
      · rw [if_neg body, if_neg body, lengths body]
    simp only [carrying, sameContent, sameLength]

/-- The induction on the stream. A length other than zero only ever comes with a
content, so the content tells all that is carried from one request to the next. -/
private theorem deliver_fresh_iff {wires : List WireRequest} (wellFormed : ∀ wire ∈ wires, wire.WellFormed)
    {content : Bytes} {length : Nat} (paired : length ≠ 0 → content ≠ []) :
    wires.map (fun wire => wire.request {} 0) = deliver (carrying content length) wires ↔
      (content ≠ [] → ∀ wire ∈ wires, wire.body ≠ []) ∧
        wires.Pairwise (fun earlier later => earlier.body ≠ [] → later.body ≠ []) := by
  induction wires generalizing content length with
  | nil => simp [deliver]
  | cons wire wires ih =>
    have valid := wellFormed wire (by simp)
    have head : (wire.request {} 0 = wire.request (carrying content length) 0) ↔ (wire.body = [] → content = []) := by
      rw [eq_comm, request_carrying_iff valid]
      refine ⟨fun both => both.1, fun contents => ⟨contents, fun bodyless => ?_⟩⟩
      by_contra nonzero
      exact paired nonzero (contents (valid.noBody bodyless))
    have kept : leftover (wire.request (carrying content length) 0) =
        carrying (if wire.body = [] then content else wire.body)
          (if wire.method.HasBody then wire.body.length else length) := by
      rw [leftover_eq, request_content valid, request_contentLength valid]
    have stays : (if wire.method.HasBody then wire.body.length else length) ≠ 0 →
        (if wire.body = [] then content else wire.body) ≠ [] := by
      by_cases none : wire.body = []
      · rw [if_pos none, none]
        split
        · simp
        · exact paired
      · rw [if_neg none]
        exact fun _ => none
    rw [List.map_cons, deliver, List.cons_eq_cons, head, kept,
      ih (fun wire member => wellFormed wire (by simp [member])) stays, List.pairwise_cons]
    by_cases none : wire.body = []
    · by_cases clean : content = []
      · simp [none, clean]
      · simp [none, clean]
    · simp only [none, if_false]
      simp only [ne_eq, none, not_false_eq_true, forall_const, true_and, List.mem_cons, forall_eq_or_imp, IsEmpty.forall_iff]
      exact ⟨fun both => ⟨fun _ => both.1, both⟩, fun both => both.2⟩

theorem deliver_length (start : HttpRequest) (wires : List WireRequest) : (deliver start wires).length = wires.length := by
  induction wires generalizing start with
  | nil => rfl
  | cons wire wires ih => rw [deliver, List.length_cons, ih, List.length_cons]

def AllFresh (wires : List WireRequest) (requests : List HttpRequest) : Prop :=
  List.Forall₂ (fun wire request => freshRequest wire = some request.untimed) wires requests

theorem allFresh_iff_map {wires : List WireRequest} {requests : List HttpRequest} :
    AllFresh wires requests ↔ wires.map freshRequest = requests.map fun request => some request.untimed := by
  rw [← List.forall₂_eq_eq_eq, List.forall₂_map_left_iff, List.forall₂_map_right_iff]
  rfl

/-- A stream that was handled to its end shows nothing of an earlier request in a
later one exactly when, once a request had a body, all that follow have one too. -/
theorem dispatches_fresh_iff {wires : List WireRequest} (wellFormed : ∀ wire ∈ wires, wire.WellFormed)
    {arrivals : List Arrival} (stream : arrivals.flatMap Arrival.bytes = wires.flatMap WireRequest.render)
    (handled : (dispatches (serve opened arrivals)).length = wires.length) :
    AllFresh wires (dispatches (serve opened arrivals)) ↔
      wires.Pairwise (fun earlier later => earlier.body ≠ [] → later.body ≠ []) := by
  have inOrder := dispatches_prefix Tracks.opened wellFormed (by simpa using stream)
  have all : (dispatches (serve opened arrivals)).map HttpRequest.untimed = deliver {} wires :=
    inOrder.eq_of_length (by rw [List.length_map, deliver_length]; exact handled)
  have alone : wires.map freshRequest = (wires.map fun wire => wire.request {} 0).map some := by
    rw [List.map_map]
    exact List.map_congr_left fun wire member => freshRequest_eq (wellFormed wire member)
  have shared : (dispatches (serve opened arrivals)).map (fun request => some request.untimed) =
      (deliver {} wires).map some := by
    rw [← all, List.map_map]
    rfl
  have carried := deliver_fresh_iff wellFormed (fun nonzero => absurd rfl nonzero : (0 : Nat) ≠ 0 → ([] : Bytes) ≠ [])
  rw [allFresh_iff_map, alone, shared, List.map_inj_right (fun _ _ => Option.some.inj)]
  refine carried.trans ⟨fun both => both.2, fun later => ⟨fun carries => absurd rfl carries, later⟩⟩

def alone (wire : WireRequest) : Arrival := ⟨wire.render, 0, fun _ response => .ok response⟩

def upload : WireRequest := ⟨.kPost, ascii "/up", .http11, [(ascii "Content-Length", ascii " 3")], ascii "xyz"⟩

def page : WireRequest := ⟨.kGet, ascii "/", .http11, [], []⟩

theorem upload_wellFormed : upload.WellFormed := by
  refine ⟨by decide, by decide, by decide, ?_, fun _ => ⟨⟨by decide, by decide, by decide⟩, ?_⟩,
    fun bodyless => absurd (by decide) bodyless⟩
  · intro header member
    rw [List.mem_singleton.mp member]
    exact ⟨by decide, by decide, by decide⟩
  · exact Nat.lt_of_le_of_lt (show upload.body.length ≤ 3 by decide) (by decide)

theorem page_wellFormed : page.WellFormed := by
  refine ⟨by decide, by decide, by decide, ?_, fun body => absurd body (by decide), fun _ => rfl⟩
  intro header member
  cases member

theorem dispatches_fresh_page_upload : AllFresh [page, upload] (dispatches (serve opened [alone page, alone upload])) :=
  (dispatches_fresh_iff (by simp [page_wellFormed, upload_wellFormed]) (by simp [alone]) (by decide)).mpr
    (by decide)

/-- A `GET` behind a `POST` arrives with the body of the `POST`. -/
theorem page_after_upload_not_fresh :
    (∀ wire ∈ [upload, page], wire.WellFormed) ∧
      [alone upload, alone page].flatMap Arrival.bytes = [upload, page].flatMap WireRequest.render ∧
      (dispatches (serve opened [alone upload, alone page])).length = 2 ∧
      ¬ AllFresh [upload, page] (dispatches (serve opened [alone upload, alone page])) := by
  refine ⟨by simp [page_wellFormed, upload_wellFormed], by simp [alone], by decide, ?_⟩
  rw [allFresh_iff_map]
  decide

end HttpFramework.Http
