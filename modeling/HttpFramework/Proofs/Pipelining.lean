import HttpFramework.Proofs.RequestIsolation

/-! When every request of a stream is dispatched. `onMessage` handles at most one
request for each batch, so requests that arrive together wait for later batches,
and there may be too few of those. -/

namespace HttpFramework.Http

/-- The number of requests whose last byte is among the first `n` bytes of the stream. -/
def completed : List WireRequest → Nat → Nat
  | [], _ => 0
  | wire :: wires, n => if wire.render.length ≤ n then completed wires (n - wire.render.length) + 1 else 0

/-- Enough batches for the requests: one for each of them, and after every batch
one for each request that has not been received completely. -/
structure Paced (wires : List WireRequest) (n : Nat) (arrivals : List Arrival) : Prop where
  total : wires.length ≤ arrivals.length
  later : ∀ arrival early late, arrivals = arrival :: early ++ late →
    wires.length ≤ completed wires (n + ((arrival :: early).flatMap Arrival.bytes).length) + late.length

theorem completed_of_short {wire : WireRequest} {n : Nat} (short : n < wire.render.length) (wires : List WireRequest) :
    completed (wire :: wires) n = 0 := by
  rw [completed, if_neg (by omega)]

theorem completed_of_long {wire : WireRequest} {n : Nat} (long : wire.render.length ≤ n) (wires : List WireRequest) :
    completed (wire :: wires) n = completed wires (n - wire.render.length) + 1 := by
  rw [completed, if_pos long]

theorem WireRequest.render_length_pos (wire : WireRequest) : 0 < wire.render.length := by
  simp only [render, CRLF, List.length_append, List.length_cons]
  omega

theorem completed_zero (wires : List WireRequest) : completed wires 0 = 0 := by
  cases wires with
  | nil => rfl
  | cons wire wires => exact completed_of_short wire.render_length_pos wires

theorem flatMap_cons_length (arrival : Arrival) (arrivals : List Arrival) :
    ((arrival :: arrivals).flatMap Arrival.bytes).length =
      arrival.bytes.length + (arrivals.flatMap Arrival.bytes).length := by
  rw [List.flatMap_cons, List.length_append]

namespace Paced

variable {wire : WireRequest} {wires : List WireRequest} {n : Nat} {arrival : Arrival} {arrivals : List Arrival}

theorem nil_iff : Paced wires n [] ↔ wires = [] := by
  constructor
  · intro paced
    exact List.length_eq_zero_iff.mp (Nat.le_zero.mp paced.total)
  · rintro rfl
    exact ⟨Nat.zero_le _, fun _ _ _ _ => Nat.zero_le _⟩

theorem of_nil : Paced [] n arrivals := ⟨Nat.zero_le _, fun _ _ _ _ => Nat.zero_le _⟩

theorem partial_iff (short : n + arrival.bytes.length < wire.render.length) :
    Paced (wire :: wires) n (arrival :: arrivals) ↔ Paced (wire :: wires) (n + arrival.bytes.length) arrivals := by
  constructor
  · intro paced
    constructor
    · have now := paced.later arrival [] arrivals rfl
      rw [flatMap_cons_length, List.flatMap_nil, List.length_nil, Nat.add_zero, completed_of_short short] at now
      omega
    · intro next early late split
      have then' := paced.later arrival (next :: early) late (by rw [split]; rfl)
      rw [flatMap_cons_length, ← Nat.add_assoc] at then'
      exact then'
  · intro paced
    constructor
    · exact Nat.le_succ_of_le paced.total
    · intro first early late split
      obtain ⟨rfl, rest⟩ := List.cons_eq_cons.mp split
      rw [flatMap_cons_length, ← Nat.add_assoc]
      cases early with
      | nil =>
        have all : arrivals = late := rest
        have total := paced.total
        rw [all] at total
        omega
      | cons next early => exact paced.later next early late rest

theorem complete_iff (long : wire.render.length ≤ n + arrival.bytes.length) :
    Paced (wire :: wires) n (arrival :: arrivals) ↔
      Paced wires (n + arrival.bytes.length - wire.render.length) arrivals := by
  have counted (more : Nat) : completed (wire :: wires) (n + arrival.bytes.length + more) =
      completed wires (n + arrival.bytes.length - wire.render.length + more) + 1 := by
    rw [completed_of_long (by omega), Nat.sub_add_comm long]
  constructor
  · intro paced
    constructor
    · have total := paced.total
      simp only [List.length_cons] at total
      omega
    · intro next early late split
      have then' := paced.later arrival (next :: early) late (by rw [split]; rfl)
      rw [flatMap_cons_length, ← Nat.add_assoc, counted, List.length_cons] at then'
      omega
  · intro paced
    constructor
    · exact Nat.succ_le_succ paced.total
    · intro first early late split
      obtain ⟨rfl, rest⟩ := List.cons_eq_cons.mp split
      rw [flatMap_cons_length, ← Nat.add_assoc, counted, List.length_cons]
      cases early with
      | nil =>
        have all : arrivals = late := rest
        have total := paced.total
        rw [all] at total
        omega
      | cons next early =>
        have then' := paced.later next early late rest
        omega

end Paced

/-- The induction on the batches. Each either completes the first request that is
still to be dispatched or leaves it incomplete. -/
private theorem dispatches_eq_deliver_iff {connection : TcpConnection} {start : HttpRequest} {received : Bytes}
    (tracks : Tracks connection start received) {wires : List WireRequest}
    (wellFormed : ∀ wire ∈ wires, wire.WellFormed) {arrivals : List Arrival}
    (stream : received ++ arrivals.flatMap Arrival.bytes = wires.flatMap WireRequest.render)
    (answered : ∀ report ∈ serve (.live connection) arrivals, report.thrown = none) :
    (dispatches (serve (.live connection) arrivals)).map HttpRequest.untimed = deliver start wires ↔
      Paced wires received.length arrivals := by
  induction arrivals generalizing connection start received wires with
  | nil =>
    rw [Paced.nil_iff]
    cases wires with
    | nil => exact ⟨fun _ => rfl, fun _ => rfl⟩
    | cons wire wires => exact ⟨fun same => (by cases same), fun none => (by cases none)⟩
  | cons arrival arrivals ih =>
    have after : ∀ report ∈ serve (receive connection arrival).2 arrivals, report.thrown = none :=
      fun report member => answered report (List.mem_cons_of_mem _ member)
    rw [List.flatMap_cons, ← List.append_assoc] at stream
    cases wires with
    | nil =>
      obtain ⟨nothing, later⟩ := List.append_eq_nil_iff.mp stream
      obtain ⟨silent, next, lives, tracks⟩ := tracks.receive_nothing nothing
      rw [lives] at after
      rw [dispatches_cons_none silent, lives, ih tracks wellFormed later after]
      exact ⟨fun _ => Paced.of_nil, fun _ => Paced.of_nil⟩
    | cons wire wires =>
      have valid := wellFormed wire (by simp)
      rw [List.flatMap_cons] at stream
      rcases stream_cases stream with ⟨rest, cut, later⟩ | ⟨missing, proper, cut, _⟩
      · have size := congrArg List.length cut
        simp only [List.length_append] at size
        obtain ⟨request, dispatched, parsed, outcome⟩ := tracks.receive_complete valid cut
        have quiet := answered _ (List.mem_cons_self)
        rw [quiet] at outcome
        obtain ⟨next, lives, tracks, _⟩ | ⟨_, _, _, thrown⟩ | ⟨_, thrown⟩ := outcome
        · rw [lives] at after
          rw [dispatches_cons_some dispatched, lives, List.map_cons, deliver, List.cons_eq_cons, parsed,
            ih tracks (fun wire member => wellFormed wire (by simp [member])) later after,
            Paced.complete_iff (by omega)]
          have left : received.length + arrival.bytes.length - wire.render.length = rest.length := by omega
          rw [left]
          exact ⟨fun both => both.2, fun paced => ⟨rfl, paced⟩⟩
        · cases thrown
        · cases thrown
      · have size := congrArg List.length cut
        simp only [List.length_append] at size
        have short : received.length + arrival.bytes.length < wire.render.length := by
          have some := List.length_pos_iff.mpr proper
          omega
        obtain ⟨silent, next, lives, tracks⟩ := tracks.receive_partial valid cut proper
        rw [lives] at after
        rw [dispatches_cons_none silent, lives,
          ih tracks wellFormed (stream.trans List.flatMap_cons.symm) after, Paced.partial_iff short,
          List.length_append]

/-- As long as no callback throws, all requests are dispatched, each once and in
order, exactly when from every point on there are as many batches to come as there
are requests that have not been received completely. -/
theorem dispatches_all_iff {wires : List WireRequest} (wellFormed : ∀ wire ∈ wires, wire.WellFormed)
    {arrivals : List Arrival} (stream : arrivals.flatMap Arrival.bytes = wires.flatMap WireRequest.render)
    (answered : ∀ report ∈ serve opened arrivals, report.thrown = none) :
    (dispatches (serve opened arrivals)).map HttpRequest.untimed = deliver {} wires ↔
      ∀ early late, arrivals = early ++ late →
        wires.length ≤ completed wires (early.flatMap Arrival.bytes).length + late.length := by
  have exact' := dispatches_eq_deliver_iff Tracks.opened wellFormed (by simpa using stream) answered
  refine exact'.trans ⟨fun paced early late split => ?_, fun enough => ⟨?_, ?_⟩⟩
  · cases early with
    | nil =>
      have all : arrivals = late := split
      rw [← all]
      exact Nat.le_add_left_of_le paced.total
    | cons arrival early =>
      have later := paced.later arrival early late split
      rw [List.length_nil, Nat.zero_add] at later
      exact later
  · have total := enough [] arrivals rfl
    rw [List.flatMap_nil, List.length_nil, completed_zero, Nat.zero_add] at total
    exact total
  · intro arrival early late split
    rw [List.length_nil, Nat.zero_add]
    exact enough _ late split

def together : Arrival := ⟨page.render ++ page.render, 0, fun _ response => .ok response⟩

theorem dispatches_all_page_upload :
    (dispatches (serve opened [alone page, alone upload])).map HttpRequest.untimed = deliver {} [page, upload] := by
  apply (dispatches_all_iff (by simp [page_wellFormed, upload_wellFormed]) (by simp [alone]) (by decide)).mpr
  intro early late split
  rcases early with _ | ⟨one, _ | ⟨two, _ | ⟨three, early⟩⟩⟩
  · cases split
    decide
  · cases split
    decide
  · cases split
    decide
  · cases split

/-- Of two requests in one batch the second stays in the buffer. -/
theorem pages_together_not_dispatched :
    (∀ wire ∈ [page, page], wire.WellFormed) ∧
      [together].flatMap Arrival.bytes = [page, page].flatMap WireRequest.render ∧
      (∀ report ∈ serve opened [together], report.thrown = none) ∧
      (dispatches (serve opened [together])).map HttpRequest.untimed ≠ deliver {} [page, page] ∧
      (dispatches (serve opened [alone page, alone page])).map HttpRequest.untimed = deliver {} [page, page] := by
  refine ⟨by simp [page_wellFormed], by simp [together], by decide, by decide, by decide⟩

end HttpFramework.Http
