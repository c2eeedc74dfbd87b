import HttpFramework.Code.HttpConn
import HttpFramework.Library.Fallible
import HttpFramework.Library.Transition
import HttpFramework.Proofs.BufferQueue

/-! When `OnWrite_` gives a connection up. The loop of `write` ends with a failure of `writev`,
with nothing left to send, or, when level-triggered, with little left; the last case is not told
apart from a failure. The number of bytes left is looked at as an `int`. -/

namespace HttpFramework.Code
open Transition WebServer

namespace HttpConn

variable {isET : Bool} {conn next : HttpConn} {results : List Writev} {ret : Writev}

/-- The bytes of the response that have not been sent. -/
def outstanding (conn : HttpConn) : Nat := conn.iov0.len + conn.iov1.len

/-- A response with a file is under way: the first part is what the write buffer holds. -/
structure Ready (conn : HttpConn) : Prop where
  parts : conn.iovCnt = 2
  valid : conn.writeBuff.Valid
  header : conn.writeBuff.readableBytes = conn.iov0.len

/-- What `process` prepares when there is a file to be sent. -/
theorem respond_ready {env : Environment} {code : Int} {isKeepAlive : Bool}
    (responded : conn.respond env code isKeepAlive = .ok next) (file : next.iovCnt = 2) (valid : next.writeBuff.Valid) :
    next.Ready ∧ 0 < next.iov1.len := by
  obtain ⟨initial, _, rest⟩ := Fallible.bind_ok responded
  obtain ⟨⟨response, texts⟩, _, rest⟩ := Fallible.bind_ok rest
  obtain ⟨writeBuff, _, rest⟩ := Fallible.bind_ok rest
  simp only at rest
  split at rest
  next mapped =>
    cases rest
    exact ⟨⟨rfl, valid, rfl⟩, mapped.1⟩
  next =>
    cases rest
    cases file

theorem Ready.advance (ready : conn.Ready) {len : Nat} (less : len ≤ conn.outstanding) :
    ∃ next, conn.advance len = .ok next ∧ next.Ready ∧ next.outstanding = conn.outstanding - len := by
  simp only [outstanding] at less ⊢
  rw [HttpConn.advance]
  by_cases beyond : conn.iov0.len < len
  · rw [if_pos beyond]
    by_cases header : conn.iov0.len = 0
    · refine ⟨_, if_neg (not_not.mpr header), ⟨ready.parts, ready.valid, ready.header⟩, ?_⟩
      show conn.iov0.len + (conn.iov1.len - (len - conn.iov0.len)) = _
      omega
    · refine ⟨_, if_pos header, ⟨ready.parts, ready.valid.cleared, ?_⟩, ?_⟩
      · rw [ready.valid.cleared.readableBytes]
        rfl
      · show 0 + (conn.iov1.len - (len - conn.iov0.len)) = _
        omega
  · rw [if_neg beyond]
    have inside : len ≤ conn.writeBuff.readableBytes := by
      rw [ready.header]
      omega
    obtain ⟨valid, left⟩ := ready.valid.advance inside
    rw [Buffer.retrieve, if_pos inside]
    refine ⟨_, rfl, ⟨ready.parts, valid, ?_⟩, ?_⟩
    · rw [← valid.content_length, left, List.length_drop, ready.valid.content_length, ready.header]
    · show conn.iov0.len - len + conn.iov1.len = _
      omega

/-- The call of `OnWrite_` does what is asked of it: it closes the connection only when everything
has been sent or `writev` has failed for good, and waits again when something is left and it
has not. -/
structure Keeps (next : HttpConn) (after : AfterWrite) (results : List Writev) : Prop where
  closes : after = .close → next.outstanding = 0 ∨ .failed false ∈ results
  waits : 0 < next.outstanding → .failed false ∉ results → after = .rearm

/-- No `writev` returns nothing with bytes outstanding; when level-triggered, each leaves nothing
or, as an `int`, more than the loop stops at; and what is left when it fails with `EAGAIN` is
not taken for nothing as an `int`. -/
def Smooth (isET : Bool) : Nat → List Writev → Prop
  | _, [] => True
  | outstanding, .failed eagain :: _ => eagain = true → outstanding % 2 ^ 32 = 0 → outstanding = 0
  | outstanding, .sent len :: rest =>
    (len = 0 → outstanding = 0) ∧ (0 < len → isET = false → outstanding - len ≠ 0 → 10240 < toInt (outstanding - len)) ∧
      Smooth isET (outstanding - len) rest

theorem toInt_eq_zero {n : Nat} : toInt n = 0 ↔ n % 2 ^ 32 = 0 := by
  simp only [toInt]
  split <;> omega

theorem afterWrite_ne_rearm (notAgain : conn.outstanding % 2 ^ 32 = 0 ∨ ret ≠ .failed true) : afterWrite conn ret ≠ .rearm := by
  rw [afterWrite]
  split
  · split <;> decide
  next unfinished =>
    have notAgain := notAgain.resolve_left fun zero => unfinished (toInt_eq_zero.mpr zero)
    rw [if_neg notAgain]
    decide

/-- A call that does not wait again is right only when it has nothing left to do. -/
theorem keeps_of_ne_rearm {after : AfterWrite} (gone : after ≠ .rearm) (soft : .failed false ∉ results) :
    Keeps next after results ↔ next.outstanding = 0 := by
  constructor
  · intro keeps
    by_contra left
    exact gone (keeps.waits (Nat.pos_of_ne_zero left) soft)
  · intro finished
    refine ⟨fun _ => .inl finished, fun left => ?_⟩
    omega

theorem keeps_failed (eagain : Bool) :
    Keeps conn (afterWrite conn (.failed eagain)) [.failed eagain] ↔ Smooth isET conn.outstanding [.failed eagain] := by
  cases eagain with
  | false =>
    have here : Writev.failed false ∈ [Writev.failed false] := List.mem_singleton.mpr rfl
    constructor
    · intro _ again
      cases again
    · intro _
      exact ⟨fun _ => .inr here, fun _ soft => absurd here soft⟩
  | true =>
    have soft : Writev.failed false ∉ [Writev.failed true] := by decide
    by_cases zero : conn.outstanding % 2 ^ 32 = 0
    · rw [keeps_of_ne_rearm (afterWrite_ne_rearm (.inl zero)) soft]
      exact ⟨fun finished _ _ => finished, fun smooth => smooth rfl zero⟩
    · have unfinished : conn.toWriteBytes ≠ 0 := fun done => zero (toInt_eq_zero.mp done)
      have waits : afterWrite conn (.failed true) = .rearm := by
        rw [afterWrite, if_neg unfinished, if_pos rfl]
      rw [waits]
      constructor
      · intro _ _ none
        exact absurd none zero
      · intro _
        refine ⟨?_, fun _ _ => rfl⟩
        intro closed
        cases closed

theorem keeps_sent_cons {after : AfterWrite} {len : Nat} :
    Keeps next after (.sent len :: results) ↔ Keeps next after results := by
  have same : Writev.failed false ∈ Writev.sent len :: results ↔ .failed false ∈ results := by simp
  constructor
  · intro keeps
    exact ⟨fun closed => (keeps.closes closed).imp_right same.mp, fun left soft => keeps.waits left fun hard => soft (same.mp hard)⟩
  · intro keeps
    exact ⟨fun closed => (keeps.closes closed).imp_right same.mpr, fun left soft => keeps.waits left fun hard => soft (same.mpr hard)⟩

theorem afterWrite_sent_ne_rearm (conn : HttpConn) (len : Nat) : afterWrite conn (.sent len) ≠ .rearm :=
  afterWrite_ne_rearm (.inr (by simp))

/-- Either `writev` has sent nothing, or there was nothing to send. -/
theorem keeps_stalled {len : Nat} (nothing : len = 0 ∨ conn.outstanding = 0) (less : len ≤ conn.outstanding) :
    Keeps conn (afterWrite conn (.sent len)) [.sent len] ↔ Smooth isET conn.outstanding [.sent len] := by
  have soft : Writev.failed false ∉ [Writev.sent len] := by simp
  have none : len = 0 := by
    rcases nothing with none | empty
    · exact none
    · exact Nat.eq_zero_of_le_zero (empty ▸ less)
  rw [keeps_of_ne_rearm (afterWrite_sent_ne_rearm conn len) soft]
  subst none
  exact ⟨fun empty => ⟨fun _ => empty, fun some => absurd some (lt_irrefl 0), trivial⟩, fun smooth => smooth.1 rfl⟩

/-- The loop goes on behind something that has been sent. -/
theorem smooth_again {moved : HttpConn} {len : Nat} (positive : len ≠ 0) (left : moved.outstanding = conn.outstanding - len)
    (again : isET = true ∨ 10240 < moved.toWriteBytes) :
    Smooth isET conn.outstanding (.sent len :: results) ↔ Smooth isET moved.outstanding results := by
  have more : 10240 < moved.toWriteBytes ↔ 10240 < toInt (conn.outstanding - len) := by rw [← left]; rfl
  rw [left]
  constructor
  · intro smooth
    exact smooth.2.2
  · intro smooth
    refine ⟨fun none => absurd none positive, fun _ level _ => ?_, smooth⟩
    rcases again with edge | enough
    · cases edge.symm.trans level
    · exact more.mp enough

/-- The loop stops behind something that has been sent. -/
theorem keeps_stopped {moved : HttpConn} {len : Nat} (positive : len ≠ 0) (left : moved.outstanding = conn.outstanding - len)
    (stops : ¬ (isET = true ∨ 10240 < moved.toWriteBytes)) :
    Keeps moved (afterWrite moved (.sent len)) [.sent len] ↔ Smooth isET conn.outstanding [.sent len] := by
  have soft : Writev.failed false ∉ [Writev.sent len] := by simp
  obtain ⟨level, little⟩ := not_or.mp stops
  have little : ¬ 10240 < toInt (conn.outstanding - len) := by
    rw [← left]
    exact little
  rw [keeps_of_ne_rearm (afterWrite_sent_ne_rearm moved len) soft, left]
  constructor
  · intro finished
    exact ⟨fun none => absurd none positive, fun _ _ rest => absurd finished rest, trivial⟩
  · intro smooth
    by_contra rest
    exact little (smooth.2.1 (Nat.pos_of_ne_zero positive) (Bool.eq_false_of_not_eq_true level) rest)

/-- By induction on the results: the loop goes on with a connection that has less to send. -/
theorem write_spec (ready : conn.Ready) (written : conn.write isET results = some (.ok (next, ret))) :
    next.Ready ∧ (Keeps next (afterWrite next ret) results ↔ Smooth isET conn.outstanding results) := by
  induction results generalizing conn with
  | nil => cases written
  | cons result rest ih =>
    cases result with
    | failed eagain =>
      rw [write] at written
      split at written <;> cases written
      next last =>
        subst last
        exact ⟨ready, keeps_failed eagain⟩
    | sent len =>
      have offered : conn.offered = conn.outstanding := by rw [HttpConn.offered, if_pos ready.parts, outstanding]
      rw [write, offered] at written
      split at written
      · cases written
      next less =>
        split at written
        next nothing =>
          split at written <;> cases written
          next last =>
            subst last
            exact ⟨ready, keeps_stalled nothing (not_lt.mp less)⟩
        next something =>
          have positive : len ≠ 0 := fun none => something (.inl none)
          obtain ⟨moved, advanced, ready', left⟩ := ready.advance (not_lt.mp less)
          rw [advanced] at written
          simp only at written
          split at written
          next again =>
            obtain ⟨ready'', exact⟩ := ih ready' written
            refine ⟨ready'', ?_⟩
            rw [keeps_sent_cons, exact, smooth_again positive left again]
          next stops =>
            split at written <;> cases written
            next last =>
              subst last
              exact ⟨ready', keeps_stopped positive left stops⟩

/-- One call of `OnWrite_` for a response, as long as the connection waits to be writable. -/
def send (isET : Bool) (state : HttpConn × AfterWrite) (results : List Writev) : Option (HttpConn × AfterWrite) :=
  if state.2 = .rearm then
    match state.1.write isET results with
    | some (.ok (next, ret)) => some (next, afterWrite next ret)
    | _ => none
  else
    none

theorem send_cases {state after : HttpConn × AfterWrite} (sent : send isET state results = some after) :
    ∃ next ret, state.1.write isET results = some (.ok (next, ret)) ∧ after = (next, afterWrite next ret) := by
  rw [send] at sent
  split at sent
  · split at sent
    next next ret written =>
      cases sent
      exact ⟨next, ret, written, rfl⟩
    next => cases sent
  · cases sent

theorem onWrite_of_send {env : Environment} {state after : HttpConn × AfterWrite}
    (sent : send env.isET state results = some after) : onWrite env results state.1 = some (proceed env after.1 after.2) := by
  obtain ⟨next, ret, written, rfl⟩ := send_cases sent
  rw [onWrite, written]
  rfl

/-- Over any number of calls, the connection is given up only for a reason exactly when every
call runs smoothly. -/
theorem keeps_throughout_iff (isET : Bool) {conn : HttpConn} (ready : conn.Ready) (calls : List (List Writev)) :
    Throughout (send isET) (fun _ results after => Keeps after.1 after.2 results) (conn, .rearm) calls ↔
      Throughout (send isET) (fun state results _ => Smooth isET state.1.outstanding results) (conn, .rearm) calls := by
  apply throughout_iff (fun state => state.1.Ready) _ _ ready
  · intro state results after ready sent _
    obtain ⟨next, ret, written, rfl⟩ := send_cases sent
    exact (write_spec ready written).1
  · intro state results after ready sent
    obtain ⟨next, ret, written, rfl⟩ := send_cases sent
    exact (write_spec ready written).2

/-- A response of two bytes and a file of three. -/
def shortResponse : HttpConn where
  readBuff := { buffer := [] }
  writeBuff := { buffer := [1, 2], writePos := 2 }
  iovCnt := 2
  iov0 := ⟨0, 2⟩
  iov1 := ⟨0, 3⟩

theorem shortResponse_ready : shortResponse.Ready := ⟨rfl, ⟨by decide, by decide, by decide⟩, by decide⟩

/-- Edge-triggered, the file is sent in two calls. -/
theorem keeps_throughout_shortResponse :
    Throughout (send true) (fun _ results after => Keeps after.1 after.2 results) (shortResponse, .rearm)
      [[.sent 1, .failed true], [.sent 4, .sent 0]] := by
  apply (keeps_throughout_iff true shortResponse_ready _).mpr
  refine Throughout.cons rfl ?_ (Throughout.cons rfl ?_ (Throughout.nil _))
  · refine ⟨?_, ?_, ?_⟩
    · intro none
      cases none
    · intro _ level
      cases level
    · intro _ zero
      exact absurd zero (by decide)
  · refine ⟨?_, ?_, fun _ => rfl, ?_, trivial⟩
    · intro none
      cases none
    · intro _ level
      cases level
    · intro some
      exact absurd some (lt_irrefl 0)

/-- Level-triggered, four bytes are left, and the connection is closed. -/
theorem closed_with_bytes_left :
    ¬ ∀ (isET : Bool) (conn : HttpConn) (calls : List (List Writev)) (final : HttpConn × AfterWrite), conn.Ready →
      0 < conn.iov0.len → 0 < conn.iov1.len → Run (send isET) (conn, .rearm) calls final →
      Throughout (send isET) (fun _ results after => Keeps after.1 after.2 results) (conn, .rearm) calls := by
  intro keeps
  have ran : Run (send false) (shortResponse, .rearm) [[.sent 1]] _ := .cons rfl (.nil _)
  have throughout := keeps false shortResponse _ _ shortResponse_ready (by decide) (by decide) ran
  cases throughout with
  | cons taken holds _ =>
    cases taken
    rcases holds.closes rfl with finished | failed
    · exact absurd finished (by decide)
    · exact absurd failed (by decide)

end HttpConn

end HttpFramework.Code
