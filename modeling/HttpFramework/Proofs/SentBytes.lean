import HttpFramework.Proofs.FormBounds
import HttpFramework.Proofs.ResponseSending

/-! The bytes that `write` sends. However `writev` cuts them, what has gone out and what the two
parts still describe are the header and the file, each byte once and in order. -/

namespace HttpFramework.Code.HttpConn
open Transition

variable {isET : Bool} {conn next : HttpConn} {h f : Bytes}

/-- What `iov_[0]` describes, in the write buffer. -/
def headerPart (conn : HttpConn) : Bytes := (conn.writeBuff.buffer.drop conn.iov0.base).take conn.iov0.len

/-- What `iov_[1]` describes, in the mapped file. -/
def filePart (conn : HttpConn) : Bytes := ((conn.response.mmFile.getD []).drop conn.iov1.base).take conn.iov1.len

def described (conn : HttpConn) : Bytes := conn.headerPart ++ conn.filePart

/-- A response with the header `h` and the file `f`, of which nothing has been sent. -/
structure Prepared (h f : Bytes) (conn : HttpConn) : Prop where
  parts : conn.iovCnt = 2
  valid : conn.writeBuff.Valid
  header : conn.writeBuff.content = h
  place : conn.iov0 = ⟨conn.writeBuff.readPos, h.length⟩
  mapped : conn.response.mmFile = some f
  file : conn.iov1 = ⟨0, f.length⟩

/-- `write`, one `writev` after the other. -/
structure Sending where
  conn : HttpConn
  /-- The loop is running. -/
  inside : Bool := false
  sent : Bytes := []

inductive SendAction where
  | write
  | writev (result : Writev)

def Sending.step (isET : Bool) (state : Sending) : SendAction → Option Sending
  | .write => if state.inside then none else some { state with inside := true }
  | .writev (.failed _) => if state.inside then some { state with inside := false } else none
  | .writev (.sent len) =>
    if ¬ state.inside ∨ state.conn.offered < len then none
    else if len = 0 ∨ state.conn.iov0.len + state.conn.iov1.len = 0 then some { state with inside := false }
    else
      match state.conn.advance len with
      | .error _ => none
      | .ok conn => some { conn, inside := isET ∨ 10240 < conn.toWriteBytes, sent := state.sent ++ state.conn.described.take len }

theorem step_sent {sent : Bytes} {len : Nat} (offered : ¬ conn.offered < len) (goes : ¬ (len = 0 ∨ conn.iov0.len + conn.iov1.len = 0))
    (advanced : conn.advance len = .ok next) :
    Sending.step isET ⟨conn, true, sent⟩ (.writev (.sent len)) =
      some ⟨next, isET ∨ 10240 < next.toWriteBytes, sent ++ conn.described.take len⟩ := by
  rw [Sending.step, if_neg (not_or.mpr ⟨not_not.mpr rfl, offered⟩), if_neg goes]
  simp only [advanced]

theorem step_stops {sent : Bytes} {len : Nat} (offered : ¬ conn.offered < len) (stops : len = 0 ∨ conn.iov0.len + conn.iov1.len = 0) :
    Sending.step isET ⟨conn, true, sent⟩ (.writev (.sent len)) = some ⟨conn, false, sent⟩ := by
  rw [Sending.step, if_neg (not_or.mpr ⟨not_not.mpr rfl, offered⟩), if_pos stops]

/-- Every call of `write` is such a run. -/
theorem run_of_write {results : List Writev} {ret : Writev} (written : conn.write isET results = some (.ok (next, ret)))
    (sent : Bytes) : ∃ sent', Run (Sending.step isET) ⟨conn, true, sent⟩ (results.map .writev) ⟨next, false, sent'⟩ := by
  induction results generalizing conn sent with
  | nil =>
    rw [write] at written
    cases written
  | cons result rest ih =>
    cases result with
    | failed eagain =>
      rw [write] at written
      split at written
      next last =>
        subst last
        cases written
        exact ⟨sent, .cons rfl (.nil _)⟩
      next => cases written
    | sent len =>
      rw [write] at written
      split at written
      · cases written
      next offered =>
        split at written
        next stops =>
          split at written
          next last =>
            subst last
            cases written
            exact ⟨sent, .cons (step_stops offered stops) (.nil _)⟩
          next => cases written
        next goes =>
          split at written
          next fault _ => split at written <;> cases written
          next moved advanced =>
            have taken := @step_sent isET _ _ sent _ offered goes advanced
            split at written
            next again =>
              obtain ⟨sent', run⟩ := ih written (sent ++ conn.described.take len)
              rw [decide_eq_true again] at taken
              exact ⟨sent', .cons taken run⟩
            next ends =>
              split at written
              next last =>
                subst last
                cases written
                rw [decide_eq_false ends] at taken
                exact ⟨_, .cons taken (.nil _)⟩
              next => cases written

/-- What holds while a response is sent. -/
structure Conserves (h f : Bytes) (conn : HttpConn) (sent : Bytes) : Prop where
  parts : conn.iovCnt = 2
  valid : conn.writeBuff.Valid
  header : conn.writeBuff.readableBytes = conn.iov0.len
  place : conn.iov0.len ≠ 0 → conn.iov0.base = conn.writeBuff.readPos
  mapped : conn.response.mmFile = some f
  file : conn.iov1.base + conn.iov1.len = f.length
  left : conn.iov0.len = h.length - sent.length
  total : sent ++ conn.described = h ++ f

theorem Conserves.prepared (prepared : Prepared h f conn) : Conserves h f conn [] where
  parts := prepared.parts
  valid := prepared.valid
  header := by rw [← prepared.valid.content_length, prepared.header, prepared.place]
  place _ := by rw [prepared.place]
  mapped := prepared.mapped
  file := by rw [prepared.file, Nat.zero_add]
  left := by rw [prepared.place]; rfl
  total := by
    have header := prepared.valid.peek (Nat.le_refl _)
    rw [← prepared.valid.content_length, List.take_length, prepared.header, Buffer.peek] at header
    rw [described, headerPart, filePart, prepared.place, prepared.file, prepared.mapped]
    simp only [header, Option.getD_some, List.drop_zero, List.take_length, List.nil_append]

theorem Conserves.headerPart_length (conserves : Conserves h f conn sent) : conn.headerPart.length = conn.iov0.len := by
  rw [headerPart]
  by_cases none : conn.iov0.len = 0
  · rw [none, List.take_zero, List.length_nil]
  · have content := conserves.valid.content_length
    rw [conserves.header, Buffer.content, List.length_drop, List.length_take] at content
    rw [conserves.place none, List.length_take, List.length_drop]
    omega

theorem Conserves.filePart_length (conserves : Conserves h f conn sent) : conn.filePart.length = conn.iov1.len := by
  have file := conserves.file
  rw [filePart, conserves.mapped, List.length_take, List.length_drop, Option.getD_some]
  omega

theorem Conserves.described_length (conserves : Conserves h f conn sent) : conn.described.length = conn.outstanding := by
  rw [described, List.length_append, conserves.headerPart_length, conserves.filePart_length, outstanding]

/-- Where what is described is cut from the front, nothing is lost. -/
theorem Conserves.cut (conserves : Conserves h f conn sent) {len : Nat} (rest : next.described = conn.described.drop len) :
    (sent ++ conn.described.take len) ++ next.described = h ++ f := by
  rw [rest, List.append_assoc, List.take_append_drop, conserves.total]

theorem Conserves.grown (conserves : Conserves h f conn sent) {len : Nat} (less : len ≤ conn.outstanding) :
    (sent ++ conn.described.take len).length = sent.length + len := by
  rw [List.length_append, List.length_take, conserves.described_length, Nat.min_eq_left less]

/-- The write ends within the file. -/
theorem Conserves.advance_beyond (conserves : Conserves h f conn sent) {len : Nat} (less : len ≤ conn.outstanding)
    (beyond : conn.iov0.len < len) :
    ∃ next, conn.advance len = .ok next ∧ Conserves h f next (sent ++ conn.described.take len) := by
  have left := conserves.left
  have file := conserves.file
  have grown := conserves.grown less
  have front := conserves.headerPart_length
  rw [outstanding] at less
  have rest : conn.described.drop len =
      ((conn.response.mmFile.getD []).drop (conn.iov1.base + (len - conn.iov0.len))).take (conn.iov1.len - (len - conn.iov0.len)) := by
    rw [described, List.drop_append, List.drop_eq_nil_of_le (by omega), List.nil_append, front, filePart, List.drop_take,
      List.drop_drop]
  rw [HttpConn.advance, if_pos beyond]
  by_cases header : conn.iov0.len = 0
  · refine ⟨_, if_neg (not_not.mpr header), conserves.parts, conserves.valid, conserves.header, conserves.place, conserves.mapped,
      ?_, ?_, conserves.cut ?_⟩
    · simp only
      omega
    · simp only
      omega
    · rw [rest, described, headerPart]
      simp only [header, List.take_zero, List.nil_append]
      rfl
  · refine ⟨_, if_pos header, conserves.parts, conserves.valid.cleared, ?_, fun some => absurd rfl some, conserves.mapped,
      ?_, ?_, conserves.cut ?_⟩
    · rw [conserves.valid.cleared.readableBytes]
      rfl
    · simp only
      omega
    · simp only
      omega
    · rw [rest, described, headerPart]
      simp only [List.take_zero, List.nil_append]
      rfl

/-- It ends within the header or at its end. -/
theorem Conserves.advance_inside (conserves : Conserves h f conn sent) {len : Nat} (less : len ≤ conn.outstanding)
    (within : len ≤ conn.iov0.len) :
    ∃ next, conn.advance len = .ok next ∧ Conserves h f next (sent ++ conn.described.take len) := by
  have left := conserves.left
  have grown := conserves.grown less
  have front := conserves.headerPart_length
  have inside : len ≤ conn.writeBuff.readableBytes := by
    rw [conserves.header]
    exact within
  obtain ⟨valid, shorter⟩ := conserves.valid.advance inside
  have rest : conn.described.drop len =
      (conn.writeBuff.buffer.drop (conn.iov0.base + len)).take (conn.iov0.len - len) ++ conn.filePart := by
    rw [described, List.drop_append_of_le_length (by omega), headerPart, List.drop_take, List.drop_drop]
  rw [HttpConn.advance, if_neg (not_lt.mpr within), Buffer.retrieve, if_pos inside]
  refine ⟨_, rfl, conserves.parts, valid, ?_, ?_, conserves.mapped, conserves.file, ?_, conserves.cut rest.symm⟩
  · rw [← valid.content_length, shorter, List.length_drop, conserves.valid.content_length, conserves.header]
  · intro more
    have place := conserves.place fun none => more (by simp only [none, Nat.zero_sub])
    have readable := conserves.valid.readableBytes
    have read := conserves.valid.read
    have write := conserves.valid.write
    have size := conserves.valid.size
    rw [maxSize] at size
    simp only [place]
    exact (Buffer.toSizeT_of_lt (by omega)).symm
  · simp only
    omega

theorem Conserves.advance (conserves : Conserves h f conn sent) {len : Nat} (less : len ≤ conn.outstanding) :
    ∃ next, conn.advance len = .ok next ∧ Conserves h f next (sent ++ conn.described.take len) := by
  by_cases beyond : conn.iov0.len < len
  · exact conserves.advance_beyond less beyond
  · exact conserves.advance_inside less (not_lt.mp beyond)

theorem Conserves.step {state after : Sending} {action : SendAction} (conserves : Conserves h f state.conn state.sent)
    (taken : Sending.step isET state action = some after) : Conserves h f after.conn after.sent := by
  cases action with
  | write =>
    rw [Sending.step] at taken
    split at taken <;> cases taken
    exact conserves
  | writev result =>
    cases result with
    | failed eagain =>
      rw [Sending.step] at taken
      split at taken <;> cases taken
      exact conserves
    | sent len =>
      rw [Sending.step] at taken
      split at taken
      · cases taken
      next offered =>
        split at taken
        · cases taken
          exact conserves
        · have less : len ≤ state.conn.outstanding := by
            have most := (not_or.mp offered).2
            rw [HttpConn.offered, if_pos conserves.parts] at most
            exact not_lt.mp most
          obtain ⟨next, advanced, kept⟩ := conserves.advance less
          rw [advanced] at taken
          cases taken
          exact kept

/-- For every response with a header and a file, in whatever pieces they are sent by any number of
calls of `write`: the bytes sent and those still described are the header and the file,
`ToWriteBytes` counts the latter, the write buffer is empty once the header is sent, and no
number of bytes that `writev` may return makes the call fail. -/
theorem write_conserves (prepared : Prepared h f conn) (short : h.length + f.length < 2 ^ 31) (isET : Bool)
    {actions : List SendAction} {final : Sending} (run : Run (Sending.step isET) { conn } actions final) :
    final.sent ++ final.conn.described = h ++ f ∧ final.conn.toWriteBytes = final.conn.described.length ∧
      (h.length ≤ final.sent.length → final.conn.writeBuff.readableBytes = 0) ∧
      ∀ len ≤ final.conn.described.length, ∃ next, final.conn.advance len = .ok next := by
  have conserves : Conserves h f final.conn final.sent :=
    @Run.invariant _ _ _ (fun state => Conserves h f state.conn state.sent) (fun _ _ _ kept taken => kept.step taken) _ _ _
      (Conserves.prepared prepared) run
  have length := conserves.described_length
  have total := congrArg List.length conserves.total
  rw [List.length_append, List.length_append, length] at total
  refine ⟨conserves.total, ?_, ?_, ?_⟩
  · rw [length]
    exact toInt_of_lt (show final.conn.outstanding < 2 ^ 31 by omega)
  · intro gone
    rw [conserves.header, conserves.left]
    omega
  · intro len less
    obtain ⟨next, advanced, _⟩ := conserves.advance (length ▸ less)
    exact ⟨next, advanced⟩

theorem write_conserves_short :
    ∃ final, Run (Sending.step false) { conn := { shortResponse with response := { mmFile := some [3, 4, 5] } } }
        [.write, .writev (.sent 1), .write, .writev (.sent 3)] final ∧
      final.sent = [1, 2, 3, 4] ∧ final.sent ++ final.conn.described = [1, 2, 3, 4, 5] ∧
      final.conn.toWriteBytes = final.conn.described.length ∧ final.conn.writeBuff.readableBytes = 0 := by
  have prepared : Prepared [1, 2] [3, 4, 5] { shortResponse with response := { mmFile := some [3, 4, 5] } } :=
    ⟨rfl, shortResponse_ready.valid, by decide, rfl, rfl, rfl⟩
  obtain ⟨final, run, sent⟩ := @run_of_check _ _ (Sending.step false) (fun state => decide (state.sent = [1, 2, 3, 4]))
    { conn := { shortResponse with response := { mmFile := some [3, 4, 5] } } } [.write, .writev (.sent 1), .write, .writev (.sent 3)]
    (by decide)
  obtain ⟨bytes, count, empty, _⟩ := write_conserves prepared (by decide) false run
  have sent := of_decide_eq_true sent
  exact ⟨final, run, sent, bytes, count, empty (by rw [sent]; decide)⟩

end HttpFramework.Code.HttpConn
