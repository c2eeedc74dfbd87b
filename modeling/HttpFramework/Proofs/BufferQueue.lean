import HttpFramework.Code.Buffer
import HttpFramework.Library.Transition

/-! The buffer as a queue of bytes. Every call keeps the two positions in order inside the vector
and does to the bytes between them what it would do to a queue, unless the sum in `MakeSpace_`
passes the greatest number of its type: then the vector shrinks instead of growing. -/

namespace HttpFramework.Code
open Transition

namespace Buffer

variable {buff next : Buffer} {data : Bytes} {len : Nat}

structure Valid (buff : Buffer) : Prop where
  read : buff.readPos ≤ buff.writePos
  write : buff.writePos ≤ buff.buffer.length
  size : buff.buffer.length ≤ maxSize

/-- The bytes between the two positions. -/
def content (buff : Buffer) : Bytes := (buff.buffer.take buff.writePos).drop buff.readPos

theorem toSizeT_of_lt {n : Nat} (small : n < 2 ^ 64) : toSizeT n = n := by
  simp only [toSizeT]
  omega

theorem Valid.readableBytes (valid : buff.Valid) : buff.readableBytes = buff.writePos - buff.readPos := by
  have := valid.read
  have := valid.write
  have := valid.size
  simp only [maxSize] at this
  simp only [Buffer.readableBytes, toSizeT]
  omega

theorem Valid.writableBytes (valid : buff.Valid) : buff.writableBytes = buff.buffer.length - buff.writePos := by
  have := valid.write
  have := valid.size
  simp only [maxSize] at this
  simp only [Buffer.writableBytes, toSizeT]
  omega

theorem Valid.content_length (valid : buff.Valid) : buff.content.length = buff.readableBytes := by
  have := valid.write
  rw [valid.readableBytes, content, List.length_drop, List.length_take]
  omega

theorem Valid.peek (valid : buff.Valid) (less : len ≤ buff.readableBytes) : buff.peek len = buff.content.take len := by
  rw [valid.readableBytes] at less
  have := valid.read
  rw [Buffer.peek, content, List.drop_take, List.take_take]
  congr 1
  omega

theorem Valid.advance (valid : buff.Valid) (less : len ≤ buff.readableBytes) :
    Valid { buff with readPos := toSizeT (buff.readPos + len) } ∧
      content { buff with readPos := toSizeT (buff.readPos + len) } = buff.content.drop len := by
  have readable := valid.readableBytes
  have := valid.read
  have := valid.write
  have size := valid.size
  simp only [maxSize] at size
  have position : toSizeT (buff.readPos + len) = buff.readPos + len := toSizeT_of_lt (by omega)
  rw [position]
  refine ⟨⟨?_, valid.write, valid.size⟩, ?_⟩
  · show buff.readPos + len ≤ buff.writePos
    omega
  · simp only [content, List.drop_drop]

theorem Valid.cleared (valid : buff.Valid) : buff.retrieveAll.Valid :=
  ⟨Nat.le_refl 0, Nat.zero_le _, by rw [retrieveAll, List.length_replicate]; exact valid.size⟩

/-- Bytes come in behind the position to write at, and the position passes those that count. -/
theorem Valid.written {rest : Bytes} (valid : buff.Valid) (room : buff.writePos + data.length ≤ buff.buffer.length) :
    Valid { buff with buffer := copyTo buff.buffer buff.writePos (data ++ rest), writePos := buff.writePos + data.length } ∧
      content { buff with buffer := copyTo buff.buffer buff.writePos (data ++ rest), writePos := buff.writePos + data.length } =
        buff.content ++ data := by
  have before := valid.read
  have front : (copyTo buff.buffer buff.writePos (data ++ rest)).take (buff.writePos + data.length) =
      buff.buffer.take buff.writePos ++ data := by
    rw [copyTo, List.take_take, Nat.min_eq_left room, ← List.append_assoc, List.append_assoc]
    exact List.take_left' (by rw [List.length_append, List.length_take]; omega)
  have length : (copyTo buff.buffer buff.writePos (data ++ rest)).length = buff.buffer.length := copyTo_length _ _ _
  refine ⟨⟨before.trans (Nat.le_add_right _ _), room.trans_eq length.symm, length.trans_le valid.size⟩, ?_⟩
  simp only [content, front]
  rw [List.drop_append_of_le_length (by rw [List.length_take]; omega)]

theorem Valid.hasWritten (valid : buff.Valid) (less : data.length ≤ buff.writableBytes) :
    (buff.hasWritten data).Valid ∧ (buff.hasWritten data).content = buff.content ++ data := by
  have writable := valid.writableBytes
  have := valid.write
  have size := valid.size
  simp only [maxSize] at size
  have position : toSizeT (buff.writePos + data.length) = buff.writePos + data.length := toSizeT_of_lt (by omega)
  have written := @Valid.written buff data [] valid (by omega)
  rw [List.append_nil] at written
  simp only [Buffer.hasWritten, position]
  exact written

/-- Space is made without loss, or the vector would be too long. -/
theorem Valid.makeSpace (valid : buff.Valid) (small : buff.writePos + len + 1 < 2 ^ 64) :
    (∃ exception, buff.makeSpace len = .error (.thrown exception)) ∨
      ∃ next, buff.makeSpace len = .ok next ∧ next.Valid ∧ next.content = buff.content ∧ len ≤ next.writableBytes := by
  have writable := valid.writableBytes
  have readable := valid.readableBytes
  have := valid.read
  have := valid.write
  have size := valid.size
  simp only [maxSize] at size
  have space : toSizeT (buff.writableBytes + buff.prependableBytes) = buff.writableBytes + buff.readPos :=
    toSizeT_of_lt (show buff.writableBytes + buff.readPos < 2 ^ 64 by omega)
  rw [Buffer.makeSpace, space]
  by_cases short : buff.writableBytes + buff.readPos < len
  · rw [if_pos short]
    have sum : toSizeT (buff.writePos + len + 1) = buff.writePos + len + 1 := toSizeT_of_lt small
    rw [sum]
    cases resized : resize buff.buffer (buff.writePos + len + 1) with
    | error exception => exact .inl ⟨exception, rfl⟩
    | ok grown =>
      obtain ⟨fits, shape⟩ := resize_ok resized
      have length := resize_length resized
      have valid' : Valid { buff with buffer := grown } := ⟨valid.read, by show buff.writePos ≤ grown.length; omega, by show grown.length ≤ _; omega⟩
      refine .inr ⟨_, rfl, valid', ?_, ?_⟩
      · simp only [content, shape]
        rw [List.take_append_of_le_length (by rw [List.length_take]; omega), List.take_take, Nat.min_eq_left (by omega)]
      · rw [valid'.writableBytes]
        show len ≤ grown.length - buff.writePos
        omega
  · rw [if_neg short]
    let moved : Buffer := {
      buffer := copyTo buff.buffer 0 (buff.peek buff.readableBytes), readPos := 0, writePos := buff.readableBytes }
    have peeked := valid.peek (Nat.le_refl buff.readableBytes)
    have whole : buff.content.take buff.readableBytes = buff.content := List.take_of_length_le (by rw [valid.content_length])
    have valid' : moved.Valid := by
      refine ⟨Nat.zero_le _, ?_, ?_⟩
      · show buff.readableBytes ≤ (copyTo _ _ _).length
        rw [copyTo_length]
        omega
      · show (copyTo _ _ _).length ≤ maxSize
        rw [copyTo_length]
        exact valid.size
    have same : buff.readableBytes = moved.readableBytes := by
      rw [valid'.readableBytes]
      rfl
    refine .inr ⟨moved, if_pos same, valid', ?_, ?_⟩
    · show ((copyTo buff.buffer 0 (buff.peek buff.readableBytes)).take buff.readableBytes).drop 0 = buff.content
      rw [List.drop_zero, peeked, whole, copyTo, List.take_zero, List.nil_append, List.take_take, Nat.min_eq_left (by omega)]
      exact List.take_left' valid.content_length
    · rw [valid'.writableBytes]
      show len ≤ (copyTo _ _ _).length - buff.readableBytes
      rw [copyTo_length]
      omega

theorem Valid.ensureWriteable (valid : buff.Valid) (small : buff.writePos + len + 1 < 2 ^ 64) :
    (∃ exception, buff.ensureWriteable len = .error (.thrown exception)) ∨
      ∃ next, buff.ensureWriteable len = .ok next ∧ next.Valid ∧ next.content = buff.content ∧ len ≤ next.writableBytes := by
  rw [Buffer.ensureWriteable]
  by_cases short : buff.writableBytes < len
  · rw [if_pos short]
    rcases valid.makeSpace small with ⟨exception, thrown⟩ | ⟨next, made, valid', same, room⟩
    · exact .inl ⟨exception, by rw [thrown]; rfl⟩
    · refine .inr ⟨next, ?_, valid', same, room⟩
      rw [made]
      exact if_pos room
  · rw [if_neg short]
    exact .inr ⟨buff, if_pos (not_lt.mp short), valid, rfl, not_lt.mp short⟩

/-- When the sum is too great, the call fails an assertion or leaves the place to write outside
the vector. -/
theorem Valid.ensureWriteable_overflow (valid : buff.Valid) (representable : len < 2 ^ 64)
    (great : 2 ^ 64 ≤ buff.writePos + len + 1) :
    buff.ensureWriteable len = .error .asserted ∨ ∃ next, buff.ensureWriteable len = .ok next ∧ ¬ next.Valid := by
  have writable := valid.writableBytes
  have := valid.read
  have := valid.write
  have size := valid.size
  simp only [maxSize] at size
  have space : toSizeT (buff.writableBytes + buff.prependableBytes) = buff.writableBytes + buff.readPos :=
    toSizeT_of_lt (show buff.writableBytes + buff.readPos < 2 ^ 64 by omega)
  obtain ⟨left, wrapped⟩ : ∃ left, left + 2 ^ 64 = buff.writePos + len + 1 := ⟨_, Nat.sub_add_cancel great⟩
  have sum : toSizeT (buff.writePos + len + 1) = left := by
    simp only [toSizeT]
    omega
  have shrunk : resize buff.buffer left = .ok (buff.buffer.take left) := by
    rw [resize, if_pos (by simp only [maxSize]; omega), show left - buff.buffer.length = 0 by omega, List.replicate_zero,
      List.append_nil]
  have made : buff.makeSpace len = .ok { buff with buffer := buff.buffer.take left } := by
    rw [Buffer.makeSpace, space, if_pos (by omega), sum, shrunk]
  have length : (buff.buffer.take left).length = left := List.length_take_of_le (by omega)
  have room : Buffer.writableBytes { buff with buffer := buff.buffer.take left } = toSizeT (left - buff.writePos) := by
    simp only [Buffer.writableBytes, length]
  rw [Buffer.ensureWriteable, if_pos (by omega), made]
  by_cases last : len + 1 = 2 ^ 64
  · left
    refine if_neg ?_
    rw [room]
    simp only [toSizeT]
    omega
  · right
    have enough : len ≤ toSizeT (left - buff.writePos) := by
      simp only [toSizeT]
      omega
    refine ⟨{ buff with buffer := buff.buffer.take left }, if_pos (room ▸ enough), ?_⟩
    intro valid'
    have write : buff.writePos ≤ (buff.buffer.take left).length := valid'.write
    omega

theorem Valid.append (valid : buff.Valid) (short : data.length ≤ maxSize) :
    (∃ exception, buff.append data = .error (.thrown exception)) ∨
      ∃ next, buff.append data = .ok next ∧ next.Valid ∧ next.content = buff.content ++ data := by
  have write := valid.write
  have size := valid.size
  simp only [maxSize] at size short
  rcases @ensureWriteable buff data.length valid (by omega) with ⟨exception, thrown⟩ | ⟨next, made, valid', same, room⟩
  · exact .inl ⟨exception, by rw [Buffer.append, thrown]; rfl⟩
  · obtain ⟨valid'', written⟩ := valid'.hasWritten room
    exact .inr ⟨next.hasWritten data, by rw [Buffer.append, made]; rfl, valid'', by rw [written, same]⟩

/-- What the queue has taken in when the call has thrown: of what was read, the part for which
there was space. -/
def savedOf (buff : Buffer) : Op → Bytes
  | .readFd (some data) => data.take buff.writableBytes
  | _ => []

theorem Valid.readFd (valid : buff.Valid) (fits : data.length ≤ buff.writableBytes + stackSize) :
    (∃ next, buff.readFd data = (next, none) ∧ next.Valid ∧ next.content = buff.content ++ data) ∨
      ∃ next exception, buff.readFd data = (next, some (.thrown exception)) ∧ next.Valid ∧
        next.content = buff.content ++ data.take buff.writableBytes := by
  by_cases short : data.length ≤ buff.writableBytes
  · obtain ⟨valid', same⟩ := valid.hasWritten short
    exact .inl ⟨_, if_pos short, valid', same⟩
  · let filled : Buffer := {
      buff with buffer := copyTo buff.buffer buff.writePos (data.take buff.writableBytes), writePos := buff.buffer.length }
    have length : (data.take buff.writableBytes).length = buff.writableBytes := List.length_take_of_le (by omega)
    have position : toSizeT (buff.writePos + (data.take buff.writableBytes).length) = buff.buffer.length := by
      have write := valid.write
      have size := valid.size
      simp only [maxSize] at size
      rw [length, valid.writableBytes]
      simp only [toSizeT]
      omega
    have first : buff.hasWritten (data.take buff.writableBytes) = filled := by
      rw [Buffer.hasWritten, position]
    obtain ⟨valid', same⟩ := valid.hasWritten (Nat.le_of_eq length)
    rw [first] at valid' same
    have rest : (data.drop buff.writableBytes).length ≤ maxSize := by
      rw [List.length_drop]
      simp only [stackSize] at fits
      simp only [maxSize]
      omega
    rcases valid'.append rest with ⟨exception, thrown⟩ | ⟨next, appended, valid'', whole⟩
    · exact .inr ⟨filled, exception, by simp only [Buffer.readFd, if_neg short, filled, thrown], valid', same⟩
    · refine .inl ⟨next, by simp only [Buffer.readFd, if_neg short, filled, appended], valid'', ?_⟩
      rw [whole, same, List.append_assoc, List.take_append_drop]

/-- What a queue hands out in a call, and its bytes afterwards. -/
def fifo (queue : Bytes) : Op → Bytes × Bytes
  | .append data | .hasWritten data | .readFd (some data) => ([], queue ++ data)
  | .retrieve len | .retrieveUntil len => ([], queue.drop len)
  | .retrieveAll => ([], [])
  | .retrieveAllToStr => (queue, [])
  | .writeFd (some len) => (queue.take len, queue.drop len)
  | .ensureWriteable _ | .readFd none | .writeFd none => ([], queue)

/-- The sum in `MakeSpace_` keeps within its type. -/
def NoOverflow (buff : Buffer) : Op → Prop
  | .ensureWriteable len => buff.writePos + len + 1 < 2 ^ 64
  | _ => True

/-- A call that meets the condition does what the queue does, or throws and loses nothing but
what there was no space for. -/
theorem Valid.call {op : Op} (valid : buff.Valid) (allowed : op.allowed buff = true) (small : buff.NoOverflow op) :
    (∃ out next, buff.call op = (out, next, none) ∧ next.Valid ∧ fifo buff.content op = (out, next.content)) ∨
      ∃ next exception, buff.call op = ([], next, some (.thrown exception)) ∧ next.Valid ∧
        next.content = buff.content ++ buff.savedOf op ∧ (fifo buff.content op).1 = [] := by
  cases op with
  | append data =>
    rcases valid.append (of_decide_eq_true allowed) with ⟨exception, thrown⟩ | ⟨next, done, valid', same⟩
    · exact .inr ⟨buff, exception, by rw [Buffer.call, thrown]; rfl, valid, (List.append_nil _).symm, rfl⟩
    · exact .inl ⟨[], next, by rw [Buffer.call, done]; rfl, valid', by rw [same]; rfl⟩
  | retrieve len =>
    have less := of_decide_eq_true allowed
    obtain ⟨valid', same⟩ := valid.advance less
    exact .inl ⟨[], _, by rw [Buffer.call, Buffer.retrieve, if_pos less]; rfl, valid', by rw [same]; rfl⟩
  | retrieveUntil distance =>
    have less := of_decide_eq_true allowed
    obtain ⟨valid', same⟩ := valid.advance less
    exact .inl ⟨[], _, by rw [Buffer.call, Buffer.retrieveUntil, Buffer.retrieve, if_pos less]; rfl, valid', by rw [same]; rfl⟩
  | retrieveAll => exact .inl ⟨[], _, rfl, valid.cleared, rfl⟩
  | retrieveAllToStr =>
    refine .inl ⟨_, _, rfl, valid.cleared, ?_⟩
    show (buff.content, []) = (buff.peek buff.readableBytes, [])
    rw [valid.peek (Nat.le_refl _), List.take_of_length_le (by rw [valid.content_length])]
  | ensureWriteable len =>
    rcases valid.ensureWriteable small with ⟨exception, thrown⟩ | ⟨next, made, valid', same, _⟩
    · exact .inr ⟨buff, exception, by rw [Buffer.call, thrown]; rfl, valid, (List.append_nil _).symm, rfl⟩
    · exact .inl ⟨[], next, by rw [Buffer.call, made]; rfl, valid', by rw [same]; rfl⟩
  | hasWritten data =>
    obtain ⟨valid', same⟩ := valid.hasWritten (of_decide_eq_true allowed)
    exact .inl ⟨[], _, rfl, valid', by rw [same]; rfl⟩
  | readFd delivered =>
    cases delivered with
    | none => exact .inl ⟨[], buff, rfl, valid, rfl⟩
    | some data =>
      rcases valid.readFd (of_decide_eq_true allowed) with ⟨next, read, valid', same⟩ | ⟨next, exception, read, valid', same⟩
      · exact .inl ⟨[], next, by rw [Buffer.call, read], valid', by rw [same]; rfl⟩
      · exact .inr ⟨next, exception, by rw [Buffer.call, read], valid', same, rfl⟩
  | writeFd taken =>
    cases taken with
    | none => exact .inl ⟨[], buff, rfl, valid, rfl⟩
    | some len =>
      have less := of_decide_eq_true allowed
      obtain ⟨valid', same⟩ := valid.advance less
      refine .inl ⟨_, _, rfl, valid', ?_⟩
      rw [writeFd, same, valid.peek less]
      rfl

/-- The buffer beside a queue on which the same calls are made, and what the last call handed
out. A failed assertion ends the process. -/
inductive Process where
  | running (buff : Buffer) (queue out : Bytes)
  | aborted
deriving DecidableEq

/-- Only calls that keep to the rules are steps. -/
def Process.step : Process → Op → Option Process
  | .running buff queue _, op =>
    if op.allowed buff then
      match buff.call op with
      | (out, next, none) => some (.running next (fifo queue op).2 out)
      | (out, next, some (.thrown _)) => some (.running next (queue ++ buff.savedOf op) out)
      | (_, _, some .asserted) => some .aborted
    else
      none
  | .aborted, _ => none

/-- No assertion has failed, the positions are in order inside the vector, and the bytes between
them are those of the queue. -/
def Process.Refines : Process → Prop
  | .running buff queue _ => buff.Valid ∧ buff.content = queue
  | .aborted => False

/-- What the call handed out is what the queue hands out. -/
def Process.Gives : Process → Op → Process → Prop
  | .running _ queue _, op, .running _ _ out => out = (fifo queue op).1
  | _, _, _ => False

def Process.Small : Process → Op → Prop
  | .running buff _ _, op => buff.NoOverflow op
  | .aborted, _ => False

theorem Process.step_refines {process next : Process} {op : Op} (refines : process.Refines) (taken : process.step op = some next) :
    (next.Refines ∧ process.Gives op next ↔ process.Small op) := by
  cases process with
  | aborted => cases refines
  | running buff queue out =>
    obtain ⟨valid, same⟩ := refines
    have allowed : op.allowed buff = true := by
      by_contra refused
      simp [step, refused] at taken
    simp only [step, if_pos allowed] at taken
    by_cases small : buff.NoOverflow op
    · refine iff_of_true ?_ small
      rcases valid.call allowed small with ⟨out', next', called, valid', queued⟩ | ⟨next', exception, called, valid', saved, none⟩
      · rw [called] at taken
        cases taken
        rw [same] at queued
        exact ⟨⟨valid', by rw [queued]⟩, by rw [Gives, queued]⟩
      · rw [called] at taken
        cases taken
        exact ⟨⟨valid', by rw [saved, same]⟩, by rw [Gives, ← same, none]⟩
    · refine iff_of_false ?_ small
      cases op with
      | ensureWriteable len =>
        rcases valid.ensureWriteable_overflow (of_decide_eq_true allowed) (not_lt.mp small) with asserted | ⟨next', made, invalid⟩
        · have called : buff.call (.ensureWriteable len) = ([], buff, some .asserted) := by
            rw [Buffer.call, asserted]
            rfl
          rw [called] at taken
          cases taken
          exact fun both => both.1
        · have called : buff.call (.ensureWriteable len) = ([], next', none) := by
            rw [Buffer.call, made]
            rfl
          rw [called] at taken
          cases taken
          exact fun both => invalid both.1.1
      | append | retrieve | retrieveUntil | retrieveAll | retrieveAllToStr | hasWritten | readFd | writeFd =>
        exact absurd trivial small

end Buffer

end HttpFramework.Code
