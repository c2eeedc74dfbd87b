import HttpFramework.Mylog.Buffer
import HttpFramework.Library.Transition

/-! The bounds of a log buffer. Growth is one step whatever the length of the message,
so a push keeps inside the vector exactly when that one step reaches far enough. -/

namespace HttpFramework.Mylog
open Transition

namespace Buffer

structure Valid (buf : Buffer) : Prop where
  read : buf.readPos ≤ buf.writePos
  write : buf.writePos ≤ buf.buffer.length

variable {config : JsonData} {buf : Buffer}

theorem new_ok {fresh : Buffer} (built : new config = .ok fresh) :
    config.bufferSize ≤ maxSize ∧ fresh = ⟨List.replicate config.bufferSize 0, 0, 0⟩ := by
  unfold new at built
  cases resized : resize [] config.bufferSize with
  | error exception => rw [resized] at built; cases built
  | ok content =>
    rw [resized] at built
    cases built
    obtain ⟨small, rfl⟩ := resize_ok resized
    simpa using small

theorem new_eq (small : config.bufferSize ≤ maxSize) :
    new config = .ok ⟨List.replicate config.bufferSize 0, 0, 0⟩ := by
  simp [new, resize, small]

theorem writeableSize_eq (valid : buf.Valid) (fits : buf.buffer.length ≤ maxSize) :
    buf.writeableSize = buf.buffer.length - buf.writePos := by
  have write := valid.write
  simp only [maxSize] at fits
  simp only [writeableSize, toSizeT]
  omega

theorem readableSize_eq (valid : buf.Valid) (fits : buf.buffer.length ≤ maxSize) :
    buf.readableSize = buf.writePos - buf.readPos := by
  have read := valid.read
  have write := valid.write
  simp only [maxSize] at fits
  simp only [readableSize, toSizeT]
  omega

theorem push_cases (config : JsonData) (valid : buf.Valid) (fits : buf.buffer.length ≤ maxSize) (data : Bytes) :
    (buf.writePos + data.length < buf.buffer.length ∧ buf.toBeEnough config data.length = .ok buf ∧
      buf.push config data =
        .ok { buf with buffer := copyTo buf.buffer buf.writePos data, writePos := buf.writePos + data.length }) ∨
    buf.buffer.length ≤ buf.writePos + data.length ∧
      ((maxSize < grownSize config buf.buffer.length ∧ buf.toBeEnough config data.length = .error .lengthError ∧
          buf.push config data = .error .lengthError) ∨
        grownSize config buf.buffer.length ≤ maxSize ∧
          ∃ grown, resize buf.buffer (grownSize config buf.buffer.length) = .ok grown ∧
            buf.toBeEnough config data.length = .ok { buf with buffer := grown } ∧
            buf.push config data =
              .ok { buf with buffer := copyTo grown buf.writePos data, writePos := buf.writePos + data.length }) := by
  have write := valid.write
  have space := writeableSize_eq valid fits
  by_cases room : buf.writePos + data.length < buf.buffer.length
  · have enough : buf.toBeEnough config data.length = .ok buf := by
      unfold toBeEnough
      exact if_neg (by omega)
    exact .inl ⟨room, enough, by simp only [push, enough]; rfl⟩
  · refine .inr ⟨by omega, ?_⟩
    have full : data.length ≥ buf.writeableSize := by omega
    by_cases small : grownSize config buf.buffer.length ≤ maxSize
    · obtain ⟨grown, resized⟩ : ∃ grown, resize buf.buffer (grownSize config buf.buffer.length) = .ok grown :=
        ⟨_, if_pos small⟩
      have grows : buf.toBeEnough config data.length = .ok { buf with buffer := grown } := by
        unfold toBeEnough
        rw [if_pos full, resized]
        rfl
      exact .inr ⟨small, grown, resized, grows, by simp only [push, grows]; rfl⟩
    · have refused : resize buf.buffer (grownSize config buf.buffer.length) = .error .lengthError := if_neg small
      have throws : buf.toBeEnough config data.length = .error .lengthError := by
        unfold toBeEnough
        rw [if_pos full, refused]
        rfl
      exact .inl ⟨by omega, throws, by simp only [push, throws]; rfl⟩

def CopiesInside (config : JsonData) (buf : Buffer) (data : Bytes) : Prop :=
  ∀ grown, buf.toBeEnough config data.length = .ok grown → grown.writePos + data.length ≤ grown.buffer.length

/-- The message leaves space to spare, or the one step of growth has room for it, or
growing is refused. -/
def HasRoom (config : JsonData) (buf : Buffer) (data : Bytes) : Prop :=
  buf.writePos + data.length < buf.buffer.length ∨ maxSize < grownSize config buf.buffer.length ∨
    buf.writePos + data.length ≤ grownSize config buf.buffer.length

theorem readable_eq (valid : buf.Valid) (fits : buf.buffer.length ≤ maxSize) :
    buf.readable = (buf.buffer.take buf.writePos).drop buf.readPos := by
  rw [readable, readableSize_eq valid fits, List.drop_take]

theorem readable_of_isEmpty (empty : buf.isEmpty) : buf.readable = [] := by
  have same : buf.writePos = buf.readPos := by simpa [isEmpty] using empty
  simp [readable, readableSize, same, toSizeT]

theorem copied {content data : Bytes} (valid : buf.Valid) (fits : buf.buffer.length ≤ maxSize)
    (small : content.length ≤ maxSize) (same : content.take buf.writePos = buf.buffer.take buf.writePos)
    (inside : buf.writePos + data.length ≤ content.length) :
    Valid ⟨copyTo content buf.writePos data, buf.writePos + data.length, buf.readPos⟩ ∧
      readable ⟨copyTo content buf.writePos data, buf.writePos + data.length, buf.readPos⟩ = buf.readable ++ data := by
  have read := valid.read
  have kept : Valid ⟨copyTo content buf.writePos data, buf.writePos + data.length, buf.readPos⟩ :=
    ⟨Nat.le_add_right_of_le read, by simpa only [copyTo_length] using inside⟩
  refine ⟨kept, ?_⟩
  have place : (content.take buf.writePos).length = buf.writePos := by
    rw [List.length_take]
    omega
  have front : (copyTo content buf.writePos data).take (buf.writePos + data.length) =
      content.take buf.writePos ++ data := by
    have size : (content.take buf.writePos ++ data).length = buf.writePos + data.length := by
      rw [List.length_append, place]
    rw [copyTo, List.take_take, Nat.min_eq_left inside, ← size, List.take_left]
  rw [readable_eq kept (by simpa only [copyTo_length] using small), readable_eq valid fits]
  simp only [front, ← same]
  apply List.drop_append_of_le_length
  omega

/-- A push that throws has written nothing. Otherwise room decides whether the buffer
stays valid, whether the copy stays inside and whether the message was appended. -/
theorem push_spec (config : JsonData) (valid : buf.Valid) (fits : buf.buffer.length ≤ maxSize) (data : Bytes) :
    (∃ exception, buf.push config data = .error exception ∧ buf.CopiesInside config data ∧ buf.HasRoom config data) ∨
      ∃ next, buf.push config data = .ok next ∧ next.buffer.length ≤ maxSize ∧ (next.Valid ↔ buf.HasRoom config data) ∧
        (buf.CopiesInside config data ↔ buf.HasRoom config data) ∧
        (buf.HasRoom config data → next.readable = buf.readable ++ data) := by
  rcases push_cases config valid fits data with
    ⟨room, enough, pushed⟩ | ⟨full, ⟨large, throws, pushed⟩ | ⟨small, grown, resized, grows, pushed⟩⟩
  · have roomy : buf.HasRoom config data := .inl room
    have copies : buf.CopiesInside config data := by
      intro other same
      cases enough.symm.trans same
      exact room.le
    obtain ⟨kept, appended⟩ := copied valid fits fits rfl room.le
    exact .inr ⟨_, pushed, by simpa only [copyTo_length] using fits, ⟨fun _ => roomy, fun _ => kept⟩,
      ⟨fun _ => roomy, fun _ => copies⟩, fun _ => appended⟩
  · refine .inl ⟨_, pushed, fun other same => ?_, .inr (.inl large)⟩
    cases throws.symm.trans same
  · have size := resize_length resized
    have reaches : buf.HasRoom config data ↔ buf.writePos + data.length ≤ grown.length := by
      simp only [HasRoom, size]
      omega
    have same : buf.writePos + data.length ≤ grown.length → grown.take buf.writePos = buf.buffer.take buf.writePos := by
      intro inside
      have write := valid.write
      rw [size] at inside
      rw [(resize_ok resized).2, List.take_append_of_le_length (by rw [List.length_take]; omega), List.take_take,
        Nat.min_eq_left (by omega)]
    rw [← size] at small
    refine .inr ⟨_, pushed, by simpa only [copyTo_length] using small, ⟨fun kept => ?_, fun roomy => ?_⟩,
      ⟨fun copies => ?_, fun roomy other other' => ?_⟩, fun roomy => ?_⟩
    · exact reaches.mpr (by simpa only [copyTo_length] using kept.write)
    · exact (copied valid fits small (same (reaches.mp roomy)) (reaches.mp roomy)).1
    · exact reaches.mpr (copies _ grows)
    · cases grows.symm.trans other'
      exact reaches.mp roomy
    · exact (copied valid fits small (same (reaches.mp roomy)) (reaches.mp roomy)).2

theorem Valid.moveWritePos (valid : buf.Valid) (fits : buf.buffer.length ≤ maxSize) {len : Int} {next : Buffer}
    (moved : buf.moveWritePos len = some next) : next.Valid ∧ next.buffer = buf.buffer := by
  have read := valid.read
  have write := valid.write
  have space := writeableSize_eq valid fits
  simp only [maxSize] at fits
  unfold Buffer.moveWritePos at moved
  split at moved
  next inside =>
    cases moved
    rw [space] at inside
    simp only [toSizeT] at inside
    have place : toSizeT (buf.writePos + len) = buf.writePos + (len % 2 ^ 64).toNat := by
      simp only [toSizeT]
      omega
    refine ⟨⟨?_, ?_⟩, rfl⟩
    · exact place ▸ Nat.le_add_right_of_le read
    · simp only [place]
      omega
  next => cases moved

theorem Valid.moveReadPos (valid : buf.Valid) (fits : buf.buffer.length ≤ maxSize) {len : Int} {next : Buffer}
    (moved : buf.moveReadPos len = some next) : next.Valid ∧ next.buffer = buf.buffer := by
  have read := valid.read
  have write := valid.write
  have space := readableSize_eq valid fits
  simp only [maxSize] at fits
  unfold Buffer.moveReadPos at moved
  split at moved
  next inside =>
    cases moved
    rw [space] at inside
    simp only [toSizeT] at inside
    have place : toSizeT (buf.readPos + len) = buf.readPos + (len % 2 ^ 64).toNat := by
      simp only [toSizeT]
      omega
    refine ⟨⟨?_, write⟩, rfl⟩
    simp only [place]
    omega
  next => cases moved

end Buffer

namespace Op

variable {ι : Type} [DecidableEq ι] {config : JsonData}

def CopiesInside (config : JsonData) (buffers : ι → Buffer) : Op ι → Prop
  | .push i data => (buffers i).CopiesInside config data
  | _ => True

def HasRoom (config : JsonData) (buffers : ι → Buffer) : Op ι → Prop
  | .push i data => (buffers i).HasRoom config data
  | _ => True

/-- Every buffer is in bounds. That no vector exceeds its maximal size is added to
make the induction go through. -/
def InBounds (buffers : ι → Buffer) : Prop := ∀ k, (buffers k).Valid ∧ (buffers k).buffer.length ≤ maxSize

theorem InBounds.update {buffers : ι → Buffer} (bounds : InBounds buffers) (i : ι) {buf : Buffer} (valid : buf.Valid)
    (fits : buf.buffer.length ≤ maxSize) : InBounds (Function.update buffers i buf) := by
  intro k
  by_cases same : k = i
  · subst same
    rw [Function.update_self]
    exact ⟨valid, fits⟩
  · rw [Function.update_of_ne same]
    exact bounds k

theorem push_inBounds {buffers next : ι → Buffer} {i : ι} {data : Bytes} (bounds : InBounds buffers)
    (taken : step config buffers (.push i data) = some next) :
    (HasRoom config buffers (.push i data) → InBounds next) ∧
      ((∀ k, (next k).Valid) ∧ CopiesInside config buffers (.push i data) ↔
        HasRoom config buffers (.push i data)) := by
  obtain ⟨valid, fits⟩ := bounds i
  rcases Buffer.push_spec config valid fits data with
    ⟨_, pushed, copies, roomy⟩ | ⟨buf, pushed, small, kept, copies, _⟩
  · simp only [step, pushed, Option.some.injEq] at taken
    subst taken
    exact ⟨fun _ => bounds, fun _ => roomy, fun _ => ⟨fun k => (bounds k).1, copies⟩⟩
  · simp only [step, pushed, Option.some.injEq] at taken
    subst taken
    have stays (roomy : HasRoom config buffers (.push i data)) := bounds.update i (kept.mpr roomy) small
    exact ⟨stays, fun sound => copies.mp sound.2,
      fun roomy => ⟨fun k => (stays roomy k).1, copies.mpr roomy⟩⟩

theorem other_inBounds {buffers next : ι → Buffer} {op : Op ι} (other : ∀ i data, op ≠ .push i data)
    (bounds : InBounds buffers) (taken : step config buffers op = some next) : InBounds next := by
  cases op with
  | push i data => exact absurd rfl (other i data)
  | swap i j =>
    cases taken
    exact (bounds.update i (bounds j).1 (bounds j).2).update j (bounds i).1 (bounds i).2
  | reset i =>
    cases taken
    exact bounds.update i ⟨Nat.le_refl 0, Nat.zero_le _⟩ (bounds i).2
  | moveReadPos i len =>
    obtain ⟨buf, moved, rfl⟩ := Option.map_eq_some_iff.mp taken
    obtain ⟨valid, same⟩ := (bounds i).1.moveReadPos (bounds i).2 moved
    exact bounds.update i valid (same ▸ (bounds i).2)
  | moveWritePos i len =>
    obtain ⟨buf, moved, rfl⟩ := Option.map_eq_some_iff.mp taken
    obtain ⟨valid, same⟩ := (bounds i).1.moveWritePos (bounds i).2 moved
    exact bounds.update i valid (same ▸ (bounds i).2)

omit [DecidableEq ι] in
theorem hasRoom_of_other {buffers : ι → Buffer} {op : Op ι} (other : ∀ i data, op ≠ .push i data) :
    HasRoom config buffers op ∧ CopiesInside config buffers op := by
  cases op with
  | push i data => exact absurd rfl (other i data)
  | swap | reset | moveReadPos | moveWritePos => exact ⟨trivial, trivial⟩

/-- Along any sequence of calls on new buffers, the positions stay in order and the
copies inside the vectors exactly when every push finds room after one step of growth. -/
theorem inBounds_throughout_iff {fresh : Buffer} (built : Buffer.new config = .ok fresh) (ops : List (Op ι)) :
    Throughout (step config) (fun buffers op next => (∀ k, (next k).Valid) ∧ CopiesInside config buffers op)
        (fun _ => fresh) ops ↔
      Throughout (step config) (fun buffers op _ => HasRoom config buffers op) (fun _ => fresh) ops := by
  apply throughout_iff InBounds
  · intro buffers op next bounds taken roomy
    by_cases push : ∃ i data, op = .push i data
    · obtain ⟨i, data, rfl⟩ := push
      exact (push_inBounds bounds taken).1 roomy
    · exact other_inBounds (fun i data same => push ⟨i, data, same⟩) bounds taken
  · intro buffers op next bounds taken
    by_cases push : ∃ i data, op = .push i data
    · obtain ⟨i, data, rfl⟩ := push
      exact (push_inBounds bounds taken).2
    · have other (i : ι) (data : Bytes) : op ≠ .push i data := fun same => push ⟨i, data, same⟩
      obtain ⟨roomy, copies⟩ := hasRoom_of_other other
      exact ⟨fun _ => roomy, fun _ => ⟨fun k => (other_inBounds other bounds taken k).1, copies⟩⟩
  · obtain ⟨small, rfl⟩ := Buffer.new_ok built
    intro k
    exact ⟨⟨Nat.le_refl 0, Nat.zero_le _⟩, by simpa using small⟩

theorem inBounds_small_pushes :
    Throughout (step ⟨4, 8, 4⟩) (fun buffers op next => (∀ k, (next k).Valid) ∧ CopiesInside ⟨4, 8, 4⟩ buffers op)
      (fun _ : Unit => ⟨List.replicate 4 0, 0, 0⟩) [.push () (ascii "ab"), .push () (ascii "cdefgh")] := by
  apply (inBounds_throughout_iff rfl _).mpr
  apply Throughout.cons rfl (.inl (by decide))
  exact .cons rfl (.inr (.inr (by decide))) (.nil _)

/-- One step of growth from one byte makes no room for ten. -/
theorem push_overruns :
    Buffer.new ⟨1, 1, 1⟩ = .ok ⟨[0], 0, 0⟩ ∧
      ¬ CopiesInside ⟨1, 1, 1⟩ (fun _ : Unit => ⟨[0], 0, 0⟩) (.push () (ascii "0123456789")) ∧
      ∃ final, Run (step ⟨1, 1, 1⟩) (fun _ : Unit => ⟨[0], 0, 0⟩) [.push () (ascii "0123456789")] final ∧
        ¬ (final ()).Valid := by
  refine ⟨rfl, fun inside => ?_, _, .cons rfl (.nil _), fun valid => ?_⟩
  · exact absurd (inside ⟨[0, 0], 0, 0⟩ (by decide)) (by decide)
  · exact absurd valid.write (by decide)

end Op

end HttpFramework.Mylog
