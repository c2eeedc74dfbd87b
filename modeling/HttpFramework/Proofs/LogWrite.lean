import HttpFramework.Code.BlockDeque
import HttpFramework.Proofs.LogOrder

/-! What `write` does while it holds `mtx_`. The place to write is moved by the length that the whole
message would have, which may be more than the buffer has. The string is pushed when there is room
for it in the deque, as nobody else pushes in between. -/

namespace HttpFramework.Code
open Transition

set_option maxRecDepth 8000

namespace Log

variable {log next : Log} {action : Action} {t : LocalTime} {level : Int} {message : Bytes}

theorem running_of_step (taken : log.step action = some next) : ¬ log.overrun = true := by
  intro overrun
  unfold step at taken
  rw [if_pos overrun] at taken
  cases taken

/-- The steps outside of the section that makes a line and hands it on. -/
def Action.isAside : Action → Bool
  | .rotate _ | .rename _ | .reopen _ | .pop | .put => true
  | .compose _ _ _ | .testFull | .pushBack | .putDirectly => false

theorem Action.kinds (action : Action) : action.isAside = true ∨ (action = .pushBack ∨ action = .putDirectly) ∨
    action = .testFull ∨ ∃ t level message, action = .compose t level message := by
  cases action <;> simp [isAside]

/-- Such a step leaves the buffer and the call that holds `mtx_` alone, and adds nothing to the deque. -/
structure Aside (log next : Log) : Prop where
  buff : next.buff = log.buff
  writer : next.writer = log.writer
  overrun : next.overrun = log.overrun
  deque : next.deque.length ≤ log.deque.length

theorem step_aside (aside : action.isAside) (taken : log.step action = some next) : Aside log next := by
  have running := running_of_step taken
  unfold step at taken
  rw [if_neg running] at taken
  cases action with
  | rotate t =>
    dsimp only at taken
    split at taken <;> cases taken
    exact ⟨rfl, rfl, rfl, Nat.le_refl _⟩
  | rename thread =>
    dsimp only at taken
    split at taken <;> cases taken
    exact ⟨rfl, rfl, rfl, Nat.le_refl _⟩
  | reopen thread =>
    dsimp only at taken
    split at taken
    · split at taken <;> cases taken
      exact ⟨rfl, rfl, rfl, Nat.le_refl _⟩
    · cases taken
  | pop =>
    dsimp only at taken
    split at taken
    next str deque free first =>
      cases taken
      exact ⟨rfl, rfl, rfl, by rw [first]; exact Nat.le_succ _⟩
    next => cases taken
  | put =>
    dsimp only at taken
    split at taken
    · split at taken <;> cases taken
      exact ⟨rfl, rfl, rfl, Nat.le_refl _⟩
    · cases taken
  | compose t level message | testFull | pushBack | putDirectly => cases aside

/-- The outcome of `full` decides who writes the line. -/
theorem step_testFull (taken : log.step .testFull = some next) :
    (next.writer = .direct ∧ next.buff = log.buff ∨
        log.deque.length < capacity ∧ (∃ str, next.writer = .pushing str) ∧ next.buff = log.buff.retrieveAll) ∧
      next.deque = log.deque ∧ next.overrun = log.overrun := by
  have running := running_of_step taken
  rw [step, if_neg running] at taken
  dsimp only at taken
  split at taken
  · split at taken
    · cases taken
      exact ⟨.inl ⟨rfl, rfl⟩, rfl, rfl⟩
    · next room =>
      cases taken
      exact ⟨.inr ⟨not_le.mp room, ⟨_, rfl⟩, rfl⟩, rfl, rfl⟩
  · cases taken

/-- The two ways in which the section ends. -/
theorem step_finished (finishes : action = .pushBack ∨ action = .putDirectly) (taken : log.step action = some next) :
    next.writer = .idle ∧ next.buff = log.buff.retrieveAll ∧ next.overrun = log.overrun := by
  have running := running_of_step taken
  unfold step at taken
  rw [if_neg running] at taken
  rcases finishes with rfl | rfl
  · dsimp only at taken
    split at taken
    · split at taken <;> cases taken
      exact ⟨rfl, rfl, rfl⟩
    · cases taken
  · dsimp only at taken
    split at taken <;> cases taken
    exact ⟨rfl, rfl, rfl⟩

theorem step_compose (taken : log.step (.compose t level message) = some next) :
    log.writer = .idle ∧ ∃ printed, printMessage t level message log.buff = .ok printed ∧
      (printed.buffer.length < printed.writePos ∧ next.overrun = true ∧ next.buff = printed ∧ next.writer = .idle ∨
        ∃ ended, printed.append (ascii "\n" ++ [0]) = .ok ended ∧ printed.writePos ≤ printed.buffer.length ∧
          next.overrun = log.overrun ∧ next.buff = ended ∧ next.writer = .composed) := by
  have running := running_of_step taken
  rw [step, if_neg running] at taken
  dsimp only at taken
  split at taken
  next idle =>
    refine ⟨idle, ?_⟩
    cases done : printMessage t level message log.buff with
    | error failure =>
      rw [done] at taken
      cases taken
    | ok printed =>
      rw [done] at taken
      dsimp only at taken
      split at taken
      next beyond =>
        cases taken
        exact ⟨printed, rfl, .inl ⟨beyond, rfl, rfl, idle⟩⟩
      next inside =>
        cases appended : printed.append (ascii "\n" ++ [0]) with
        | error failure =>
          rw [appended] at taken
          cases taken
        | ok ended =>
          rw [appended] at taken
          cases taken
          exact ⟨printed, rfl, .inr ⟨ended, appended, not_lt.mp inside, rfl, rfl, rfl⟩⟩
  next => cases taken

/-- Room that the call which holds `mtx_` has found in the deque is still there when it pushes. -/
structure Reserved (log : Log) : Prop where
  running : log.overrun = true → log.writer = .idle
  room : ∀ str, log.writer = .pushing str → log.deque.length < capacity

theorem Reserved.step (reserved : log.Reserved) (taken : log.step action = some next) : next.Reserved := by
  rcases action.kinds with aside | finishes | rfl | ⟨t, level, message, rfl⟩
  · obtain ⟨-, writer, overrun, shorter⟩ := step_aside aside taken
    refine ⟨fun beyond => ?_, fun str pushes => ?_⟩
    · rw [writer]
      exact reserved.running (overrun.symm.trans beyond)
    · exact lt_of_le_of_lt shorter (reserved.room str (writer.symm.trans pushes))
  · obtain ⟨idle, -⟩ := step_finished finishes taken
    exact ⟨fun _ => idle, fun str pushes => by cases idle.symm.trans pushes⟩
  · obtain ⟨said, deque, overrun⟩ := step_testFull taken
    refine ⟨fun beyond => absurd (overrun.symm.trans beyond) (running_of_step taken), fun str pushes => ?_⟩
    rcases said with ⟨direct, -⟩ | ⟨room, -, -⟩
    · cases direct.symm.trans pushes
    · rwa [deque]
  · obtain ⟨idle, printed, -, ⟨-, -, -, stays⟩ | ⟨ended, -, -, overrun, -, composed⟩⟩ := step_compose taken
    · exact ⟨fun _ => stays, fun str pushes => by cases stays.symm.trans pushes⟩
    · refine ⟨fun beyond => ?_, fun str pushes => by cases composed.symm.trans pushes⟩
      exact absurd (overrun.symm.trans beyond) (running_of_step taken)

theorem reserved_init (path suffix : Bytes) (t : LocalTime) : (init path suffix t).Reserved := by
  refine ⟨fun _ => rfl, fun str pushes => ?_⟩
  cases pushes

theorem step_pushBack {str : Bytes} (reserved : log.Reserved) (pushes : log.writer = .pushing str) :
    ∃ next, log.step .pushBack = some next ∧ next.writer = .idle ∧ next.deque = log.deque ++ [str] := by
  have running : ¬ log.overrun = true := by
    intro overrun
    cases pushes.symm.trans (reserved.running overrun)
  rw [step, if_neg running, pushes]
  dsimp only
  rw [if_neg (not_le.mpr (reserved.room str pushes))]
  exact ⟨_, rfl, rfl, rfl⟩

/-- The loop of `push_back` is left at once. -/
theorem push_never_waits {path suffix : Bytes} {actions : List Action} {final : Log} {str : Bytes}
    (ran : Run step (init path suffix t) actions final) (reached : final.writer = .pushing str) :
    final.deque.length < capacity ∧
      (∃ next, final.step .pushBack = some next ∧ next.writer = .idle ∧ next.deque = final.deque ++ [str]) ∧
      ∀ (deque next : BlockDeque Bytes) (thread : Nat) (chosen : Option Nat), deque.deq = final.deque →
        deque.capacity = capacity → deque.pushLoop thread false str chosen = some next →
          next.deq = final.deque ++ [str] := by
  have reserved : final.Reserved := ran.invariant (fun _ _ _ reserved taken => reserved.step taken) (reserved_init _ _ _)
  have room := reserved.room str reached
  refine ⟨room, step_pushBack reserved reached, fun deque next thread chosen same size pushed => ?_⟩
  rw [BlockDeque.pushLoop, same, size, if_neg (not_le.mpr room)] at pushed
  obtain ⟨threads, -, made⟩ := Option.bind_eq_some_iff.mp pushed
  cases made
  rfl

theorem push_never_waits_first : ∃ (final : Log) (str : Bytes), final.writer = .pushing str ∧ final.deque.length < capacity ∧
    (∃ next, final.step .pushBack = some next ∧ next.writer = .idle ∧ next.deque = final.deque ++ [str]) ∧
      ∀ (deque next : BlockDeque Bytes) (thread : Nat) (chosen : Option Nat), deque.deq = final.deque →
        deque.capacity = capacity → deque.pushLoop thread false str chosen = some next →
          next.deq = final.deque ++ [str] := by
  let noon : LocalTime := ⟨2024, 0, 5, 12, 0, 0, 0⟩
  obtain ⟨final, ran, checked⟩ := run_of_check
    (show ([Action.compose noon 1 (ascii "1"), .testFull].foldlM step (init (ascii "./log") (ascii ".log") noon)).any fun final =>
      final.writer = .pushing (line noon 1 (ascii "1") ++ [0]) by decide)
  have reached := of_decide_eq_true checked
  exact ⟨final, _, reached, push_never_waits ran reached⟩

end Log

/-- A text on its way into the buffer: where it is stored, how many bytes, and the buffer after it. -/
structure Portion where
  place : Nat
  stored : Nat
  size : Nat
  buff : Buffer
deriving DecidableEq

/-- The bytes are stored in the vector, and the place to write is in it afterwards. -/
def Portion.Inside (portion : Portion) : Prop :=
  portion.place + portion.stored ≤ portion.size ∧ portion.buff.writePos ≤ portion.buff.buffer.length

namespace Buffer

def printPortion (size : Nat) (text : Bytes) (buff : Buffer) : Portion where
  place := buff.writePos
  stored := if size = 0 then 0 else (text.take (size - 1)).length + 1
  size := buff.buffer.length
  buff := buff.print size text

def appendPortion (data : Bytes) (buff : Buffer) : Except Failure Portion := do
  let ready ← buff.ensureWriteable data.length
  return { place := ready.writePos, stored := data.length, size := ready.buffer.length, buff := ready.hasWritten data }

variable {buff : Buffer} {text data : Bytes} {size : Nat}

theorem hasWritten_length (data : Bytes) (buff : Buffer) : (buff.hasWritten data).buffer.length = buff.buffer.length :=
  copyTo_length _ _ _

theorem appendPortion_append : (buff.appendPortion data).map Portion.buff = buff.append data := by
  rw [appendPortion, Buffer.append]
  cases buff.ensureWriteable data.length <;> rfl

theorem appendPortion_of_room (room : data.length ≤ buff.writableBytes) : buff.appendPortion data = .ok {
    place := buff.writePos, stored := data.length, size := buff.buffer.length, buff := buff.hasWritten data } := by
  have ready : buff.ensureWriteable data.length = .ok buff := by
    rw [Buffer.ensureWriteable, if_neg (not_lt.mpr room)]
    exact if_pos room
  rw [appendPortion, ready]
  rfl

/-- The place to write goes back by one when the length cannot be returned. -/
theorem Valid.print_huge (valid : buff.Valid) (huge : 2 ^ 31 ≤ text.length) (positive : 0 < buff.writePos) :
    (buff.print size text).writePos = buff.writePos - 1 ∧
      (buff.print size text).buffer.length = buff.buffer.length ∧ (buff.print size text).readPos = buff.readPos := by
  have := valid.write
  have bounded := valid.size
  simp only [maxSize] at bounded
  have position : toSizeT (buff.writePos + printed text) = buff.writePos - 1 := by
    rw [printed, if_neg (not_lt.mpr huge)]
    have below : (buff.writePos : Int) + -1 = (buff.writePos - 1 : Nat) := by omega
    rw [below]
    exact toSizeT_of_lt (by omega)
  exact ⟨position, copyTo_length _ _ _, rfl⟩

/-- What is printed stays inside whatever its length. -/
theorem Valid.printPortion_stored (valid : buff.Valid) (room : size ≤ buff.writableBytes) :
    (buff.printPortion size text).place + (buff.printPortion size text).stored ≤ (buff.printPortion size text).size := by
  have := valid.write
  rw [valid.writableBytes] at room
  show buff.writePos + (if size = 0 then 0 else (text.take (size - 1)).length + 1) ≤ buff.buffer.length
  rw [List.length_take]
  split <;> omega

theorem Valid.appendPortion (valid : buff.Valid) (start : buff.readPos = 0) (short : data.length ≤ maxSize) :
    (∃ exception, buff.appendPortion data = .error (.thrown exception)) ∨
      ∃ portion, buff.appendPortion data = .ok portion ∧ portion.Inside ∧ portion.buff.Valid ∧
        buff.buffer.length ≤ portion.buff.buffer.length := by
  have write := valid.write
  have bounded := valid.size
  simp only [maxSize] at bounded short
  rcases @Valid.ensureWriteable buff data.length valid (by omega) with ⟨exception, thrown⟩ | ⟨ready, made, valid', same, room⟩
  · exact .inl ⟨exception, by rw [Buffer.appendPortion, thrown]; rfl⟩
  · obtain ⟨valid'', content⟩ := valid'.hasWritten room
    refine .inr ⟨_, by rw [Buffer.appendPortion, made]; rfl, ⟨?_, valid''.write⟩, valid'', ?_⟩
    · rw [valid'.writableBytes] at room
      have := valid'.write
      show ready.writePos + data.length ≤ ready.buffer.length
      omega
    · show buff.buffer.length ≤ (copyTo ready.buffer _ _).length
      rw [copyTo_length]
      by_cases scarce : buff.writableBytes < data.length
      -- The old contents and the new do not fit into the old vector.
      · have before := valid.content_length
        have after := valid'.content_length
        have := valid'.read
        have := valid'.write
        rw [same, before, valid.readableBytes, valid'.readableBytes] at after
        rw [valid.writableBytes] at scarce
        rw [valid'.writableBytes] at room
        omega
      · rw [Buffer.ensureWriteable, if_neg scarce] at made
        dsimp only [bind, Except.bind] at made
        rw [if_pos (not_lt.mp scarce)] at made
        cases made
        exact Nat.le_refl _

end Buffer

namespace Log

variable {t : LocalTime} {level : Int} {message : Bytes} {buff : Buffer} {log next : Log} {action : Action}

/-- The four texts that `write` stores, up to one that cannot be appended. -/
def writePortions (t : LocalTime) (level : Int) (message : Bytes) (buff : Buffer) : List Portion :=
  let stamp := buff.printPortion 128 t.stamp
  match stamp.buff.appendPortion (levelTitle level) with
  | .error _ => [stamp]
  | .ok title =>
    let body := title.buff.printPortion title.buff.writableBytes message
    stamp :: title :: body :: (body.buff.appendPortion (ascii "\n" ++ [0])).toOption.toList

/-- The message ends inside the buffer, or its length is not returned. -/
def Contained (t : LocalTime) (message : Bytes) (buff : Buffer) : Prop :=
  2 ^ 31 ≤ message.length ∨ t.stamp.length + 9 + message.length ≤ buff.buffer.length

instance (t : LocalTime) (message : Bytes) (buff : Buffer) : Decidable (Contained t message buff) :=
  inferInstanceAs (Decidable (_ ∨ _))

/-- The buffer as a call of `write` finds it. -/
structure Emptied (buff : Buffer) : Prop where
  valid : buff.Valid
  start : buff.writePos = 0
  large : 1024 ≤ buff.buffer.length

/-- The stamp and the title always fit. -/
theorem Emptied.titled (emptied : Emptied buff) (t : LocalTime) (level : Int) :
    ∃ title, (buff.printPortion 128 t.stamp).Inside ∧ (buff.print 128 t.stamp).appendPortion (levelTitle level) = .ok title ∧
      title.Inside ∧ title.buff.Valid ∧ title.buff.readPos = 0 ∧ title.buff.writePos = t.stamp.length + 9 ∧
      title.buff.buffer.length = buff.buffer.length := by
  have short := t.stamp_length
  have large := emptied.large
  have start := emptied.start
  have title := levelTitle_length level
  have nothing : buff.readPos = 0 := by
    have := emptied.valid.read
    omega
  have room : t.stamp.length < buff.writableBytes := by
    rw [emptied.valid.writableBytes]
    omega
  obtain ⟨stamped, -, place, length⟩ := @Buffer.Valid.print buff t.stamp 128 emptied.valid (by omega) room (by omega)
  have inside : (buff.printPortion 128 t.stamp).Inside := by
    refine ⟨?_, stamped.write⟩
    dsimp only [Buffer.printPortion]
    rw [if_neg (by decide), List.length_take]
    omega
  have roomTitle : (levelTitle level).length ≤ (buff.print 128 t.stamp).writableBytes := by
    rw [stamped.writableBytes]
    omega
  have end' : (buff.print 128 t.stamp).writePos + (levelTitle level).length = t.stamp.length + 9 := by
    omega
  obtain ⟨valid, -⟩ := stamped.hasWritten roomTitle
  refine ⟨_, inside, Buffer.appendPortion_of_room roomTitle, ⟨?_, valid.write⟩, valid, nothing, ?_, ?_⟩
  · dsimp only
    rw [end', length]
    omega
  · exact (Buffer.toSizeT_of_lt (by omega)).trans end'
  · rw [Buffer.hasWritten_length, length]

/-- A message that is contained leaves the place to write inside, and one that is not leaves it beyond. -/
theorem body_inside_iff {title : Buffer} (valid : title.Valid) (start : title.readPos = 0)
    (place : title.writePos = t.stamp.length + 9) (length : title.buffer.length = buff.buffer.length) :
    ((title.printPortion title.writableBytes message).Inside ↔ Contained t message buff) ∧
      (Contained t message buff → (title.print title.writableBytes message).Valid) := by
  have stored := @Buffer.Valid.printPortion_stored title message title.writableBytes valid (Nat.le_refl _)
  have write := valid.write
  have bounded := valid.size
  by_cases small : message.length < 2 ^ 31
  · obtain ⟨place', length', start'⟩ := @Buffer.Valid.print_within title message title.writableBytes valid small
    have ends : Contained t message buff ↔ t.stamp.length + 9 + message.length ≤ buff.buffer.length :=
      or_iff_right (not_le.mpr small)
    rw [ends]
    constructor
    · constructor
      · intro inside
        have within := inside.2
        dsimp only [Buffer.printPortion] at within
        omega
      · intro fits
        refine ⟨stored, ?_⟩
        dsimp only [Buffer.printPortion]
        omega
    · intro fits
      exact ⟨by omega, by omega, by omega⟩
  · obtain ⟨place', length', start'⟩ :=
      @Buffer.Valid.print_huge title message title.writableBytes valid (not_lt.mp small) (by omega)
    have huge : Contained t message buff := .inl (not_lt.mp small)
    refine ⟨iff_of_true ⟨stored, ?_⟩ huge, fun _ => ⟨by omega, by omega, by omega⟩⟩
    dsimp only [Buffer.printPortion]
    omega

theorem writePortions_titled {title : Portion} (titled : (buff.print 128 t.stamp).appendPortion (levelTitle level) = .ok title) :
    writePortions t level message buff = buff.printPortion 128 t.stamp :: title ::
      title.buff.printPortion title.buff.writableBytes message ::
        ((title.buff.print title.buff.writableBytes message).appendPortion (ascii "\n" ++ [0])).toOption.toList := by
  rw [writePortions]
  dsimp only [Buffer.printPortion]
  rw [titled]

theorem printMessage_titled {title : Portion} (titled : (buff.print 128 t.stamp).appendPortion (levelTitle level) = .ok title) :
    printMessage t level message buff = .ok (title.buff.print title.buff.writableBytes message) := by
  rw [printMessage, ← Buffer.appendPortion_append, titled]
  rfl

theorem short_end : (ascii "\n" ++ [0]).length ≤ maxSize := by decide

theorem writePortions_inside_iff (emptied : Emptied buff) :
    (∀ portion ∈ writePortions t level message buff, portion.Inside) ↔ Contained t message buff := by
  obtain ⟨title, stamped, titled, inside, valid, start, place, length⟩ := emptied.titled t level
  obtain ⟨exact, contained⟩ := @body_inside_iff t message buff title.buff valid start place length
  rw [writePortions_titled titled, List.forall_mem_cons, List.forall_mem_cons, List.forall_mem_cons, ← exact]
  constructor
  · intro all
    exact all.2.2.1
  · intro fits
    refine ⟨stamped, inside, fits, fun portion member => ?_⟩
    rcases (contained (exact.mp fits)).appendPortion start short_end with ⟨exception, thrown⟩ | ⟨ended, appended, within, -⟩
    · rw [thrown] at member
      cases member
    · rw [appended] at member
      cases List.mem_singleton.mp member
      exact within

/-- The line leaves the buffer as large as it was, or larger. -/
theorem Emptied.compose (emptied : Emptied log.buff) (fits : Contained t message log.buff)
    (taken : log.step (.compose t level message) = some next) :
    next.overrun = false ∧ next.buff.Valid ∧ 1024 ≤ next.buff.buffer.length ∧ next.writer = .composed := by
  obtain ⟨title, -, titled, -, valid, start, place, length⟩ := emptied.titled t level
  obtain ⟨-, contained⟩ := @body_inside_iff t message log.buff title.buff valid start place length
  have printed := contained fits
  have running := running_of_step taken
  obtain ⟨-, body, done, outcome⟩ := step_compose taken
  rw [printMessage_titled titled] at done
  cases done
  rcases outcome with ⟨beyond, -⟩ | ⟨ended, appended, -, overrun, buff, composed⟩
  · exact absurd beyond (not_lt.mpr printed.write)
  · rw [← Buffer.appendPortion_append] at appended
    rcases printed.appendPortion start short_end with ⟨exception, thrown⟩ | ⟨portion, made, -, valid', longer⟩
    · rw [thrown] at appended
      cases appended
    · rw [made] at appended
      cases appended
      have same : (title.buff.print title.buff.writableBytes message).buffer.length = log.buff.buffer.length :=
        (copyTo_length _ _ _).trans length
      refine ⟨overrun.trans (Bool.eq_false_iff.mpr running), buff ▸ valid', ?_, composed⟩
      rw [buff]
      exact emptied.large.trans (same ▸ longer)

structure Sized (log : Log) : Prop where
  running : log.overrun = false
  valid : log.buff.Valid
  emptied : log.writer = .idle → log.buff.writePos = 0
  large : 1024 ≤ log.buff.buffer.length

theorem Sized.clear (sized : log.Sized) (running : next.overrun = log.overrun) (cleared : next.buff = log.buff.retrieveAll) :
    next.Sized := by
  refine ⟨running.trans sized.running, cleared ▸ sized.valid.cleared, fun _ => by rw [cleared]; rfl, ?_⟩
  rw [cleared, Buffer.retrieveAll, List.length_replicate]
  exact sized.large

/-- The steps besides the one that makes the line. -/
theorem Sized.other (sized : log.Sized) (other : ∀ t level message, action ≠ .compose t level message)
    (taken : log.step action = some next) : next.Sized := by
  rcases action.kinds with aside | finishes | rfl | ⟨t, level, message, rfl⟩
  · obtain ⟨buff, writer, overrun, -⟩ := step_aside aside taken
    exact ⟨overrun.trans sized.running, buff ▸ sized.valid, fun idle => by rw [buff]; exact sized.emptied (writer ▸ idle),
      buff ▸ sized.large⟩
  · obtain ⟨-, cleared, overrun⟩ := step_finished finishes taken
    exact sized.clear overrun cleared
  · obtain ⟨⟨direct, buff⟩ | ⟨-, -, cleared⟩, -, overrun⟩ := step_testFull taken
    · refine ⟨overrun.trans sized.running, buff ▸ sized.valid, fun idle => ?_, buff ▸ sized.large⟩
      cases direct.symm.trans idle
    · exact sized.clear overrun cleared
  · exact absurd rfl (other t level message)

theorem Sized.found (sized : log.Sized) (idle : log.writer = .idle) : Emptied log.buff :=
  ⟨sized.valid, sized.emptied idle, sized.large⟩

/-- All that `write` stores is inside the vector, and so is the place to write after each step. -/
structure WritesInside (log : Log) (action : Action) (next : Log) : Prop where
  portions : ∀ t level message, action = .compose t level message → ∀ portion ∈ writePortions t level message log.buff, portion.Inside
  after : next.buff.writePos ≤ next.buff.buffer.length

/-- The message that the call is about to print is contained. -/
def PrintsInside (log : Log) : Action → Log → Prop
  | .compose t _ message, _ => Contained t message log.buff
  | _, _ => True

theorem Sized.step (sized : log.Sized) (taken : log.step action = some next) (fits : log.PrintsInside action next) : next.Sized := by
  by_cases composes : ∃ t level message, action = .compose t level message
  · obtain ⟨t, level, message, rfl⟩ := composes
    obtain ⟨idle, -⟩ := step_compose taken
    obtain ⟨running, valid, large, composed⟩ := (sized.found idle).compose fits taken
    have busy : next.writer ≠ .idle := by
      rw [composed]
      decide
    exact ⟨running, valid, fun idle => absurd idle busy, large⟩
  · exact sized.other (fun t level message same => composes ⟨t, level, message, same⟩) taken

theorem Sized.writesInside_iff (sized : log.Sized) (taken : log.step action = some next) :
    log.WritesInside action next ↔ log.PrintsInside action next := by
  by_cases composes : ∃ t level message, action = .compose t level message
  · obtain ⟨t, level, message, rfl⟩ := composes
    obtain ⟨idle, -⟩ := step_compose taken
    have exact := @writePortions_inside_iff t level message log.buff (sized.found idle)
    refine ⟨fun inside => exact.mp (inside.portions t level message rfl), fun fits => ⟨?_, (sized.step taken fits).valid.write⟩⟩
    intro t' level' message' same
    cases same
    exact exact.mpr fits
  · have other : ∀ t level message, action ≠ .compose t level message := fun t level message same =>
      composes ⟨t, level, message, same⟩
    have free : log.PrintsInside action next := by
      cases action <;> first | exact absurd rfl (other _ _ _) | trivial
    exact iff_of_true ⟨fun t level message same => absurd same (other t level message), (sized.other other taken).valid.write⟩ free

theorem sized_init (path suffix : Bytes) (t : LocalTime) : (init path suffix t).Sized := by
  have length : (init path suffix t).buff.buffer.length = 1024 := List.length_replicate
  exact ⟨rfl, ⟨Nat.le_refl 0, Nat.zero_le _, by rw [length]; decide⟩, fun _ => rfl, length.ge⟩

theorem write_inside_iff (path suffix : Bytes) (t : LocalTime) (actions : List Action) :
    Throughout step WritesInside (init path suffix t) actions ↔ Throughout step PrintsInside (init path suffix t) actions := by
  apply throughout_iff Sized _ _ (sized_init path suffix t)
  · intro log action next sized taken fits
    exact sized.step taken fits
  · intro log action next sized taken
    exact sized.writesInside_iff taken

/-- The buffer has 1024 bytes. -/
theorem message_overruns : ¬ ∀ (path suffix : Bytes) (t : LocalTime) (actions : List Action) (final : Log),
    Run step (init path suffix t) actions final → Throughout step WritesInside (init path suffix t) actions := by
  intro inside
  let noon : LocalTime := ⟨2024, 0, 5, 12, 0, 0, 0⟩
  let long : Bytes := List.replicate 2000 (chr 'x')
  obtain ⟨final, ran, -⟩ := run_of_check (show ([Action.compose noon 1 long].foldlM step (init (ascii "./log") (ascii ".log") noon)).any
    Log.overrun by decide +kernel)
  cases inside _ _ _ _ _ ran with
  | cons taken holds _ =>
    have sized := sized_init (ascii "./log") (ascii ".log") noon
    have fits : Contained noon long (init (ascii "./log") (ascii ".log") noon).buff := (sized.writesInside_iff taken).mp holds
    exact absurd fits (by decide +kernel)

end Log

end HttpFramework.Code
