import HttpFramework.Code.Log
import HttpFramework.Proofs.BufferQueue
import HttpFramework.Proofs.RequestFormat

/-! The order of the lines in the log files. What goes through the deque comes out in order; a line
that finds the deque full is put into the file before the lines that wait there. -/

namespace HttpFramework.Code
open Transition

private theorem decimal_length {n width : Nat} (positive : 0 < width) (small : n < 10 ^ width) :
    (decimal n).length ≤ width := by
  rw [decimal, List.length_map]
  exact (Nat.length_toDigits_le_iff (by decide) positive).mpr small

private theorem zeroPadded_length {n width : Nat} (positive : 0 < width) (small : n < 10 ^ width) :
    (zeroPadded width n).length = width := by
  have := decimal_length positive small
  rw [zeroPadded, List.length_append, List.length_replicate]
  omega

private theorem zero_not_mem_zeroPadded (width n : Nat) : 0 ∉ zeroPadded width n := by
  have digits := Http.zero_not_mem_decimal n
  have zero : (0 : UInt8) ≠ chr '0' := by decide
  simp only [zeroPadded, List.mem_append, List.mem_replicate, digits, zero, and_false, or_false, not_false_eq_true]

namespace LocalTime

theorem stamp_length (t : LocalTime) : t.stamp.length ≤ 34 := by
  have year : (decimal t.year).length ≤ 10 := decimal_length (by decide) (by omega)
  have mon : (zeroPadded 2 (t.mon.val + 1)).length = 2 := zeroPadded_length (by decide) (by omega)
  have mday : (zeroPadded 2 t.mday).length = 2 := zeroPadded_length (by decide) (by omega)
  have hour : (zeroPadded 2 t.hour).length = 2 := zeroPadded_length (by decide) (by omega)
  have min : (zeroPadded 2 t.min).length = 2 := zeroPadded_length (by decide) (by omega)
  have sec : (zeroPadded 2 t.sec).length = 2 := zeroPadded_length (by decide) (by omega)
  have usec : (zeroPadded 6 t.usec).length = 6 := zeroPadded_length (by decide) (by omega)
  have mark (text : String) (one : text.toList.length = 1) : (ascii text).length = 1 := by
    rw [ascii, List.length_map, one]
  simp only [stamp, List.length_append, mon, mday, hour, min, sec, usec, mark "-" rfl, mark " " rfl, mark ":" rfl,
    mark "." rfl]
  omega

theorem zero_not_mem_stamp (t : LocalTime) : 0 ∉ t.stamp := by
  have marks : (0 : UInt8) ∉ ascii "-" ∧ (0 : UInt8) ∉ ascii " " ∧ (0 : UInt8) ∉ ascii ":" ∧ (0 : UInt8) ∉ ascii "." := by
    decide
  simp only [stamp, List.mem_append, Http.zero_not_mem_decimal, zero_not_mem_zeroPadded, marks, or_self, not_false_eq_true]

end LocalTime

namespace Buffer

variable {buff next : Buffer} {text data : Bytes} {size : Nat}

/-- Whatever has been stored, `HasWritten` is told the length of the whole text. -/
theorem Valid.print_within (valid : buff.Valid) (small : text.length < 2 ^ 31) :
    (buff.print size text).writePos = buff.writePos + text.length ∧
      (buff.print size text).buffer.length = buff.buffer.length ∧ (buff.print size text).readPos = buff.readPos := by
  have := valid.write
  have bounded := valid.size
  simp only [maxSize] at bounded
  have position : toSizeT (buff.writePos + printed text) = buff.writePos + text.length := by
    rw [printed, if_pos small]
    exact toSizeT_of_lt (by omega)
  exact ⟨position, copyTo_length _ _ _, rfl⟩

/-- A text that fits is printed whole, and `HasWritten` is told what has been written. -/
theorem Valid.print (valid : buff.Valid) (fits : text.length < size) (room : text.length < buff.writableBytes)
    (small : text.length < 2 ^ 31) :
    (buff.print size text).Valid ∧ (buff.print size text).content = buff.content ++ text ∧
      (buff.print size text).writePos = buff.writePos + text.length ∧
      (buff.print size text).buffer.length = buff.buffer.length := by
  rw [valid.writableBytes] at room
  have stored : (if size = 0 then [] else text.take (size - 1) ++ [0]) = text ++ [0] := by
    rw [if_neg (by omega), List.take_of_length_le (by omega)]
  obtain ⟨position, length, -⟩ := @Valid.print_within buff text size valid small
  obtain ⟨valid', whole⟩ := @Valid.written buff text [0] valid (by omega)
  have printed : buff.print size text =
      { buff with buffer := copyTo buff.buffer buff.writePos (text ++ [0]), writePos := buff.writePos + text.length } := by
    rw [← position, Buffer.print, stored]
  exact ⟨printed ▸ valid', printed ▸ whole, position, length⟩

theorem append_of_room (room : data.length ≤ buff.writableBytes) : buff.append data = .ok (buff.hasWritten data) := by
  rw [Buffer.append, Buffer.ensureWriteable, if_neg (not_lt.mpr room)]
  simp only [bind, Except.bind, pure, Except.pure, ge_iff_le, if_pos room]

/-- `fputs` from `Peek` on. -/
theorem Valid.peeked (valid : buff.Valid) (terminated : buff.content = text ++ [0]) (plain : 0 ∉ text) :
    cString (buff.buffer.drop buff.readPos) = text := by
  have behind : buff.buffer.drop buff.readPos = text ++ 0 :: buff.buffer.drop buff.writePos := by
    have inside : buff.readPos ≤ (buff.buffer.take buff.writePos).length := by
      rw [List.length_take]
      exact le_min valid.read (valid.read.trans valid.write)
    calc buff.buffer.drop buff.readPos
      _ = (buff.buffer.take buff.writePos ++ buff.buffer.drop buff.writePos).drop buff.readPos := by
        rw [List.take_append_drop]
      _ = buff.content ++ buff.buffer.drop buff.writePos := List.drop_append_of_le_length inside
      _ = text ++ 0 :: buff.buffer.drop buff.writePos := by
        rw [terminated, List.append_assoc, List.singleton_append]
  rw [behind, cString_append_zero, cString_of_absent plain]

end Buffer

namespace Log

variable {log next : Log} {t : LocalTime} {level : Int} {message : Bytes}

/-- The lines for which there was room in the deque, in the order in which they were passed. -/
def queued (log : Log) : List Bytes := ((log.passed.zip log.full).filter fun call => !call.2).map (·.1)

/-- The lines that found the deque full. -/
def refused (log : Log) : List Bytes := ((log.passed.zip log.full).filter fun call => call.2).map (·.1)

/-- What has come through the deque. -/
def flushed (log : Log) : List Bytes := (log.written.filter fun line => !line.direct).map (·.text)

/-- What `write` has put into the file itself. -/
def putDirect (log : Log) : List Bytes := (log.written.filter fun line => line.direct).map (·.text)

/-- The lines that there was room for are written in order, and those that found the deque full are
written at once: all of them, but for the one whose call is not over. As long as there was always
room, the lines are written in the order in which they were passed. -/
structure InOrder (log : Log) : Prop where
  inside : log.overrun = false
  flushed : log.flushed <+: log.queued
  direct : log.putDirect <+: log.refused
  atOnce : log.writer ≠ .direct → log.putDirect = log.refused
  unfilled : (∀ full ∈ log.full, full = false) → log.written.map (·.text) <+: log.passed

/-- The message has no NUL, and its line fits into the buffer. -/
def Fits (log : Log) : Action → Prop
  | .compose t _ message =>
    0 ∉ message ∧ message.length < 2 ^ 31 ∧ t.stamp.length + 9 + message.length < log.buff.buffer.length
  | _ => True

theorem levelTitle_length (level : Int) : (levelTitle level).length = 9 := by
  unfold levelTitle
  repeat' split
  all_goals rfl

theorem zero_not_mem_levelTitle (level : Int) : 0 ∉ levelTitle level := by
  unfold levelTitle
  repeat' split
  all_goals decide

theorem zero_not_mem_line (plain : 0 ∉ message) : 0 ∉ line t level message := by
  have newline : (0 : UInt8) ∉ ascii "\n" := by decide
  simp only [line, List.mem_append, t.zero_not_mem_stamp, zero_not_mem_levelTitle, plain, newline, or_self, not_false_eq_true]

theorem printMessage_of_fits {buff : Buffer} (valid : buff.Valid) (start : buff.writePos = 0)
    (small : message.length < 2 ^ 31) (fits : t.stamp.length + 9 + message.length < buff.buffer.length) :
    ∃ printed, printMessage t level message buff = .ok printed ∧ printed.Valid ∧
      printed.content = t.stamp ++ levelTitle level ++ message ∧
      printed.writePos = t.stamp.length + 9 + message.length ∧ printed.buffer.length = buff.buffer.length := by
  have short := t.stamp_length
  have title := levelTitle_length level
  have room : t.stamp.length < buff.writableBytes := by
    rw [valid.writableBytes]
    omega
  obtain ⟨stamped, stampContent, stampPlace, stampLength⟩ := @Buffer.Valid.print buff t.stamp 128 valid (by omega) room (by omega)
  have roomTitle : (levelTitle level).length ≤ (buff.print 128 t.stamp).writableBytes := by
    rw [stamped.writableBytes]
    omega
  obtain ⟨titled, titleContent⟩ := stamped.hasWritten roomTitle
  generalize held : (buff.print 128 t.stamp).hasWritten (levelTitle level) = headed at titled titleContent
  have titlePlace : headed.writePos = t.stamp.length + 9 := by
    rw [← held, Buffer.hasWritten, stampPlace, title, start, Nat.zero_add]
    exact Buffer.toSizeT_of_lt (by omega)
  have titleLength : headed.buffer.length = buff.buffer.length := by
    rw [← held, Buffer.hasWritten, copyTo_length, stampLength]
  have roomMessage : message.length < headed.writableBytes := by
    rw [titled.writableBytes]
    omega
  obtain ⟨whole, wholeContent, wholePlace, wholeLength⟩ := titled.print roomMessage roomMessage small
  refine ⟨headed.print headed.writableBytes message, ?_, whole, ?_, by rw [wholePlace, titlePlace],
    wholeLength.trans titleLength⟩
  · rw [printMessage, Buffer.append_of_room roomTitle, held]
    rfl
  · have nothing : buff.content = [] := by
      rw [Buffer.content, start, List.take_zero, List.drop_nil]
    rw [wholeContent, titleContent, stampContent, nothing, List.nil_append]

/-- The string of the call that pushes. -/
def pushed (log : Log) : List Bytes :=
  match log.writer with
  | .pushing str => [str]
  | _ => []

/-- The line of the call that puts it into the file itself. -/
def direct (log : Log) : List Bytes :=
  if log.writer = .direct then [cString (log.buff.buffer.drop log.buff.readPos)] else []

/-- Every line that has been passed is written, in the hands of the flush thread, in the deque or in
those of its call. -/
structure Ordered (log : Log) : Prop where
  inside : log.overrun = false
  valid : log.buff.Valid
  emptied : log.writer = .idle → log.buff.writePos = 0
  composed : log.writer = .composed → ∃ earlier text, log.passed = earlier ++ [text] ∧
    earlier.length = log.full.length ∧ log.buff.content = text ++ [0] ∧ 0 ∉ text
  tested : log.writer ≠ .composed → log.passed.length = log.full.length
  queue : log.queued = log.flushed ++ (log.str.toList ++ log.deque ++ log.pushed).map cString
  refuse : log.refused = log.putDirect ++ log.direct

/-- The calls with what `full` has said of each, before and after it is asked for the last. -/
theorem zip_tested {earlier : List Bytes} {said : List Bool} (known : earlier.length = said.length) (text : Bytes)
    (full : Bool) :
    (earlier ++ [text]).zip said = earlier.zip said ∧
      (earlier ++ [text]).zip (said ++ [full]) = earlier.zip said ++ [(text, full)] := by
  constructor
  · have all := @List.zip_append _ _ earlier [text] said [] known
    rwa [List.append_nil, List.zip_nil_right, List.append_nil] at all
  · exact List.zip_append known

/-- The calls that `full` has been asked for are the first. -/
theorem Ordered.known (ordered : log.Ordered) : (log.passed.zip log.full).map (·.1) <+: log.passed := by
  by_cases pending : log.writer = .composed
  · obtain ⟨earlier, text, passed, known, _⟩ := ordered.composed pending
    rw [passed, (zip_tested known text true).1]
    exact ⟨[text], congrArg (· ++ [text]) (List.map_fst_zip (Nat.le_of_eq known))⟩
  · exact (List.map_fst_zip (Nat.le_of_eq (ordered.tested pending))).symm ▸ List.prefix_refl _

theorem Ordered.inOrder (ordered : log.Ordered) : log.InOrder := by
  have flushed : log.flushed <+: log.queued := ⟨_, ordered.queue.symm⟩
  refine ⟨ordered.inside, flushed, ⟨_, ordered.refuse.symm⟩, ?_, ?_⟩
  · intro other
    rw [ordered.refuse, direct, if_neg other, List.append_nil]
  · intro room
    have found : ∀ call ∈ log.passed.zip log.full, call.2 = false :=
      fun call member => room _ (List.of_mem_zip member).2
    -- Nothing was refused, so `write` has put nothing into the file itself.
    have none : log.putDirect = [] := by
      have refusedNone : log.refused = [] := by
        rw [refused, List.filter_eq_nil_iff.mpr fun call member => by simp [found call member], List.map_nil]
      exact (List.append_eq_nil_iff.mp (ordered.refuse.symm.trans refusedNone)).1
    have through : log.flushed = log.written.map (·.text) := by
      have indirect := List.filter_eq_nil_iff.mp (List.map_eq_nil_iff.mp none)
      rw [Log.flushed, List.filter_eq_self.mpr fun line member => by simpa using indirect line member]
    have kept : log.queued = (log.passed.zip log.full).map (·.1) := by
      rw [queued, List.filter_eq_self.mpr fun call member => by simp [found call member]]
    rw [← through]
    apply flushed.trans
    rw [kept]
    exact ordered.known

private theorem Ordered.running (ordered : log.Ordered) : ¬ log.overrun = true := by
  rw [ordered.inside]
  decide

/-- With room for the end of the line as well, the buffer does not grow. -/
theorem Ordered.compose_taken (ordered : log.Ordered) (idle : log.writer = .idle) (small : message.length < 2 ^ 31)
    (room : t.stamp.length + 9 + message.length + 2 ≤ log.buff.buffer.length) :
    ∃ buff, log.step (.compose t level message) =
        some { log with
          buff, lineCount := log.lineCount + 1, passed := log.passed ++ [line t level message], writer := .composed } ∧
      buff.buffer.length = log.buff.buffer.length := by
  obtain ⟨printed, done, valid, _, place, length⟩ :=
    @printMessage_of_fits t level message log.buff ordered.valid (ordered.emptied idle) small (by omega)
  have enough : (ascii "\n" ++ [0]).length ≤ printed.writableBytes := by
    rw [valid.writableBytes, place, length]
    show 2 ≤ _
    omega
  refine ⟨printed.hasWritten (ascii "\n" ++ [0]), ?_, by rw [Buffer.hasWritten, copyTo_length, length]⟩
  rw [step, if_neg ordered.running]
  dsimp only
  rw [if_pos idle, done]
  dsimp only
  rw [if_neg (not_lt.mpr valid.write), Buffer.append_of_room enough]

/-- The new line is known to no one yet. -/
theorem Ordered.compose (ordered : log.Ordered) (fits : log.Fits (.compose t level message))
    (taken : log.step (.compose t level message) = some next) : next.Ordered := by
  obtain ⟨plain, small, room⟩ := fits
  rw [step, if_neg ordered.running] at taken
  dsimp only at taken
  by_cases idle : log.writer = .idle
  · rw [if_pos idle] at taken
    obtain ⟨printed, done, valid, content, _, _⟩ :=
      @printMessage_of_fits t level message log.buff ordered.valid (ordered.emptied idle) small room
    rw [done] at taken
    dsimp only at taken
    rw [if_neg (not_lt.mpr valid.write)] at taken
    have short : (ascii "\n" ++ [0]).length ≤ maxSize := by decide
    rcases valid.append short with ⟨exception, thrown⟩ | ⟨ended, appended, valid', content'⟩
    · rw [thrown] at taken
      cases taken
    · rw [appended] at taken
      cases taken
      have tested := ordered.tested (by rw [idle]; decide)
      have same := (zip_tested tested (line t level message) true).1
      constructor
      case inside => exact ordered.inside
      case valid => exact valid'
      case emptied =>
        intro wrong
        cases wrong
      case composed =>
        intro _
        refine ⟨log.passed, line t level message, rfl, tested, ?_, zero_not_mem_line plain⟩
        simp only [content', content, line, List.append_assoc]
      case tested =>
        intro wrong
        exact absurd rfl wrong
      case queue =>
        have queue := ordered.queue
        simp only [queued, flushed, pushed, idle] at queue ⊢
        rw [same, queue]
      case refuse =>
        have refuse := ordered.refuse
        simp only [refused, putDirect, direct, idle] at refuse ⊢
        rw [same, refuse]
        rfl
  · rw [if_neg idle] at taken
    cases taken

/-- The line leaves the buffer as a string, or stays there to be put into the file. -/
theorem Ordered.testFull (ordered : log.Ordered) (taken : log.step .testFull = some next) : next.Ordered := by
  rw [step, if_neg ordered.running] at taken
  dsimp only at taken
  by_cases pending : log.writer = .composed
  · rw [if_pos pending] at taken
    obtain ⟨earlier, text, passed, known, content, plain⟩ := ordered.composed pending
    have lengths (full : Bool) : log.passed.length = (log.full ++ [full]).length := by
      rw [passed, List.length_append, List.length_append, known]
      rfl
    have queue := ordered.queue
    have refuse := ordered.refuse
    simp only [queued, flushed, pushed, pending, passed, (zip_tested known text true).1] at queue
    simp only [refused, putDirect, direct, pending, passed, (zip_tested known text true).1] at refuse
    by_cases full : log.deque.length ≥ capacity
    · rw [if_pos full] at taken
      cases taken
      have shown := ordered.valid.peeked content plain
      refine ⟨ordered.inside, ordered.valid, ?_, ?_, fun _ => lengths true, ?_, ?_⟩
      · intro wrong
        cases wrong
      · intro wrong
        cases wrong
      · simp only [queued, flushed, pushed, passed, (zip_tested known text true).2]
        simpa using queue
      · simp only [refused, putDirect, direct, passed, (zip_tested known text true).2, shown]
        simpa using refuse
    · rw [if_neg full] at taken
      cases taken
      have string : log.buff.retrieveAllToStr.1 = text ++ [0] := by
        rw [Buffer.retrieveAllToStr, ordered.valid.peek (Nat.le_refl _), ← ordered.valid.content_length, List.take_length,
          content]
      have shown : cString log.buff.retrieveAllToStr.1 = text := by
        rw [string, cString_append_zero, cString_of_absent plain]
      refine ⟨ordered.inside, ordered.valid.cleared, ?_, ?_, fun _ => lengths false, ?_, ?_⟩
      · intro wrong
        cases wrong
      · intro wrong
        cases wrong
      · simp only [queued, flushed, pushed, passed, (zip_tested known text false).2]
        rw [List.filter_append, List.map_append, queue]
        simp [shown]
      · simp only [refused, putDirect, direct, passed, (zip_tested known text false).2]
        simpa using refuse
  · rw [if_neg pending] at taken
    cases taken

/-- The string goes from the call to the end of the deque. -/
theorem Ordered.pushBack (ordered : log.Ordered) (taken : log.step .pushBack = some next) : next.Ordered := by
  rw [step, if_neg ordered.running] at taken
  cases pending : log.writer with
  | pushing str =>
    rw [pending] at taken
    dsimp only at taken
    by_cases full : log.deque.length ≥ capacity
    · rw [if_pos full] at taken
      cases taken
    · rw [if_neg full] at taken
      cases taken
      refine ⟨ordered.inside, ordered.valid.cleared, fun _ => rfl, ?_, fun _ => ordered.tested (by simp [pending]), ?_, ?_⟩
      · intro wrong
        cases wrong
      · have queue := ordered.queue
        simp only [queued, flushed, pushed, pending] at queue ⊢
        simpa using queue
      · have refuse := ordered.refuse
        simp only [refused, putDirect, direct, pending] at refuse ⊢
        simpa using refuse
  | idle | composed | direct =>
    rw [pending] at taken
    cases taken

theorem Ordered.putDirectly (ordered : log.Ordered) (taken : log.step .putDirectly = some next) : next.Ordered := by
  rw [step, if_neg ordered.running] at taken
  dsimp only at taken
  by_cases pending : log.writer = .direct
  · rw [if_pos pending] at taken
    cases taken
    refine ⟨ordered.inside, ordered.valid.cleared, fun _ => rfl, ?_, fun _ => ordered.tested (by rw [pending]; decide), ?_, ?_⟩
    · intro wrong
      cases wrong
    · have queue := ordered.queue
      simp only [queued, flushed, pushed, pending] at queue ⊢
      simpa using queue
    · have refuse := ordered.refuse
      simp only [refused, putDirect, direct, pending] at refuse ⊢
      simpa using refuse
  · rw [if_neg pending] at taken
    cases taken

theorem Ordered.pop (ordered : log.Ordered) (taken : log.step .pop = some next) : next.Ordered := by
  rw [step, if_neg ordered.running] at taken
  split at taken
  next str deque free first =>
    cases taken
    refine ⟨ordered.inside, ordered.valid, ordered.emptied, ordered.composed, ordered.tested, ?_, ordered.refuse⟩
    have queue := ordered.queue
    simp only [queued, flushed, pushed, free, first] at queue ⊢
    simpa using queue
  next => cases taken

/-- What the flush thread has popped is older than all that the deque holds. -/
theorem Ordered.put (ordered : log.Ordered) (taken : log.step .put = some next) : next.Ordered := by
  rw [step, if_neg ordered.running] at taken
  split at taken
  next str held =>
    by_cases idle : log.writer = .idle
    · rw [if_pos idle] at taken
      cases taken
      refine ⟨ordered.inside, ordered.valid, ordered.emptied, ordered.composed, ordered.tested, ?_, ?_⟩
      · have queue := ordered.queue
        simp only [queued, flushed, pushed, idle, held] at queue ⊢
        simpa using queue
      · have refuse := ordered.refuse
        simp only [refused, putDirect, direct, idle] at refuse ⊢
        simpa using refuse
    · rw [if_neg idle] at taken
      cases taken
  next => cases taken

/-- Another file does not change what has been written, and no step of this kind is taken while a
line is on its way. -/
theorem Ordered.newFile (ordered : log.Ordered) {action : Action}
    (kind : (∃ t, action = .rotate t) ∨ (∃ thread, action = .rename thread) ∨ ∃ thread, action = .reopen thread)
    (taken : log.step action = some next) : next.Ordered := by
  have same {toDay lineCount : Nat} {fp : Bytes} {rotating : List LocalTime} {renamed : List Bytes} :
      Ordered { log with toDay, lineCount, fp, rotating, renamed } :=
    ⟨ordered.inside, ordered.valid, ordered.emptied, ordered.composed, ordered.tested, ordered.queue, ordered.refuse⟩
  unfold step at taken
  rw [if_neg ordered.running] at taken
  rcases kind with ⟨t, rfl⟩ | ⟨thread, rfl⟩ | ⟨thread, rfl⟩
  · dsimp only at taken
    split at taken
    · cases taken
      exact same
    · cases taken
  · dsimp only at taken
    split at taken
    · cases taken
      exact same
    · cases taken
  · dsimp only at taken
    split at taken
    · split at taken
      · cases taken
        exact same
      · cases taken
    · cases taken

theorem Ordered.step (ordered : log.Ordered) {action : Action} (fits : log.Fits action)
    (taken : log.step action = some next) : next.Ordered := by
  cases action with
  | rotate t => exact ordered.newFile (.inl ⟨t, rfl⟩) taken
  | rename thread => exact ordered.newFile (.inr (.inl ⟨thread, rfl⟩)) taken
  | reopen thread => exact ordered.newFile (.inr (.inr ⟨thread, rfl⟩)) taken
  | compose t level message => exact ordered.compose fits taken
  | testFull => exact ordered.testFull taken
  | pushBack => exact ordered.pushBack taken
  | putDirectly => exact ordered.putDirectly taken
  | pop => exact ordered.pop taken
  | put => exact ordered.put taken

theorem ordered_init (path suffix : Bytes) (t : LocalTime) : (init path suffix t).Ordered where
  inside := rfl
  valid := ⟨Nat.le_refl 0, Nat.zero_le _, by rw [init, List.length_replicate]; decide⟩
  emptied _ := rfl
  composed wrong := by cases wrong
  tested _ := rfl
  queue := rfl
  refuse := rfl

/-- In every run whose lines fit into the buffer, the lines are in order at every moment. -/
theorem lines_in_order (path suffix : Bytes) (t : LocalTime) {actions : List Action}
    (fit : Throughout step (fun log action _ => log.Fits action) (init path suffix t) actions) :
    Throughout step (fun _ _ next => next.InOrder) (init path suffix t) actions := by
  apply throughout_of_condition Ordered _ _ (ordered_init path suffix t) fit
  · intro log action next ordered taken fits
    exact ordered.step fits taken
  · intro log action next ordered taken fits
    exact (ordered.step fits taken).inOrder

/-- Some lines wait in the deque, and none has come out. -/
structure Filled (text : Bytes) (number : Nat) (log : Log) : Prop where
  ordered : log.Ordered
  idle : log.writer = .idle
  size : log.buff.buffer.length = 1024
  waiting : log.deque.length = number
  written : log.written = []
  passed : log.passed = List.replicate number text

private theorem Filled.fits {text : Bytes} {number : Nat} (filled : Filled text number log) (plain : 0 ∉ message)
    (short : message.length ≤ 900) : log.Fits (.compose t level message) := by
  have stamp := t.stamp_length
  have size := filled.size
  exact ⟨plain, by omega, by omega⟩

private theorem Filled.compose {text : Bytes} {number : Nat} (filled : Filled text number log) (plain : 0 ∉ message)
    (short : message.length ≤ 900) :
    ∃ buff, log.step (.compose t level message) =
        some { log with
          buff, lineCount := log.lineCount + 1, passed := log.passed ++ [line t level message], writer := .composed } ∧
      buff.buffer.length = 1024 ∧ Ordered { log with
          buff, lineCount := log.lineCount + 1, passed := log.passed ++ [line t level message], writer := .composed } := by
  have stamp := t.stamp_length
  have size := filled.size
  obtain ⟨buff, composed, same⟩ :=
    @Ordered.compose_taken log t level message filled.ordered filled.idle (by omega) (by omega)
  exact ⟨buff, composed, same.trans size, filled.ordered.step (filled.fits plain short) composed⟩

private theorem Filled.more {number : Nat} (filled : Filled (line t level message) number log) (less : number < capacity)
    (plain : 0 ∉ message) (short : message.length ≤ 900) :
    ∃ next, Run step log [.compose t level message, .testFull, .pushBack] next ∧
      Throughout step (fun log action _ => log.Fits action) log [.compose t level message, .testFull, .pushBack] ∧
      Filled (line t level message) (number + 1) next := by
  obtain ⟨buff, composed, size, ordered⟩ := @Filled.compose log t level message _ _ filled plain short
  have room : ¬ log.deque.length ≥ capacity := by
    rw [filled.waiting]
    exact not_le.mpr less
  obtain ⟨tested, test⟩ : ∃ tested, tested = { log with
      buff := buff.retrieveAllToStr.2, lineCount := log.lineCount + 1, passed := log.passed ++ [line t level message]
      writer := .pushing buff.retrieveAllToStr.1, full := log.full ++ [false] } := ⟨_, rfl⟩
  have testTaken : step { log with
      buff, lineCount := log.lineCount + 1, passed := log.passed ++ [line t level message], writer := .composed }
      .testFull = some tested := by
    rw [step, if_neg ordered.running, test]
    dsimp only
    rw [if_pos rfl, if_neg room]
  have ordered' := ordered.testFull testTaken
  obtain ⟨pushed, push⟩ : ∃ pushed, pushed = { tested with
      deque := log.deque ++ [buff.retrieveAllToStr.1], buff := tested.buff.retrieveAll, writer := .idle } := ⟨_, rfl⟩
  have pushTaken : step tested .pushBack = some pushed := by
    rw [step, if_neg ordered'.running, push, test]
    dsimp only
    rw [if_neg room]
  refine ⟨pushed, .cons composed (.cons testTaken (.cons pushTaken (.nil _))),
    .cons composed (filled.fits plain short) (.cons testTaken trivial (.cons pushTaken trivial (.nil _))), ordered'.pushBack pushTaken, ?_, ?_, ?_,
    ?_, ?_⟩
  all_goals rw [push, test]
  · show (List.replicate (List.replicate buff.buffer.length 0).length (0 : UInt8)).length = 1024
    rw [List.length_replicate, List.length_replicate, size]
  · show (log.deque ++ [buff.retrieveAllToStr.1]).length = number + 1
    rw [List.length_append, filled.waiting]
    rfl
  · exact filled.written
  · show log.passed ++ [line t level message] = _
    rw [filled.passed, List.replicate_succ']

/-- A full deque is passed by. -/
private theorem Filled.overtaken {text : Bytes} (filled : Filled text capacity log) (plain : 0 ∉ message)
    (short : message.length ≤ 900) :
    ∃ final, Run step log [.compose t level message, .testFull, .putDirectly] final ∧
      final.written.map (·.text) = [line t level message] ∧
      final.passed = List.replicate capacity text ++ [line t level message] := by
  obtain ⟨buff, composed, size, ordered⟩ := @Filled.compose log t level message _ _ filled plain short
  have full : log.deque.length ≥ capacity := Nat.le_of_eq filled.waiting.symm
  have shown : cString (buff.buffer.drop buff.readPos) = line t level message := by
    obtain ⟨earlier, last, passed, _, content, plain'⟩ := ordered.composed rfl
    have same : line t level message = last := (List.append_singleton_inj.mp passed).2
    rw [same]
    exact ordered.valid.peeked content plain'
  obtain ⟨tested, test⟩ : ∃ tested, tested = { log with
      buff, lineCount := log.lineCount + 1, passed := log.passed ++ [line t level message], writer := .direct
      full := log.full ++ [true] } := ⟨_, rfl⟩
  have testTaken : step { log with
      buff, lineCount := log.lineCount + 1, passed := log.passed ++ [line t level message], writer := .composed }
      .testFull = some tested := by
    rw [step, if_neg ordered.running, test]
    dsimp only
    rw [if_pos rfl, if_pos full]
  have ordered' := ordered.testFull testTaken
  obtain ⟨final, put⟩ : ∃ final, final = { tested with
      written := log.written ++ [(⟨tested.fp, line t level message, true⟩ : Written)]
      buff := tested.buff.retrieveAll, writer := .idle } := ⟨_, rfl⟩
  have putTaken : step tested .putDirectly = some final := by
    rw [step, if_neg ordered'.running, put, test]
    dsimp only
    rw [if_pos rfl, shown]
  refine ⟨final, .cons composed (.cons testTaken (.cons putTaken (.nil _))), ?_, ?_⟩
  · rw [put, filled.written, List.nil_append, List.map_cons, List.map_nil]
  · rw [put, test, ← filled.passed]

private theorem Filled.overtaking {number : Nat} (rest : Nat) (filled : Filled (line t level message) number log)
    (sum : number + rest = capacity) (plain : 0 ∉ message) (short : message.length ≤ 900) {later : Bytes} (plain' : 0 ∉ later)
    (short' : later.length ≤ 900) :
    ∃ final, Run step log ((List.replicate rest [Action.compose t level message, .testFull, .pushBack]).flatten ++
        [.compose t level later, .testFull, .putDirectly]) final ∧
      final.written.map (·.text) = [line t level later] ∧
      final.passed = List.replicate capacity (line t level message) ++ [line t level later] := by
  induction rest generalizing number log with
  | zero =>
    rw [Nat.add_zero] at sum
    subst sum
    exact filled.overtaken plain' short'
  | succ rest ih =>
    obtain ⟨next, pushed, _, filled'⟩ := filled.more (by omega) plain short
    obtain ⟨final, ran, outcome⟩ := ih filled' (by omega)
    refine ⟨final, ?_, outcome⟩
    rw [List.replicate_succ, List.flatten_cons, List.append_assoc]
    exact pushed.append ran

private theorem filled_init (path suffix text : Bytes) (t : LocalTime) : Filled text 0 (init path suffix t) :=
  ⟨ordered_init path suffix t, rfl, by rw [init, List.length_replicate], rfl, rfl, rfl⟩

/-- One line on its way into the deque. -/
theorem lines_in_order_one :
    Throughout step (fun _ _ next => next.InOrder) (init (ascii "./log") (ascii ".log") ⟨2024, 0, 5, 12, 0, 0, 0⟩)
      [.compose ⟨2024, 0, 5, 12, 0, 0, 0⟩ 1 (ascii "1"), .testFull, .pushBack] := by
  apply lines_in_order
  obtain ⟨_, _, fit, _⟩ := (filled_init (ascii "./log") (ascii ".log") (line ⟨2024, 0, 5, 12, 0, 0, 0⟩ 1 (ascii "1"))
    ⟨2024, 0, 5, 12, 0, 0, 0⟩).more (by decide) (by decide) (by decide)
  exact fit

/-- The line `1` is passed a thousand times, and then the line `2`, which is written first. -/
theorem line_overtakes :
    ¬ ∀ (path suffix : Bytes) (t : LocalTime) (actions : List Action) (final : Log),
      Run step (init path suffix t) actions final → final.written.map (·.text) <+: final.passed := by
  intro always
  let noon : LocalTime := ⟨2024, 0, 5, 12, 0, 0, 0⟩
  have filled : Filled (line noon 1 (ascii "1")) 0 (init (ascii "./log") (ascii ".log") noon) := filled_init _ _ _ _
  have plain' : (0 : UInt8) ∉ ascii "2" := by decide
  obtain ⟨final, ran, written, passed⟩ :=
    filled.overtaking capacity (Nat.zero_add _) (by decide) (by decide) plain' (by decide)
  obtain ⟨rest, same⟩ := always _ _ _ _ _ ran
  rw [written, passed, capacity, List.replicate_succ, List.singleton_append, List.cons_append] at same
  exact absurd (List.cons.inj same).1 (by decide)

end Log

end HttpFramework.Code
