import HttpFramework.Mylog.Backup
import HttpFramework.Proofs.RequestFormat

/-! What arrives at the backup server. The server reads once and takes what it has read for a C
string, so it needs the whole message at once, shorter than its array, and without a NUL. -/

namespace HttpFramework.Mylog

private theorem zero_not_mem_twoDigits {n : Nat} (small : n < 100) : 0 ∉ twoDigits n := by
  have digit (d : Fin 10) : chr (Nat.digitChar d) ≠ 0 := by
    revert d
    decide
  have tens := digit ⟨n / 10, by omega⟩
  have ones := digit ⟨n % 10, by omega⟩
  simpa [twoDigits] using ⟨tens.symm, ones.symm⟩

private theorem zero_not_mem_time (time : TimeOfDay) : 0 ∉ time.format := by
  have hour : 0 ∉ twoDigits time.hour := zero_not_mem_twoDigits (by omega)
  have minute : 0 ∉ twoDigits time.minute := zero_not_mem_twoDigits (by omega)
  have second : 0 ∉ twoDigits time.second := zero_not_mem_twoDigits (by omega)
  have colon : (0 : UInt8) ∉ ascii ":" := by decide
  simp only [TimeOfDay.format, List.mem_append, hour, minute, second, colon, or_self, not_false_eq_true]

/-- A NUL of a message is one of the name of the logger or of the file. -/
theorem zero_mem_format (call : LogCall) : 0 ∈ call.message.format ↔ 0 ∈ call.loggerName ∨ 0 ∈ call.file := by
  have level : 0 ∉ call.level.toText := by
    cases call.level <;> decide
  have payload := zero_not_mem_cString call.ret
  have line := Http.zero_not_mem_decimal call.line
  have thread := Http.zero_not_mem_decimal call.thread
  have time := zero_not_mem_time call.now
  have punctuation : (0 : UInt8) ∉ ascii "[" ∧ (0 : UInt8) ∉ ascii "][" ∧ (0 : UInt8) ∉ ascii ":" ∧
      (0 : UInt8) ∉ ascii "]\t" ∧ (0 : UInt8) ∉ ascii "\n" := by decide
  simp only [LogMessage.format, LogCall.message, List.mem_append, level, payload, line, thread, time, punctuation,
    or_false, false_or]

private theorem format_ne_nil (call : LogCall) : call.message.format ≠ [] := by
  simp [LogMessage.format, ascii]

namespace TcpServer

/-- The byte behind what was read ends the string. -/
private theorem copyTo_set {buf : Buf} {received : Bytes} (inside : received.length < 1024) :
    cString ((copyTo buf.1 0 received).set received.length 0) = cString received := by
  have room : received.length < buf.1.length := by
    rw [buf.2]
    exact inside
  have copied : copyTo buf.1 0 received = received ++ buf.1.drop received.length := by
    rw [copyTo, List.take_zero, List.nil_append, Nat.zero_add]
    apply List.take_of_length_le
    rw [List.length_append, List.length_drop]
    omega
  rw [copied, List.drop_eq_getElem_cons room, List.set_append_right _ _ (Nat.le_refl _), Nat.sub_self, List.set_cons_zero]
  exact cString_append_zero _ _

theorem service_called_iff {buf : Buf} {clientInfo received message : Bytes} :
    service buf clientInfo (some received) = .called (clientInfo ++ message) ↔
      0 < received.length ∧ received.length < 1024 ∧ cString received = message := by
  simp only [service]
  split
  next nonempty =>
    split
    next inside =>
      rw [copyTo_set inside, Service.called.injEq, List.append_cancel_left_eq]
      exact ⟨fun same => ⟨nonempty, inside, same⟩, fun holds => holds.2.2⟩
    next outside =>
      constructor
      · intro called
        cases called
      · intro holds
        exact absurd holds.2.1 outside
  next empty =>
    constructor
    · intro called
      cases called
    · intro holds
      exact absurd holds.1 empty

/-- A segment that has not come is missing, since none is empty. -/
theorem arrived_iff {message : Bytes} (transfer : Transfer message) :
    (transfer.segments.take transfer.arrived).flatten = message ↔ transfer.segments.length ≤ transfer.arrived := by
  constructor
  · intro all
    by_contra missing
    have parts : (transfer.segments.take transfer.arrived).flatten ++ (transfer.segments.drop transfer.arrived).flatten =
        message := by
      rw [← List.flatten_append, List.take_append_drop, transfer.joined]
    rw [all] at parts
    have rest := List.append_right_eq_self.mp parts
    have late : transfer.segments[transfer.arrived] ∈ transfer.segments.drop transfer.arrived :=
      List.mem_drop_iff_getElem.mpr ⟨0, by omega, by simp⟩
    exact transfer.nonempty _ (List.mem_of_mem_drop late) (List.flatten_eq_nil_iff.mp rest _ late)
  · intro all
    rw [List.take_of_length_le all, transfer.joined]

theorem read_eq {message : Bytes} (transfer : Transfer message) (all : transfer.segments.length ≤ transfer.arrived)
    (short : message.length < 1024) : read transfer = message := by
  rw [read, (arrived_iff transfer).mpr all]
  exact List.take_of_length_le (by omega)

/-- Everything that shortens a message on its way leaves a prefix of it. -/
theorem cString_read_iff {message : Bytes} (transfer : Transfer message) :
    (read transfer).length < 1024 ∧ cString (read transfer) = message ↔
      transfer.segments.length ≤ transfer.arrived ∧ message.length < 1024 ∧ 0 ∉ message := by
  constructor
  · intro ⟨inside, whole⟩
    have arrivedPrefix : (transfer.segments.take transfer.arrived).flatten <+: message := by
      refine ⟨(transfer.segments.drop transfer.arrived).flatten, ?_⟩
      rw [← List.flatten_append, List.take_append_drop, transfer.joined]
    have readPrefix : read transfer <+: (transfer.segments.take transfer.arrived).flatten := List.take_prefix _ _
    have textPrefix : cString (read transfer) <+: read transfer := List.takeWhile_prefix _
    rw [whole] at textPrefix
    have same : read transfer = message :=
      List.IsPrefix.eq_of_length_le (readPrefix.trans arrivedPrefix) textPrefix.length_le
    have all : (transfer.segments.take transfer.arrived).flatten = message :=
      List.IsPrefix.eq_of_length_le arrivedPrefix (textPrefix.trans readPrefix).length_le
    refine ⟨(arrived_iff transfer).mp all, ?_, ?_⟩
    · rwa [same] at inside
    · rw [← whole]
      exact zero_not_mem_cString _
  · intro ⟨all, short, plain⟩
    rw [read_eq transfer all short]
    exact ⟨short, cString_of_absent plain⟩

end TcpServer

open TcpServer in
/-- The callback gets the whole message exactly when it has come whole before the only `read`, leaves
room for the final NUL, and has no NUL of its own. -/
theorem backup_delivered_iff (call : LogCall) {data : Bytes} (queued : call.serialize.1 = some data) (transfer : Transfer data)
    (buf : Buf) (clientIp : Bytes) (clientPort : UInt16) :
    service buf (clientInfo clientIp clientPort) (some (read transfer)) = .called (clientInfo clientIp clientPort ++ data) ↔
      transfer.segments.length ≤ transfer.arrived ∧ data.length < 1024 ∧ 0 ∉ call.loggerName ∧ 0 ∉ call.file := by
  have formatted : call.message.format = data := by
    simp only [LogCall.serialize] at queued
    split at queued <;> cases queued
    rfl
  have plain : 0 ∉ data ↔ 0 ∉ call.loggerName ∧ 0 ∉ call.file := by
    rw [← formatted, zero_mem_format, not_or]
  rw [service_called_iff, cString_read_iff, plain]
  constructor
  · intro holds
    exact holds.2
  · intro holds
    refine ⟨?_, holds⟩
    rw [read_eq transfer holds.1 holds.2.1, ← formatted]
    exact List.length_pos_iff.mpr (format_ne_nil call)

/-- An error that is logged at noon. -/
def diskFull : LogCall where
  level := .ERROR
  file := ascii "a.cpp"
  line := 7
  ret := ascii "disk full"
  loggerName := ascii "main"
  now := ⟨12, 0, 0⟩
  thread := 1

def TcpServer.zeroed : Buf := ⟨List.replicate 1024 0, List.length_replicate⟩

open TcpServer in
theorem backup_delivered_diskFull :
    ∃ transfer : Transfer diskFull.message.format,
      service zeroed (clientInfo (ascii "10.0.0.1") 5000) (some (read transfer)) =
        .called (clientInfo (ascii "10.0.0.1") 5000 ++ diskFull.message.format) := by
  let whole : Transfer diskFull.message.format :=
    ⟨[diskFull.message.format], 1, List.flatten_singleton, by simpa using format_ne_nil diskFull, by decide⟩
  refine ⟨whole, ?_⟩
  apply (backup_delivered_iff diskFull rfl whole _ _ _).mpr
  exact ⟨Nat.le_refl 1, by decide, by decide, by decide⟩

open TcpServer in
/-- The first byte comes in a segment of its own, and the server has read before the rest is there. -/
theorem backup_split :
    ¬ ∀ (call : LogCall) (data : Bytes), call.serialize.1 = some data → ∀ (transfer : Transfer data) (buf : Buf)
      (clientIp : Bytes) (clientPort : UInt16), service buf (clientInfo clientIp clientPort) (some (read transfer)) =
        .called (clientInfo clientIp clientPort ++ data) := by
  intro delivers
  have joined : [diskFull.message.format.take 1, diskFull.message.format.drop 1].flatten = diskFull.message.format := by
    simp only [List.flatten_cons, List.flatten_nil, List.append_nil, List.take_append_drop]
  let split : Transfer diskFull.message.format := ⟨_, 1, joined, by decide, by decide⟩
  have received := service_called_iff.mp (delivers diskFull _ rfl split zeroed (ascii "10.0.0.1") 5000)
  have all : 2 ≤ 1 := ((cString_read_iff split).mp received.2).1
  omega

end HttpFramework.Mylog
