import HttpFramework.Mylog.Sinks
import HttpFramework.Proofs.LogFiles

/-! The sinks of a logger on one disk. What a sink finds of its own files, no other sink has touched, as
long as no two of them write files of one name. -/

namespace HttpFramework.Mylog

namespace LogFiles

variable {disk next : LogFiles} {name data : Bytes} {own : Bytes → Prop}

theorem eq_of_files (same : disk.files = next.files) : disk = next := by
  cases disk
  cases next
  cases same
  rfl

open Classical in
/-- The files whose names are of a kind. -/
noncomputable def restrict (own : Bytes → Prop) (disk : LogFiles) : LogFiles where
  files := disk.files.filter fun file => own file.1
  distinct := disk.distinct.sublist (List.filter_sublist.map _)
  few := lt_of_le_of_lt (Nat.succ_le_succ (List.length_filter_le _ _)) disk.few

theorem lookup_filter (files : List (Bytes × Bytes)) {keep : Bytes → Bool} (mine : keep name = true) :
    (files.filter fun file => keep file.1).lookup name = files.lookup name := by
  induction files with
  | nil => rfl
  | cons file files ih =>
    by_cases kept : keep file.1 = true
    · rw [List.filter_cons, if_pos kept, List.lookup_cons, List.lookup_cons, ih]
    · have different : (name == file.1) = false := by
        apply beq_eq_false_iff_ne.mpr
        rintro rfl
        exact kept mine
      rw [List.filter_cons, if_neg kept, List.lookup_cons, ih, different]

open Classical in
theorem content?_restrict (mine : own name) : (disk.restrict own).content? name = disk.content? name :=
  @lookup_filter name disk.files (fun name => decide (own name)) (decide_eq_true mine)

/-- A file of the kind is opened as if there were no others. -/
theorem fopen_restrict (mine : own name) (opened : disk.fopen name = some next) :
    (disk.restrict own).fopen name = some (next.restrict own) := by
  rw [fopen] at opened ⊢
  split at opened
  next absent =>
    split at opened
    next room =>
      cases opened
      have fewer : (disk.restrict own).files.length ≤ disk.files.length := List.length_filter_le _ _
      rw [dif_pos ((content?_restrict mine).trans absent), dif_pos (by omega)]
      congr 1
      apply eq_of_files
      simp [restrict, mine]
    · cases opened
  next present =>
    cases opened
    rw [dif_neg (by rwa [content?_restrict mine])]

theorem fopen_restrict_other (other : ¬ own name) (opened : disk.fopen name = some next) :
    next.restrict own = disk.restrict own := by
  rcases fopen_cases opened with ⟨_, longer⟩ | ⟨_, rfl⟩
  · apply eq_of_files
    simp [restrict, longer, other]
  · rfl

open Classical in
theorem fwrite_restrict (mine : own name) (written : disk.fwrite name data = some next) :
    (disk.restrict own).fwrite name data = some (next.restrict own) := by
  obtain ⟨content, there, room, files⟩ := fwrite_files written
  rw [fwrite, content?_restrict mine, there]
  simp only [bind, Option.bind, if_pos room]
  congr 1
  apply eq_of_files
  rw [restrict, restrict]
  simp only [files, List.filter_map]
  congr 1
  apply List.filter_congr
  intro file _
  have same : (if file.1 = name then (file.1, file.2 ++ data) else file).1 = file.1 := by split <;> rfl
  show decide (own file.1) = decide (own (if file.1 = name then (file.1, file.2 ++ data) else file).1)
  rw [same]

theorem filter_written (files : List (Bytes × Bytes)) {keep : Bytes → Bool} (other : keep name = false) :
    (files.map fun file => if file.1 = name then (file.1, file.2 ++ data) else file).filter (fun file => keep file.1) =
      files.filter fun file => keep file.1 := by
  induction files with
  | nil => rfl
  | cons file files ih =>
    rw [List.map_cons]
    by_cases same : file.1 = name
    · rw [if_pos same, List.filter_cons_of_neg (by simp [same, other]), List.filter_cons_of_neg (by simp [same, other]), ih]
    · rw [if_neg same, List.filter_cons, List.filter_cons, ih]

open Classical in
theorem fwrite_restrict_other (other : ¬ own name) (written : disk.fwrite name data = some next) :
    next.restrict own = disk.restrict own := by
  obtain ⟨_, _, _, files⟩ := fwrite_files written
  apply eq_of_files
  simp only [restrict, files]
  exact @filter_written name data disk.files (fun name => decide (own name)) (decide_eq_false other)

end LogFiles

namespace RollFileFlush

/-- The names that the files of a sink can have. -/
def Rolls (basename name : Bytes) : Prop := ∃ t cnt, name = fileName basename t cnt

variable {roll roll' : RollFileFlush} {disk disk' : LogFiles} {own : Bytes → Prop} {t : Tm} {data : Bytes}

/-- The file that is open is one of the sink's own. -/
def Opened (roll : RollFileFlush) : Prop := ∀ name, roll.fs = some name → Rolls roll.basename name

theorem Opened.initLogFile (open' : roll.Opened) (done : roll.initLogFile t disk = some (roll', disk')) :
    roll'.Opened ∧ roll'.basename = roll.basename ∧ roll'.maxSize = roll.maxSize := by
  rw [RollFileFlush.initLogFile] at done
  split at done
  · obtain ⟨opened, _, same⟩ := Option.bind_eq_some_iff.mp done
    cases same
    refine ⟨?_, rfl, rfl⟩
    intro name current
    cases current
    exact ⟨t, roll.cnt, rfl⟩
  · cases done
    exact ⟨open', rfl, rfl⟩

theorem initLogFile_restrict (mine : ∀ name, Rolls roll.basename name → own name)
    (done : roll.initLogFile t disk = some (roll', disk')) :
    roll.initLogFile t (disk.restrict own) = some (roll', disk'.restrict own) := by
  rw [initLogFile] at done ⊢
  split at done
  next due =>
    obtain ⟨opened, made, same⟩ := Option.bind_eq_some_iff.mp done
    cases same
    have alone := LogFiles.fopen_restrict (mine _ ⟨t, roll.cnt, rfl⟩) made
    rw [if_pos due]
    simp only [createFilename, bind, Option.bind, alone]
    rfl
  next stays =>
    cases done
    rw [if_neg stays]

theorem initLogFile_other (others : ∀ name, Rolls roll.basename name → ¬ own name)
    (done : roll.initLogFile t disk = some (roll', disk')) : disk'.restrict own = disk.restrict own := by
  rw [initLogFile] at done
  split at done
  · obtain ⟨opened, made, same⟩ := Option.bind_eq_some_iff.mp done
    cases same
    exact LogFiles.fopen_restrict_other (others _ ⟨t, roll.cnt, rfl⟩) made
  · cases done
    rfl

theorem flush_cases (flushed : roll.flush t data disk = some (roll', disk')) :
    ∃ ready opened name, roll.initLogFile t disk = some (ready, opened) ∧ ready.fs = some name ∧
      opened.fwrite name data = some disk' ∧ roll' = { ready with curSize := (ready.curSize + data.length) % 2 ^ 64 } := by
  obtain ⟨⟨ready, opened⟩, done, rest⟩ := Option.bind_eq_some_iff.mp flushed
  obtain ⟨name, current, rest⟩ := Option.bind_eq_some_iff.mp rest
  obtain ⟨written, wrote, same⟩ := Option.bind_eq_some_iff.mp rest
  cases same
  exact ⟨ready, opened, name, done, current, wrote, rfl⟩

/-- The sink goes on as if there were no files but its own. -/
theorem Opened.flush_restrict (open' : roll.Opened) (mine : ∀ name, Rolls roll.basename name → own name)
    (flushed : roll.flush t data disk = some (roll', disk')) :
    roll.flush t data (disk.restrict own) = some (roll', disk'.restrict own) := by
  obtain ⟨ready, opened, name, done, current, wrote, rfl⟩ := flush_cases flushed
  obtain ⟨open'', base, _⟩ := open'.initLogFile done
  have alone := LogFiles.fwrite_restrict (mine name (base ▸ open'' name current)) wrote
  rw [flush, initLogFile_restrict mine done]
  simp only [bind, Option.bind, current, alone]
  rfl

/-- The files of others stay as they are. -/
theorem Opened.flush_other (open' : roll.Opened) (others : ∀ name, Rolls roll.basename name → ¬ own name)
    (flushed : roll.flush t data disk = some (roll', disk')) : disk'.restrict own = disk.restrict own := by
  obtain ⟨ready, opened, name, done, current, wrote, rfl⟩ := flush_cases flushed
  obtain ⟨open'', base, _⟩ := open'.initLogFile done
  rw [LogFiles.fwrite_restrict_other (others name (base ▸ open'' name current)) wrote, initLogFile_other others done]

end RollFileFlush

open RollFileFlush

/-- A sink of the type writes files of such names. -/
def FlushType.Owns (name : Bytes) : FlushType → Prop
  | StdoutFlush => False
  | FileFlush filename => name = filename
  | RollFileFlush filename _ => Rolls filename name

/-- Sinks of the types do not write to the same place. -/
def FlushType.Apart (type other : FlushType) : Prop :=
  (∀ name, type.Owns name → ¬ other.Owns name) ∧ (type = StdoutFlush → other ≠ StdoutFlush)

theorem FlushType.Apart.symm {type other : FlushType} (apart : Apart type other) : Apart other type :=
  ⟨fun name owns owns' => apart.1 name owns' owns, fun first second => apart.2 second first⟩

namespace LogFlush

variable {flush next : LogFlush} {older outputs outputs' : Outputs} {t : Tm} {data : Bytes} {chunks : List Bytes}

def type : LogFlush → FlushType
  | stdoutFlush => .StdoutFlush
  | fileFlush filename => .FileFlush filename
  | rollFileFlush roll => .RollFileFlush roll.basename roll.maxSize

/-- What the sink has been given stands where it writes. -/
def Received (older : Outputs) (chunks : List Bytes) (outputs : Outputs) : LogFlush → Prop
  | stdoutFlush => outputs.cout = older.cout ++ chunks.flatten
  | fileFlush filename => ∃ before, older.disk.content? filename = some before ∧
      outputs.disk.content? filename = some (before ++ chunks.flatten)
  | rollFileFlush roll => ∃ names, Follows (older.disk.restrict (Rolls roll.basename)) roll.basename roll.maxSize chunks names
      (roll, outputs.disk.restrict (Rolls roll.basename))

theorem opened_of_follows {disk disk' : LogFiles} {names : List Bytes} {roll : RollFileFlush}
    (follows : Follows disk roll.basename roll.maxSize chunks names (roll, disk')) : roll.Opened := by
  intro name current
  have last : names.getLast? = some name := follows.current.symm.trans current
  obtain ⟨index, there⟩ := List.mem_iff_getElem?.mp (List.mem_of_getLast? last)
  obtain ⟨t, named⟩ := follows.numbered index name there
  exact ⟨t, index + 1, named⟩

/-- What is not the sink's stays as it is. -/
theorem Received.frame (received : flush.Received older chunks outputs)
    (flushed : flush.flush t data outputs = some (next, outputs')) {own : Bytes → Prop}
    (others : ∀ name, flush.type.Owns name → ¬ own name) :
    outputs'.disk.restrict own = outputs.disk.restrict own ∧ (flush ≠ .stdoutFlush → outputs'.cout = outputs.cout) := by
  cases flush with
  | stdoutFlush =>
    cases flushed
    exact ⟨rfl, fun wrong => absurd rfl wrong⟩
  | fileFlush filename =>
    obtain ⟨disk, written, same⟩ := Option.bind_eq_some_iff.mp flushed
    cases same
    exact ⟨LogFiles.fwrite_restrict_other (others filename rfl) written, fun _ => rfl⟩
  | rollFileFlush roll =>
    obtain ⟨⟨roll', disk⟩, done, same⟩ := Option.bind_eq_some_iff.mp flushed
    cases same
    obtain ⟨names, follows⟩ := received
    exact ⟨(opened_of_follows follows).flush_other others done, fun _ => rfl⟩

theorem Received.append (received : flush.Received older chunks outputs)
    (flushed : flush.flush t data outputs = some (next, outputs')) :
    next.type = flush.type ∧ next.Received older (chunks ++ [data]) outputs' := by
  cases flush with
  | stdoutFlush =>
    cases flushed
    refine ⟨rfl, ?_⟩
    rw [Received] at received ⊢
    rw [received, List.flatten_append, List.flatten_singleton, List.append_assoc]
  | fileFlush filename =>
    obtain ⟨disk, written, same⟩ := Option.bind_eq_some_iff.mp flushed
    cases same
    obtain ⟨before, there, now⟩ := received
    obtain ⟨content, found, _, after, _⟩ := LogFiles.content?_fwrite written
    obtain rfl := Option.some.inj (found.symm.trans now)
    exact ⟨rfl, before, there, by rw [after, List.flatten_append, List.flatten_singleton, List.append_assoc]⟩
  | rollFileFlush roll =>
    obtain ⟨⟨roll', disk⟩, done, same⟩ := Option.bind_eq_some_iff.mp flushed
    cases same
    obtain ⟨names, follows⟩ := received
    have alone := (opened_of_follows follows).flush_restrict (fun _ => id) done
    obtain ⟨names', follows'⟩ := @Follows.flush _ _ _ _ _ _ _ (t, data) follows alone
    have base : roll'.basename = roll.basename := follows'.base
    have bound : roll'.maxSize = roll.maxSize := follows'.bound
    refine ⟨by rw [type, type, base, bound], names', ?_⟩
    rw [base, bound]
    exact follows'

/-- The flush of another sink does not matter. -/
theorem Received.other {given : List Bytes} {other : LogFlush} (received : flush.Received older chunks outputs)
    (flushed : flush.flush t data outputs = some (next, outputs')) (apart : flush.type.Apart other.type)
    (had : other.Received older given outputs) : other.Received older given outputs' := by
  obtain ⟨disk, cout⟩ := @Received.frame _ _ _ _ _ _ _ _ received flushed (fun name => other.type.Owns name) apart.1
  cases other with
  | stdoutFlush =>
    have same : outputs'.cout = outputs.cout := by
      apply cout
      rintro rfl
      exact apart.2 rfl rfl
    rw [Received] at had ⊢
    rw [same, had]
  | fileFlush filename =>
    obtain ⟨before, there, now⟩ := had
    have mine : (fileFlush filename).type.Owns filename := rfl
    have same := @LogFiles.content?_restrict outputs'.disk _ (fun name => (fileFlush filename).type.Owns name) mine
    refine ⟨before, there, ?_⟩
    rw [← now, ← same, disk]
    exact @LogFiles.content?_restrict outputs.disk _ (fun name => (fileFlush filename).type.Owns name) mine
  | rollFileFlush roll =>
    obtain ⟨names, follows⟩ := had
    have same : outputs'.disk.restrict (Rolls roll.basename) = outputs.disk.restrict (Rolls roll.basename) := disk
    exact ⟨names, by rw [same]; exact follows⟩

/-- The sink has been constructed and not yet been called. -/
def Started (disk : LogFiles) : LogFlush → Prop
  | stdoutFlush => True
  | fileFlush filename => (disk.content? filename).isSome
  | rollFileFlush roll => roll = { maxSize := roll.maxSize, basename := roll.basename }

theorem Started.received (started : flush.Started outputs.disk) : flush.Received outputs [] outputs := by
  cases flush with
  | stdoutFlush => exact (List.append_nil _).symm
  | fileFlush filename =>
    obtain ⟨before, there⟩ := Option.isSome_iff_exists.mp started
    exact ⟨before, there, by rw [there, List.flatten_nil, List.append_nil]⟩
  | rollFileFlush roll =>
    have fresh : roll = { maxSize := roll.maxSize, basename := roll.basename } := started
    refine ⟨[], ?_⟩
    rw [fresh]
    exact follows_start _ _ _

/-- Another sink is constructed. -/
theorem Started.createLog {disk disk' : LogFiles} {type : FlushType} (started : flush.Started disk)
    (created : type.createLog disk = some (next, disk')) : flush.Started disk' := by
  cases type with
  | StdoutFlush =>
    cases created
    exact started
  | RollFileFlush filename maxSize =>
    cases created
    exact started
  | FileFlush filename =>
    obtain ⟨opened, done, same⟩ := Option.map_eq_some_iff.mp created
    cases same
    obtain ⟨own, others⟩ := LogFiles.content?_fopen done
    cases flush with
    | stdoutFlush => exact started
    | rollFileFlush roll => exact started
    | fileFlush other =>
      rw [Started] at started ⊢
      by_cases same : other = filename
      · rw [same, own]
        rfl
      · rw [others other same]
        exact started

theorem started_of_createLog {disk disk' : LogFiles} {type : FlushType} (created : type.createLog disk = some (next, disk')) :
    next.Started disk' ∧ next.type = type := by
  cases type with
  | StdoutFlush =>
    cases created
    exact ⟨trivial, rfl⟩
  | RollFileFlush filename maxSize =>
    cases created
    exact ⟨rfl, rfl⟩
  | FileFlush filename =>
    obtain ⟨opened, done, same⟩ := Option.map_eq_some_iff.mp created
    cases same
    refine ⟨?_, rfl⟩
    rw [Started, (LogFiles.content?_fopen done).1]
    rfl

end LogFlush

namespace LoggerBuilder
open Transition

/-- The sinks are those that the builder has been told of. -/
theorem run_flushs {types : List FlushType} {state next : LoggerBuilder × LogFiles} (ran : Run step state types next)
    (started : ∀ flush ∈ state.1.flushs, flush.Started state.2) :
    next.1.flushs.map LogFlush.type = state.1.flushs.map LogFlush.type ++ types ∧
      (∀ flush ∈ next.1.flushs, flush.Started next.2) ∧ next.1.asyncType = state.1.asyncType := by
  induction ran with
  | nil => exact ⟨(List.append_nil _).symm, started, rfl⟩
  | cons taken rest ih =>
    obtain ⟨⟨flush, disk⟩, created, same⟩ := Option.bind_eq_some_iff.mp taken
    cases same
    obtain ⟨own, type⟩ := LogFlush.started_of_createLog created
    obtain ⟨all, each, kind⟩ := ih fun other member => by
      rcases List.mem_append.mp member with earlier | latest
      · exact (started other earlier).createLog created
      · rw [List.mem_singleton.mp latest]
        exact own
    refine ⟨?_, each, kind⟩
    rw [all, List.map_append, List.map_singleton, type, List.append_assoc]
    rfl

end LoggerBuilder

end HttpFramework.Mylog
