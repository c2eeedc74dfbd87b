import HttpFramework.Proofs.LogSinks
import HttpFramework.Proofs.WorkerDelivery

/-! From the callers of the logger to its files. Where a sink writes there stand the first of the messages
that have been pushed, in their order and each one whole in one file, and once the thread has
ended all that were pushed before the stop. -/

namespace HttpFramework.Mylog
open Rolling RollFileFlush Transition

/-- The messages stand in files of the sink, behind what was in them before, each message in one file. A file
that is followed by another has reached the limit. -/
structure FlushType.Rolled (older outputs : Outputs) (basename : Bytes) (maxSize : Nat) (messages names : List Bytes)
    (groups : List (List Bytes)) : Prop where
  distinct : names.Nodup
  own : ∀ name ∈ names, Rolls basename name
  aligned : names.length = groups.length
  all : groups.flatten = messages
  content : ∀ (index : Nat) (name : Bytes) (group : List Bytes), names[index]? = some name → groups[index]? = some group →
    outputs.disk.content? name = some ((older.disk.content? name).getD [] ++ group.flatten)
  full : ∀ group ∈ groups.dropLast, maxSize ≤ group.flatten.length

/-- The messages stand where a sink of the type writes. -/
def FlushType.Holds (older : Outputs) (messages : List Bytes) (outputs : Outputs) : FlushType → Prop
  | StdoutFlush => outputs.cout = older.cout ++ messages.flatten
  | FileFlush filename => ∃ before, older.disk.content? filename = some before ∧
      outputs.disk.content? filename = some (before ++ messages.flatten)
  | RollFileFlush basename maxSize => ∃ names groups, Rolled older outputs basename maxSize messages names groups

/-- Chunks that are made of whole messages are put into files with the messages whole. -/
theorem LogFlush.Received.holds {flush : LogFlush} {older outputs : Outputs} {blocks : List (List Bytes)}
    (received : flush.Received older (blocks.map List.flatten) outputs) : flush.type.Holds older blocks.flatten outputs := by
  cases flush with
  | stdoutFlush => exact received.trans (by rw [← List.flatten_flatten])
  | fileFlush filename =>
    obtain ⟨before, there, now⟩ := received
    exact ⟨before, there, by rw [now, ← List.flatten_flatten]⟩
  | rollFileFlush roll =>
    obtain ⟨names, follows⟩ := received
    have own : ∀ name ∈ names, Rolls roll.basename name := by
      intro name member
      obtain ⟨index, there⟩ := List.mem_iff_getElem?.mp member
      obtain ⟨t, named⟩ := follows.numbered index name there
      exact ⟨t, index + 1, named⟩
    have parts : chunked roll.maxSize (blocks.map List.flatten) =
        (rolled (fun block => block.flatten.length) roll.maxSize blocks).map (List.map List.flatten) := rolled_map _ _
    have heavy : ∀ part : List (List Bytes), total (fun block => block.flatten.length) part = part.flatten.flatten.length := by
      intro part
      rw [List.flatten_flatten, List.length_flatten, List.map_map]
      rfl
    refine ⟨names, (rolled (fun block => block.flatten.length) roll.maxSize blocks).map List.flatten, ?_⟩
    constructor
    case distinct => exact follows.numbered.distinct
    case own => exact own
    case aligned => rw [follows.aligned, parts, List.length_map, List.length_map]
    case all => rw [← List.flatten_flatten, flatten_rolled]
    case content =>
      intro index name group named there
      rw [List.getElem?_map, Option.map_eq_some_iff] at there
      obtain ⟨part, found, rfl⟩ := there
      have mine := own name (List.mem_of_getElem? named)
      have filled := follows.filled index name (part.map List.flatten) named (by rw [parts, List.getElem?_map, found]; rfl)
      rw [LogFiles.content?_restrict mine, LogFiles.content?_restrict mine, ← List.flatten_flatten] at filled
      exact filled
    case full =>
      intro group member
      rw [← List.map_dropLast] at member
      obtain ⟨part, found, rfl⟩ := List.mem_map.mp member
      rcases Nat.eq_zero_or_pos roll.maxSize with zero | positive
      · rw [zero]
        exact Nat.zero_le _
      · rw [← heavy part]
        exact (cut_rolled positive blocks).full part found

namespace Logger

variable {config : JsonData} {logger next : Logger} {older : Outputs}

/-- What the step is to the producers and the thread. -/
def Action.base : Action → Mylog.Action
  | push data => .push data
  | stop => .stop
  | work _ => .work

def GrowsUpward (config : JsonData) (logger : Logger) (action : Action) : Prop := logger.base.GrowsUpward config action.base

/-- Everything that a step can do. -/
inductive Move (config : JsonData) (logger : Logger) : Action → Logger → Prop where
  | kept {action base} (move : AsyncLogger.Move config logger.base action.base base)
      (quiet : ∀ sink, action.base = .work → logger.base.worker.place = .flushing sink → logger.flushs.length ≤ sink) :
      Move config logger action { logger with base }
  | flushed {t sink flush flush' outputs base} (place : logger.base.worker.place = .flushing sink)
      (there : logger.flushs[sink]? = some flush)
      (flushed : flush.flush t logger.base.worker.bufferConsumer.readable logger.outputs = some (flush', outputs))
      (move : AsyncLogger.Move config logger.base .work base) :
      Move config logger (.work t) { base, flushs := logger.flushs.set sink flush', outputs }

theorem move_of_work {t : Tm} (worked : logger.work = some next)
    (quiet : ∀ sink, logger.base.worker.place = .flushing sink → logger.flushs.length ≤ sink) :
    Move config logger (.work t) next := by
  obtain ⟨base, done, rfl⟩ := Option.map_eq_some_iff.mp worked
  exact .kept (AsyncLogger.move_of_work done) fun sink _ => quiet sink

theorem move_of_step {action : Action} (taken : logger.step config action = some next) : Move config logger action next := by
  cases action with
  | push data =>
    obtain ⟨base, done, rfl⟩ := Option.map_eq_some_iff.mp taken
    have pushed : logger.base.step config (.push data) = some base := done
    exact .kept (AsyncLogger.move_of_step pushed) (fun _ wrong => nomatch wrong)
  | stop =>
    cases taken
    exact .kept .stopped (fun _ wrong => nomatch wrong)
  | work t =>
    rw [step] at taken
    split at taken
    next sink place =>
      split at taken
      next flush there =>
        obtain ⟨⟨flush', outputs⟩, flushed, rest⟩ := Option.bind_eq_some_iff.mp taken
        obtain ⟨base, done, same⟩ := Option.bind_eq_some_iff.mp rest
        cases same
        exact .flushed place there flushed (AsyncLogger.move_of_work done)
      next absent =>
        apply move_of_work taken
        intro other there
        cases place.symm.trans there
        exact List.getElem?_eq_none_iff.mp absent
    next elsewhere => exact move_of_work taken fun sink place => absurd place (elsewhere sink)

/-- What is still to be given to a sink of what the consumer's buffer holds. -/
def left (logger : Logger) (consumer : List Bytes) (i : Nat) : List Bytes :=
  match logger.base.worker.place with
  | .flushing sink => if i < sink then [] else consumer
  | _ => []

/-- Where the messages are: those in the two buffers, and behind every sink those that it has been given in
blocks. -/
structure Delivers (older : Outputs) (types : List FlushType) (consumer productor : List Bytes) (logger : Logger) : Prop where
  steady : logger.base.Steady
  types : logger.flushs.map LogFlush.type = types
  aligned : logger.base.sinks.length = logger.flushs.length
  consumed : logger.base.worker.bufferConsumer.readable = consumer.flatten
  produced : logger.base.worker.bufferProductor.readable = productor.flatten
  idle : (∀ sink, logger.base.worker.place ≠ .flushing sink) → consumer = []
  given : ∀ i flush, logger.flushs[i]? = some flush → ∃ blocks : List (List Bytes),
    flush.Received older (blocks.map List.flatten) logger.outputs ∧
      blocks.flatten ++ logger.left consumer i ++ productor = logger.base.pushed

namespace Delivers

variable {types : List FlushType} {consumer productor : List Bytes}

theorem left_of_elsewhere (elsewhere : ∀ sink, logger.base.worker.place ≠ .flushing sink) (i : Nat) : logger.left consumer i = [] := by
  rw [left]
  split
  next sink place => exact absurd place (elsewhere sink)
  · rfl

theorem left_of_flushing {sink : Nat} (place : logger.base.worker.place = .flushing sink) (i : Nat) :
    logger.left consumer i = if i < sink then [] else consumer := by
  rw [left, place]

theorem pushed (delivers : Delivers older types consumer productor logger) {data : Bytes} {buf : Buffer}
    (enabled : logger.base.worker.mayPush data.length) (written : logger.base.worker.bufferProductor.push config data = .ok buf)
    (upward : logger.base.GrowsUpward config (.push data)) :
    Delivers older types consumer (productor ++ [data]) { logger with base := { logger.base with
      worker := { logger.base.worker with bufferProductor := buf }, pushed := logger.base.pushed ++ [data] } } := by
  have steady := delivers.steady
  have room := (@AsyncLogger.hasRoom_iff config _ steady.productor steady.productorFits _ (steady.enabled enabled)).mpr upward
  have readable : buf.readable = logger.base.worker.bufferProductor.readable ++ data := by
    rcases Buffer.push_spec config steady.productor steady.productorFits data with ⟨_, thrown, _⟩ | ⟨other, written', _, _, _, appended⟩
    · cases thrown.symm.trans written
    · cases written'.symm.trans written
      exact appended room
  refine ⟨(steady.pushed enabled written).1 upward, delivers.types, delivers.aligned, delivers.consumed, ?_, delivers.idle, ?_⟩
  · show buf.readable = (productor ++ [data]).flatten
    rw [readable, delivers.produced, List.flatten_append, List.flatten_singleton]
  · intro i flush there
    obtain ⟨blocks, received, all⟩ := delivers.given i flush there
    refine ⟨blocks, received, ?_⟩
    show blocks.flatten ++ logger.left consumer i ++ (productor ++ [data]) = logger.base.pushed ++ [data]
    rw [← List.append_assoc, all]

theorem swapped (delivers : Delivers older types consumer productor logger)
    (place : logger.base.worker.place = .locking ∨ logger.base.worker.place = .waiting) :
    Delivers older types productor [] { logger with base := { logger.base with worker := logger.base.worker.swapped } } := by
  have elsewhere : ∀ sink, logger.base.worker.place ≠ .flushing sink := by
    rcases place with place | place <;> simp [place]
  have empty := delivers.consumed
  rw [delivers.idle elsewhere] at empty
  refine ⟨delivers.steady.swapped place, delivers.types, delivers.aligned, delivers.produced, empty, fun calm => absurd rfl (calm 0), ?_⟩
  intro i flush there
  obtain ⟨blocks, received, all⟩ := delivers.given i flush there
  rw [left_of_elsewhere elsewhere, List.append_nil] at all
  refine ⟨blocks, received, ?_⟩
  rw [List.append_nil, ← all, left_of_flushing rfl, if_neg (Nat.not_lt_zero i)]

/-- One more sink has been given what the consumer's buffer holds. -/
theorem flushed (delivers : Delivers older types consumer productor logger) (apart : types.Pairwise FlushType.Apart) {t : Tm} {sink : Nat}
    {flush flush' : LogFlush} {outputs : Outputs} (place : logger.base.worker.place = .flushing sink)
    (there : logger.flushs[sink]? = some flush)
    (flushed : flush.flush t logger.base.worker.bufferConsumer.readable logger.outputs = some (flush', outputs)) :
    Delivers older types consumer productor {
      base := { logger.base with
        worker := { logger.base.worker with place := .flushing (sink + 1) }
        sinks := logger.base.sinks.modify sink (· ++ logger.base.worker.bufferConsumer.readable) }
      flushs := logger.flushs.set sink flush'
      outputs } := by
  obtain ⟨blocks, received, all⟩ := delivers.given sink flush there
  rw [delivers.consumed] at flushed
  obtain ⟨type, received'⟩ := received.append flushed
  obtain ⟨inside, own⟩ := List.getElem?_eq_some_iff.mp there
  refine ⟨delivers.steady.flushed place, ?_, ?_, delivers.consumed, delivers.produced, fun calm => absurd rfl (calm _), ?_⟩
  · rw [List.map_set, type, ← delivers.types]
    apply List.ext_getElem?
    intro i
    rw [List.getElem?_set]
    split
    next same =>
      subst same
      rw [if_pos (by rw [List.length_map]; exact inside), List.getElem?_map, there]
      rfl
    · rfl
  · show (logger.base.sinks.modify sink _).length = (logger.flushs.set sink flush').length
    rw [List.length_modify, List.length_set, delivers.aligned]
  · intro i other found
    rw [left_of_flushing rfl]
    rcases eq_or_ne sink i with rfl | different
    · rw [List.getElem?_set_self inside] at found
      cases found
      refine ⟨blocks ++ [consumer], ?_, ?_⟩
      · rw [List.map_append, List.map_singleton]
        exact received'
      · rw [left_of_flushing place, if_neg (Nat.lt_irrefl _)] at all
        rw [if_pos (Nat.lt_succ_self _), List.flatten_append, List.flatten_singleton, List.append_nil]
        exact all
    · rw [List.getElem?_set_ne different] at found
      obtain ⟨given, had, whole⟩ := delivers.given i other found
      have type' : types[sink]? = some flush.type := by rw [← delivers.types, List.getElem?_map, there]; rfl
      have other' : types[i]? = some other.type := by rw [← delivers.types, List.getElem?_map, found]; rfl
      have away : flush.type.Apart other.type := by
        obtain ⟨within, at_sink⟩ := List.getElem?_eq_some_iff.mp type'
        obtain ⟨within', at_i⟩ := List.getElem?_eq_some_iff.mp other'
        rw [← at_sink, ← at_i]
        rcases Nat.lt_or_gt_of_ne different with before | after
        · exact List.pairwise_iff_getElem.mp apart sink i within within' before
        · exact (List.pairwise_iff_getElem.mp apart i sink within' within after).symm
      refine ⟨given, received.other flushed away had, ?_⟩
      rw [left_of_flushing place] at whole
      by_cases before : i < sink
      · rw [if_pos before] at whole
        rw [if_pos (Nat.lt_succ_of_lt before)]
        exact whole
      · rw [if_neg before] at whole
        rw [if_neg (by omega)]
        exact whole

theorem emptied (delivers : Delivers older types consumer productor logger) {sink : Nat}
    (place : logger.base.worker.place = .flushing sink) (last : logger.base.sinks.length ≤ sink) :
    Delivers older types [] productor { logger with base := { logger.base with
      worker := { logger.base.worker with bufferConsumer := logger.base.worker.bufferConsumer.reset, place := .testingStop } } } := by
  have empty : logger.base.worker.bufferConsumer.reset.readable = [] := Buffer.readable_of_isEmpty rfl
  refine ⟨delivers.steady.emptied place last, delivers.types, delivers.aligned, empty, delivers.produced, fun _ => rfl, ?_⟩
  intro i flush there
  obtain ⟨blocks, received, all⟩ := delivers.given i flush there
  have inside : i < sink := by
    have bound : i < logger.flushs.length := (List.getElem?_eq_some_iff.mp there).1
    exact bound.trans_le (delivers.aligned ▸ last)
  rw [left_of_flushing place, if_pos inside] at all
  have elsewhere : ∀ sink, Place.testingStop ≠ .flushing sink := nofun
  exact ⟨blocks, received, by rw [left_of_elsewhere elsewhere, all]⟩

theorem moved (delivers : Delivers older types consumer productor logger) {target : Place}
    (place : logger.base.worker.place = .testingStop ∨ logger.base.worker.place = .testingEmpty)
    (steady : (logger.base.moved target).Steady) (calm : ∀ sink, target ≠ .flushing sink) :
    Delivers older types consumer productor { logger with base := logger.base.moved target } := by
  have elsewhere : ∀ sink, logger.base.worker.place ≠ .flushing sink := by
    rcases place with place | place <;> simp [place]
  refine ⟨steady, delivers.types, delivers.aligned, delivers.consumed, delivers.produced, fun _ => delivers.idle elsewhere, ?_⟩
  intro i flush there
  obtain ⟨blocks, received, all⟩ := delivers.given i flush there
  rw [left_of_elsewhere elsewhere] at all
  exact ⟨blocks, received, by rw [left_of_elsewhere calm]; exact all⟩

theorem setStop (delivers : Delivers older types consumer productor logger) :
    Delivers older types consumer productor { logger with base := logger.base.setStop } :=
  ⟨delivers.steady.setStop, delivers.types, delivers.aligned, delivers.consumed, delivers.produced, delivers.idle, delivers.given⟩

end Delivers

/-- The messages are somewhere on the way. -/
def Delivering (older : Outputs) (types : List FlushType) (logger : Logger) : Prop :=
  ∃ consumer productor, Delivers older types consumer productor logger

theorem Move.delivering {types : List FlushType} {action : Action} (move : Move config logger action next)
    (delivering : logger.Delivering older types) (apart : types.Pairwise FlushType.Apart) (upward : logger.GrowsUpward config action) :
    next.Delivering older types := by
  obtain ⟨consumer, productor, delivers⟩ := delivering
  cases move with
  | flushed place there flushed move =>
    have inside := (List.getElem?_eq_some_iff.mp there).1
    cases move with
    | flushed place' =>
      cases place.symm.trans place'
      exact ⟨_, _, delivers.flushed apart place there flushed⟩
    | emptied place' last =>
      cases place.symm.trans place'
      have aligned := delivers.aligned
      omega
    | swapped place' => rcases place' with place' | place' <;> cases place.symm.trans place'
    | stays place' => rcases place' with place' | place' <;> cases place.symm.trans place'
    | ending place' => cases place.symm.trans place'
    | exits place' => cases place.symm.trans place'
  | @kept _ base move quiet =>
    change logger.base.GrowsUpward config action.base at upward
    have steady : base.Steady := move.steady delivers.steady upward
    generalize action.base = taken at move quiet upward
    cases move with
    | pushed enabled written => exact ⟨_, _, delivers.pushed enabled written upward⟩
    | refused => exact ⟨_, _, delivers⟩
    | stopped => exact ⟨_, _, delivers.setStop⟩
    | swapped place => exact ⟨_, _, delivers.swapped place⟩
    | flushed place inside =>
      have outside := quiet _ rfl place
      have aligned := delivers.aligned
      omega
    | emptied place last => exact ⟨_, _, delivers.emptied place last⟩
    | stays place => exact ⟨_, _, delivers.moved place steady nofun⟩
    | ending place => exact ⟨_, _, delivers.moved (.inl place) steady nofun⟩
    | exits place => exact ⟨_, _, delivers.moved (.inr place) steady nofun⟩

/-- Where each sink writes there are the first of the messages, and in the end all that were pushed before
the stop. -/
def Logged (older : Outputs) (types : List FlushType) (logger : Logger) : Prop :=
  ∀ (i : Nat) (type : FlushType), types[i]? = some type → ∃ messages, messages <+: logger.base.pushed ∧
    type.Holds older messages logger.outputs ∧ (logger.base.worker.place = .exited →
      ∃ early, logger.base.beforeStop = some early ∧ early.flatten <+: messages.flatten)

theorem Delivering.logged {types : List FlushType} (delivering : logger.Delivering older types) : logger.Logged older types := by
  obtain ⟨consumer, productor, delivers⟩ := delivering
  intro i type known
  rw [← delivers.types, List.getElem?_map, Option.map_eq_some_iff] at known
  obtain ⟨flush, there, rfl⟩ := known
  obtain ⟨blocks, received, all⟩ := delivers.given i flush there
  refine ⟨blocks.flatten, ⟨_, (List.append_assoc _ _ _).symm.trans all⟩, received.holds, ?_⟩
  intro exited
  obtain ⟨early, before, each⟩ := delivers.steady.delivered exited
  have elsewhere : ∀ sink, logger.base.worker.place ≠ .flushing sink := by simp [exited]
  have inside : i < logger.base.sinks.length := by
    rw [delivers.aligned]
    exact (List.getElem?_eq_some_iff.mp there).1
  have conserved := delivers.steady.conserved i _ (List.getElem?_eq_getElem inside)
  rw [Delivers.left_of_elsewhere elsewhere, List.append_nil] at all
  have idle : logger.base.worker.bufferConsumer.readable = [] := by
    rw [delivers.consumed, delivers.idle elsewhere]
    rfl
  rw [AsyncLogger.unflushed_of_idle idle, List.append_nil, delivers.produced, ← all, List.flatten_append] at conserved
  refine ⟨early, before, ?_⟩
  rw [← List.append_cancel_right conserved]
  exact each _ (List.getElem_mem inside)

theorem delivering_of_build {types : List FlushType} {builder : LoggerBuilder} {name : Bytes} {before : LogFiles}
    {outputs : Outputs} {fresh : Buffer}
    (told : Run LoggerBuilder.step ({ loggerName := name }, before) types (builder, outputs.disk))
    (made : Buffer.new config = .ok fresh) (built : builder.build fresh outputs = some logger) :
    logger.Delivering outputs (if types = [] then [.StdoutFlush] else types) := by
  obtain ⟨all, each, kind⟩ := LoggerBuilder.run_flushs told (by
    intro flush member
    cases member)
  rw [LoggerBuilder.build] at built
  split at built
  · cases built
  · cases built
    have empty : fresh.readable = [] := by
      obtain ⟨_, rfl⟩ := Buffer.new_ok made
      exact Buffer.readable_of_isEmpty rfl
    have kinds : (if builder.flushs = [] then [LogFlush.stdoutFlush] else builder.flushs).map LogFlush.type =
        if types = [] then [.StdoutFlush] else types := by
      have all : builder.flushs.map LogFlush.type = types := all
      by_cases none : builder.flushs = []
      · have nothing : types = [] := by rw [← all, none, List.map_nil]
        rw [if_pos none, if_pos nothing]
        rfl
      · rw [if_neg none, all, if_neg]
        rintro rfl
        exact none (List.map_eq_nil_iff.mp all)
    have started : ∀ flush ∈ (if builder.flushs = [] then [LogFlush.stdoutFlush] else builder.flushs), flush.Started outputs.disk := by
      intro flush member
      split at member
      · rw [List.mem_singleton.mp member]
        trivial
      · exact each flush member
    have steady := AsyncLogger.Steady.started made
      (if builder.flushs = [] then [LogFlush.stdoutFlush] else builder.flushs).length
    refine ⟨[], [], ?_, kinds, List.length_replicate, empty, empty, fun _ => rfl, ?_⟩
    · rw [show builder.asyncType = .ASYNC_SAFE from kind]
      exact steady
    · intro i flush there
      exact ⟨[], (started flush (List.mem_of_getElem? there)).received, rfl⟩

def twoSinks : List FlushType := [.FileFlush (ascii "all.log"), .RollFileFlush (ascii "roll") 2]

/-- A logger with the two sinks as it is built. -/
def twoSinksLogger : Logger where
  base := .started .ASYNC_SAFE ⟨List.replicate 8 0, 0, 0⟩ 2
  flushs := [.fileFlush (ascii "all.log"), .rollFileFlush { maxSize := 2, basename := ascii "roll" }]
  outputs := { disk := { files := [(ascii "all.log", [])] } }

def noon : Tm :=
  ⟨⟨2024, by decide⟩, ⟨0, by decide⟩, ⟨11, by decide⟩, ⟨12, by decide⟩, ⟨0, by decide⟩, ⟨0, by decide⟩⟩

end Logger

end HttpFramework.Mylog
