import HttpFramework.Mylog.Worker
import HttpFramework.Proofs.BufferBounds

/-! Delivery of log messages. At every moment what a sink has received, what the
consumer's buffer still holds for it and what the producers' buffer holds are together
the messages in the order in which they were written. A producer that waits for space
can break this only by filling the buffer exactly, which makes the buffer grow. -/

namespace HttpFramework.Mylog
open Transition

namespace AsyncLogger

variable {config : JsonData} {logger next : AsyncLogger}

/-- Everything that a step can do. The wait of the thread never blocks: it is entered
only when `stop_` is set. -/
inductive Move (config : JsonData) (logger : AsyncLogger) : Action → AsyncLogger → Prop where
  | pushed {data buf} (enabled : logger.worker.mayPush data.length)
      (written : logger.worker.bufferProductor.push config data = .ok buf) :
      Move config logger (.push data)
        { logger with worker := { logger.worker with bufferProductor := buf }, pushed := logger.pushed ++ [data] }
  | refused {data exception} (enabled : logger.worker.mayPush data.length)
      (thrown : logger.worker.bufferProductor.push config data = .error exception) :
      Move config logger (.push data) logger
  | stopped : Move config logger .stop logger.setStop
  | swapped (place : logger.worker.place = .locking ∨ logger.worker.place = .waiting) :
      Move config logger .work { logger with worker := logger.worker.swapped }
  | flushed {sink} (place : logger.worker.place = .flushing sink) (inside : sink < logger.sinks.length) :
      Move config logger .work { logger with
        worker := { logger.worker with place := .flushing (sink + 1) }
        sinks := logger.sinks.modify sink (· ++ logger.worker.bufferConsumer.readable) }
  | emptied {sink} (place : logger.worker.place = .flushing sink) (last : logger.sinks.length ≤ sink) :
      Move config logger .work { logger with
        worker := { logger.worker with bufferConsumer := logger.worker.bufferConsumer.reset, place := .testingStop } }
  | stays (place : logger.worker.place = .testingStop ∨ logger.worker.place = .testingEmpty) :
      Move config logger .work (logger.moved .locking)
  | ending (place : logger.worker.place = .testingStop) (stop : logger.worker.stop) :
      Move config logger .work (logger.moved .testingEmpty)
  | exits (place : logger.worker.place = .testingEmpty) (empty : logger.worker.bufferProductor.isEmpty) :
      Move config logger .work (logger.moved .exited)

theorem move_of_work (taken : logger.work = some next) : Move config logger .work next := by
  simp only [work] at taken
  split at taken
  next place =>
    split at taken
    next contradiction => exact absurd (.inl contradiction.2.1) contradiction.2.2
    next => cases taken; exact .swapped (.inl place)
  next place =>
    split at taken
    next => cases taken; exact .swapped (.inr place)
    next => cases taken
  next sink place =>
    split at taken
    next inside => cases taken; exact .flushed place inside
    next last => cases taken; exact .emptied place (by omega)
  next place =>
    cases taken
    by_cases stop : logger.worker.stop
    · rw [if_pos stop]
      exact .ending place stop
    · rw [if_neg stop]
      exact .stays (.inl place)
  next place =>
    cases taken
    by_cases empty : logger.worker.bufferProductor.isEmpty
    · rw [if_pos empty]
      exact .exits place empty
    · rw [if_neg empty]
      exact .stays (.inr place)
  next => cases taken

theorem move_of_step {action : Action} (taken : step config logger action = some next) :
    Move config logger action next := by
  cases action with
  | push data =>
    simp only [step, push] at taken
    split at taken
    next enabled =>
      split at taken
      next buf written => cases taken; exact .pushed enabled written
      next exception thrown => cases taken; exact .refused enabled thrown
    next => cases taken
  | stop => cases taken; exact .stopped
  | work => exact move_of_work taken

/-- What the consumer's buffer still holds for a sink. -/
def unflushed (logger : AsyncLogger) (i : Nat) : Bytes :=
  match logger.worker.place with
  | .flushing sink => if i < sink then [] else logger.worker.bufferConsumer.readable
  | _ => logger.worker.bufferConsumer.readable

/-- Both buffers are in bounds, every sink is on its way to all that was written, and
once the thread has ended it has all that was written before the stop. -/
structure Sound (logger : AsyncLogger) : Prop where
  productor : logger.worker.bufferProductor.Valid
  consumer : logger.worker.bufferConsumer.Valid
  conserved : ∀ i sink, logger.sinks[i]? = some sink →
    sink ++ logger.unflushed i ++ logger.worker.bufferProductor.readable = logger.pushed.flatten
  delivered : logger.worker.place = .exited →
    ∃ early, logger.beforeStop = some early ∧ ∀ sink ∈ logger.sinks, early.flatten <+: sink

/-- What else stays true of a logger whose producers wait for space. -/
structure Steady (logger : AsyncLogger) : Prop extends Sound logger where
  safe : logger.worker.asyncType = .ASYNC_SAFE
  productorFits : logger.worker.bufferProductor.buffer.length ≤ maxSize
  consumerFits : logger.worker.bufferConsumer.buffer.length ≤ maxSize
  idle : (∀ sink, logger.worker.place ≠ .flushing sink) → logger.worker.bufferConsumer.readable = []
  stopping : logger.worker.place = .testingEmpty → logger.worker.stop
  marked : logger.worker.stop → ∃ early, logger.beforeStop = some early
  earlier : ∀ early, logger.beforeStop = some early → early <+: logger.pushed

def CopiesInside (config : JsonData) (logger : AsyncLogger) : Action → Prop
  | .push data => logger.worker.bufferProductor.CopiesInside config data
  | _ => True

def GrowsUpward (config : JsonData) (logger : AsyncLogger) : Action → Prop
  | .push data =>
    data.length = logger.worker.bufferProductor.writeableSize →
      maxSize < Buffer.grownSize config logger.worker.bufferProductor.buffer.length ∨
        logger.worker.bufferProductor.buffer.length ≤
          Buffer.grownSize config logger.worker.bufferProductor.buffer.length
  | _ => True

theorem hasRoom_iff {buf : Buffer} (valid : buf.Valid) (fits : buf.buffer.length ≤ maxSize) {data : Bytes}
    (enabled : data.length ≤ buf.writeableSize) :
    buf.HasRoom config data ↔ (data.length = buf.writeableSize →
      maxSize < Buffer.grownSize config buf.buffer.length ∨
        buf.buffer.length ≤ Buffer.grownSize config buf.buffer.length) := by
  have write := valid.write
  rw [Buffer.writeableSize_eq valid fits] at enabled ⊢
  simp only [Buffer.HasRoom]
  omega

theorem unflushed_of_idle (idle : logger.worker.bufferConsumer.readable = []) (i : Nat) : logger.unflushed i = [] := by
  unfold unflushed
  split
  · rw [idle, ite_self]
  · exact idle

namespace Steady

theorem enabled (steady : Steady logger) {len : Nat} (may : logger.worker.mayPush len) :
    len ≤ logger.worker.bufferProductor.writeableSize := by
  simpa [AsyncWorker.mayPush, steady.safe] using may

/-- The step of a producer: the message is appended if the buffer does not shrink, and
otherwise the logger is no longer sound. -/
theorem pushed (steady : Steady logger) {data : Bytes} {buf : Buffer} (may : logger.worker.mayPush data.length)
    (written : logger.worker.bufferProductor.push config data = .ok buf) :
    (logger.GrowsUpward config (.push data) →
      Steady { logger with
        worker := { logger.worker with bufferProductor := buf }, pushed := logger.pushed ++ [data] }) ∧
      (buf.Valid ∨ logger.CopiesInside config (.push data) → logger.GrowsUpward config (.push data)) ∧
      (logger.GrowsUpward config (.push data) → logger.CopiesInside config (.push data)) := by
  have room := @hasRoom_iff config _ steady.productor steady.productorFits _ (steady.enabled may)
  rcases Buffer.push_spec config steady.productor steady.productorFits data with
    ⟨_, thrown, _⟩ | ⟨other, written', small, kept, copies, appended⟩
  · cases thrown.symm.trans written
  · cases written'.symm.trans written
    refine ⟨fun upward => ?_, fun sound => ?_, fun upward => copies.mpr (room.mpr upward)⟩
    · have grown := appended (room.mpr upward)
      refine ⟨⟨kept.mpr (room.mpr upward), steady.consumer, fun i sink present => ?_, steady.delivered⟩,
        steady.safe, small, steady.consumerFits, steady.idle, steady.stopping, steady.marked,
        fun early before => (steady.earlier early before).trans (List.prefix_append _ _)⟩
      have before := steady.conserved i sink present
      change sink ++ logger.unflushed i ++ buf.readable = (logger.pushed ++ [data]).flatten
      rw [grown, ← List.append_assoc, before, List.flatten_append, List.flatten_singleton]
    · rcases sound with valid | inside
      · exact room.mp (kept.mp valid)
      · exact room.mp (copies.mp inside)

theorem setStop (steady : Steady logger) : Steady logger.setStop := by
  refine ⟨⟨steady.productor, steady.consumer, steady.conserved, fun exited => ?_⟩, steady.safe, steady.productorFits,
    steady.consumerFits, steady.idle, fun _ => rfl, fun _ => ?_, fun early before => ?_⟩
  · obtain ⟨early, before, all⟩ := steady.delivered exited
    exact ⟨early, by simp [AsyncLogger.setStop, before], all⟩
  · cases before : logger.beforeStop with
    | none => exact ⟨logger.pushed, by simp [AsyncLogger.setStop, before]⟩
    | some early => exact ⟨early, by simp [AsyncLogger.setStop, before]⟩
  · cases known : logger.beforeStop with
    | none =>
      simp only [AsyncLogger.setStop, known, Option.none_or, Option.some.injEq] at before
      rw [← before]
      exact List.prefix_refl _
    | some other =>
      simp only [AsyncLogger.setStop, known, Option.some_or, Option.some.injEq] at before
      exact steady.earlier early (by rw [known, before])

theorem swapped (steady : Steady logger) (place : logger.worker.place = .locking ∨ logger.worker.place = .waiting) :
    Steady { logger with worker := logger.worker.swapped } := by
  have idle : logger.worker.bufferConsumer.readable = [] := by
    apply steady.idle
    rcases place with place | place <;> simp [place]
  refine ⟨⟨steady.consumer, steady.productor, fun i sink present => ?_, nofun⟩, steady.safe, steady.consumerFits,
    steady.productorFits, fun calm => absurd rfl (calm 0), nofun, steady.marked, steady.earlier⟩
  have before := steady.conserved i sink present
  rw [unflushed_of_idle idle, List.append_nil] at before
  change sink ++ logger.worker.bufferProductor.readable ++ logger.worker.bufferConsumer.readable = _
  rw [idle, List.append_nil, before]

theorem flushed (steady : Steady logger) {sink : Nat} (place : logger.worker.place = .flushing sink) :
    Steady { logger with
      worker := { logger.worker with place := .flushing (sink + 1) }
      sinks := logger.sinks.modify sink (· ++ logger.worker.bufferConsumer.readable) } := by
  refine ⟨⟨steady.productor, steady.consumer, fun i received present => ?_, nofun⟩, steady.safe,
    steady.productorFits, steady.consumerFits, fun calm => absurd rfl (calm _), nofun, steady.marked, steady.earlier⟩
  simp only [List.getElem?_modify] at present
  obtain ⟨old, there, rfl⟩ := Option.map_eq_some_iff.mp present
  have before := steady.conserved i old there
  simp only [unflushed, place] at before ⊢
  rcases Nat.lt_trichotomy i sink with earlier | rfl | later
  · rw [if_pos earlier] at before
    simpa [earlier.ne', Nat.lt_succ_of_lt earlier] using before
  · rw [if_neg (Nat.lt_irrefl i)] at before
    simpa using before
  · rw [if_neg (by omega)] at before
    simpa [later.ne, show ¬ i < sink + 1 by omega] using before

theorem emptied (steady : Steady logger) {sink : Nat} (place : logger.worker.place = .flushing sink)
    (last : logger.sinks.length ≤ sink) :
    Steady { logger with
      worker := { logger.worker with bufferConsumer := logger.worker.bufferConsumer.reset, place := .testingStop } } := by
  have empty : logger.worker.bufferConsumer.reset.readable = [] := Buffer.readable_of_isEmpty rfl
  refine ⟨⟨steady.productor, ⟨Nat.le_refl 0, Nat.zero_le _⟩, fun i received present => ?_, nofun⟩, steady.safe,
    steady.productorFits, steady.consumerFits, fun _ => empty, nofun, steady.marked, steady.earlier⟩
  have before := steady.conserved i received present
  have inside : i < sink := by
    obtain ⟨there, _⟩ := List.getElem?_eq_some_iff.mp present
    exact there.trans_le last
  simp only [unflushed, place, if_pos inside] at before
  rw [unflushed_of_idle empty]
  exact before

theorem moved (steady : Steady logger) {target : Place}
    (place : logger.worker.place = .testingStop ∨ logger.worker.place = .testingEmpty)
    (stopping : target = .testingEmpty → logger.worker.stop)
    (ending : target = .exited → ∃ early, logger.beforeStop = some early ∧ ∀ sink ∈ logger.sinks, early.flatten <+: sink) :
    Steady (logger.moved target) := by
  have idle : logger.worker.bufferConsumer.readable = [] := by
    apply steady.idle
    rcases place with place | place <;> simp [place]
  refine ⟨⟨steady.productor, steady.consumer, fun i received present => ?_, ending⟩, steady.safe, steady.productorFits,
    steady.consumerFits, fun _ => idle, stopping, steady.marked, steady.earlier⟩
  have before := steady.conserved i received present
  rw [unflushed_of_idle idle] at before
  rw [unflushed_of_idle (by exact idle)]
  exact before

theorem delivered_of_empty (steady : Steady logger) (place : logger.worker.place = .testingEmpty)
    (empty : logger.worker.bufferProductor.isEmpty) :
    ∃ early, logger.beforeStop = some early ∧ ∀ sink ∈ logger.sinks, early.flatten <+: sink := by
  obtain ⟨early, before⟩ := steady.marked (steady.stopping place)
  refine ⟨early, before, fun sink member => ?_⟩
  obtain ⟨i, present⟩ := List.mem_iff_getElem?.mp member
  have idle := steady.idle (by simp [place])
  have all := steady.conserved i sink present
  rw [unflushed_of_idle idle, Buffer.readable_of_isEmpty empty, List.append_nil, List.append_nil] at all
  obtain ⟨later, whole⟩ := steady.earlier early before
  rw [all, ← whole, List.flatten_append]
  exact List.prefix_append _ _

end Steady

theorem Move.steady {action : Action} (move : Move config logger action next) (steady : Steady logger)
    (upward : logger.GrowsUpward config action) : Steady next := by
  cases move with
  | pushed enabled written => exact (steady.pushed enabled written).1 upward
  | refused => exact steady
  | stopped => exact steady.setStop
  | swapped place => exact steady.swapped place
  | flushed place => exact steady.flushed place
  | emptied place last => exact steady.emptied place last
  | stays place => exact steady.moved place nofun nofun
  | ending place stop => exact steady.moved (.inl place) (fun _ => stop) nofun
  | exits place empty => exact steady.moved (.inr place) nofun fun _ => steady.delivered_of_empty place empty

theorem Move.sound_iff {action : Action} (move : Move config logger action next) (steady : Steady logger) :
    next.Sound ∧ logger.CopiesInside config action ↔ logger.GrowsUpward config action := by
  have sound (upward : logger.GrowsUpward config action) : next.Sound := (move.steady steady upward).toSound
  cases move with
  | pushed enabled written =>
    obtain ⟨_, necessary, inside⟩ := steady.pushed enabled written
    exact ⟨fun both => necessary (.inr both.2), fun upward => ⟨sound upward, inside upward⟩⟩
  | refused enabled thrown =>
    have room := @hasRoom_iff config _ steady.productor steady.productorFits _ (steady.enabled enabled)
    rcases Buffer.push_spec config steady.productor steady.productorFits _ with
      ⟨_, _, inside, roomy⟩ | ⟨_, written, _⟩
    · exact ⟨fun _ => room.mp roomy, fun _ => ⟨steady.toSound, inside⟩⟩
    · cases thrown.symm.trans written
  | stopped | swapped | flushed | emptied | stays | ending | exits =>
    exact ⟨fun _ => trivial, fun upward => ⟨sound upward, trivial⟩⟩

theorem Steady.started {fresh : Buffer} (built : Buffer.new config = .ok fresh) (sinks : Nat) :
    Steady (started .ASYNC_SAFE fresh sinks) := by
  obtain ⟨small, rfl⟩ := Buffer.new_ok built
  have fits : (List.replicate config.bufferSize (0 : UInt8)).length ≤ maxSize := by simpa using small
  have empty : Buffer.readable ⟨List.replicate config.bufferSize 0, 0, 0⟩ = [] := Buffer.readable_of_isEmpty rfl
  have valid : Buffer.Valid ⟨List.replicate config.bufferSize 0, 0, 0⟩ := ⟨Nat.le_refl 0, Nat.zero_le _⟩
  refine ⟨⟨valid, valid, fun i sink present => ?_, nofun⟩, rfl, fits, fits, fun _ => empty, nofun, nofun, nofun⟩
  have nothing : sink = [] := List.eq_of_mem_replicate (List.mem_of_getElem? present)
  rw [nothing, unflushed_of_idle (by exact empty)]
  exact empty

/-- In every interleaving of the producers' pushes, `Stop` and the steps of the thread,
no push runs over its buffer, no byte is lost, repeated or reordered on its way to any
sink, and the thread ends with everything delivered that was written before the stop,
exactly when no push that fills the buffer exactly makes it shrink. -/
theorem delivery_throughout_iff {fresh : Buffer} (built : Buffer.new config = .ok fresh) (sinks : Nat)
    (actions : List Action) :
    Throughout (step config) (fun logger action next => next.Sound ∧ logger.CopiesInside config action)
        (started .ASYNC_SAFE fresh sinks) actions ↔
      Throughout (step config) (fun logger action _ => logger.GrowsUpward config action)
        (started .ASYNC_SAFE fresh sinks) actions := by
  apply throughout_iff Steady
  · intro logger action next steady taken upward
    exact (move_of_step taken).steady steady upward
  · intro logger action next steady taken
    exact (move_of_step taken).sound_iff steady
  · exact Steady.started built sinks

theorem delivery_two_messages :
    Throughout (step ⟨4, 8, 4⟩) (fun logger action next => next.Sound ∧ logger.CopiesInside ⟨4, 8, 4⟩ action)
      (started .ASYNC_SAFE ⟨List.replicate 4 0, 0, 0⟩ 2)
      [.push (ascii "ab"), .work, .push (ascii "cde"), .work, .stop, .work, .work] := by
  apply (delivery_throughout_iff rfl 2 _).mpr
  apply Throughout.cons rfl (fun filled => absurd filled (by decide))
  apply Throughout.cons rfl trivial
  apply Throughout.cons rfl (fun filled => absurd filled (by decide))
  apply Throughout.cons rfl trivial
  apply Throughout.cons rfl trivial
  apply Throughout.cons rfl trivial
  exact .cons rfl trivial (.nil _)

/-- A message that fills a buffer of a multiple of `2 ^ 32` bytes makes it shrink to the
linear growth alone. -/
theorem overruns_of_multiple {size : Nat} (multiple : size % 2 ^ 32 = 0) (large : 1 < size) (small : size ≤ maxSize)
    (sinks : Nat) :
    ∃ final, Run (step ⟨size, 1, 1⟩) (started .ASYNC_SAFE ⟨List.replicate size 0, 0, 0⟩ sinks)
      [.push (List.replicate size 0)] final ∧ ¬ final.Sound := by
  have fits : (List.replicate size (0 : UInt8)).length ≤ maxSize := by simpa using small
  have valid : Buffer.Valid ⟨List.replicate size 0, 0, 0⟩ := ⟨Nat.le_refl 0, Nat.zero_le _⟩
  have space : Buffer.writeableSize ⟨List.replicate size 0, 0, 0⟩ = size := by
    simpa using Buffer.writeableSize_eq valid fits
  have shrinks : Buffer.grownSize ⟨size, 1, 1⟩ size = 1 := by
    have nothing : toInt size = 0 := by
      rw [toInt, multiple]
      rfl
    simp [Buffer.grownSize, nothing, toSizeT, Nat.not_lt.mpr large.le]
  have enabled : (started .ASYNC_SAFE ⟨List.replicate size 0, 0, 0⟩ sinks).worker.mayPush size := by
    simp [AsyncWorker.mayPush, started, space]
  have full : ¬ Buffer.HasRoom ⟨size, 1, 1⟩ ⟨List.replicate size 0, 0, 0⟩ (List.replicate size 0) := by
    simp only [Buffer.HasRoom, List.length_replicate, shrinks, maxSize]
    omega
  rcases Buffer.push_spec ⟨size, 1, 1⟩ valid fits (List.replicate size 0) with
    ⟨_, _, _, roomy⟩ | ⟨buf, written, _, kept, _⟩
  · exact absurd roomy full
  · refine ⟨{ started .ASYNC_SAFE ⟨List.replicate size 0, 0, 0⟩ sinks with
      worker := { (started .ASYNC_SAFE ⟨List.replicate size 0, 0, 0⟩ sinks).worker with bufferProductor := buf }
      pushed := [List.replicate size 0] }, .cons ?_ (.nil _), fun sound => full (kept.mp sound.productor)⟩
    have written' : (started .ASYNC_SAFE ⟨List.replicate size 0, 0, 0⟩ sinks).worker.bufferProductor.push
        ⟨size, 1, 1⟩ (List.replicate size 0) = .ok buf := written
    simp only [step, push, List.length_replicate, enabled, if_true, written']
    rfl

/-- With buffers of four gibibytes one message is enough. -/
theorem push_shrinks_buffer :
    Buffer.new ⟨2 ^ 32, 1, 1⟩ = .ok ⟨List.replicate (2 ^ 32) 0, 0, 0⟩ ∧
      ∃ final, Run (step ⟨2 ^ 32, 1, 1⟩) (started .ASYNC_SAFE ⟨List.replicate (2 ^ 32) 0, 0, 0⟩ 1)
        [.push (List.replicate (2 ^ 32) 0)] final ∧ ¬ final.Sound :=
  ⟨Buffer.new_eq (by norm_num [maxSize]),
    overruns_of_multiple (by norm_num) (by norm_num) (by norm_num [maxSize]) 1⟩

end AsyncLogger

end HttpFramework.Mylog
