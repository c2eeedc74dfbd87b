import HttpFramework.Proofs.WorkerDelivery

/-! The capacity of the buffers when producers wait for space. The wait lets a message
pass that fills the buffer exactly, and for that message the buffer grows. -/

namespace HttpFramework.Mylog
open Transition

namespace AsyncLogger

variable {config : JsonData} {logger next : AsyncLogger}

structure Fixed (config : JsonData) (logger : AsyncLogger) : Prop where
  productor : logger.worker.bufferProductor.buffer.length = config.bufferSize
  consumer : logger.worker.bufferConsumer.buffer.length = config.bufferSize

/-- A message that fills the buffer exactly leaves its size alone: growing is refused, or
the size asked for is the one the buffer has. -/
def LeavesSize (config : JsonData) (logger : AsyncLogger) : Action → Prop
  | .push data =>
    data.length = logger.worker.bufferProductor.writeableSize →
      maxSize < Buffer.grownSize config logger.worker.bufferProductor.buffer.length ∨
        Buffer.grownSize config logger.worker.bufferProductor.buffer.length =
          logger.worker.bufferProductor.buffer.length
  | _ => True

structure Bounded (config : JsonData) (logger : AsyncLogger) : Prop extends Fixed config logger where
  safe : logger.worker.asyncType = .ASYNC_SAFE
  small : config.bufferSize ≤ maxSize
  productorValid : logger.worker.bufferProductor.Valid
  consumerValid : logger.worker.bufferConsumer.Valid

theorem Bounded.pushed (bounded : Bounded config logger) {data : Bytes} {buf : Buffer}
    (may : logger.worker.mayPush data.length)
    (written : logger.worker.bufferProductor.push config data = .ok buf) :
    (logger.LeavesSize config (.push data) → buf.Valid) ∧
      (buf.buffer.length = config.bufferSize ↔ logger.LeavesSize config (.push data)) := by
  have valid := bounded.productorValid
  have write := valid.write
  have size := bounded.productor
  have fits : logger.worker.bufferProductor.buffer.length ≤ maxSize := size ▸ bounded.small
  have space := Buffer.writeableSize_eq valid fits
  have enabled : data.length ≤ logger.worker.bufferProductor.writeableSize := by
    simpa [AsyncWorker.mayPush, bounded.safe] using may
  have room := @hasRoom_iff config _ valid fits _ enabled
  have kept : buf.Valid ↔ logger.worker.bufferProductor.HasRoom config data := by
    rcases Buffer.push_spec config valid fits data with ⟨_, thrown, _⟩ | ⟨other, written', _, kept, _⟩
    · cases thrown.symm.trans written
    · cases written'.symm.trans written
      exact kept
  constructor
  · intro leaves
    apply kept.mpr
    apply room.mpr
    intro exact'
    exact (leaves exact').imp_right fun same => same.ge
  · simp only [LeavesSize]
    rcases Buffer.push_cases config valid fits data with
      ⟨spare, _, pushed⟩ | ⟨full, ⟨_, _, pushed⟩ | ⟨within, grown, resized, _, pushed⟩⟩
    · cases pushed.symm.trans written
      simp only [copyTo_length]
      exact ⟨fun _ filled => by omega, fun _ => size⟩
    · cases pushed.symm.trans written
    · cases pushed.symm.trans written
      have length := resize_length resized
      simp only [copyTo_length]
      omega

theorem Move.bounded {action : Action} (move : Move config logger action next) (bounded : Bounded config logger)
    (leaves : logger.LeavesSize config action) : Bounded config next := by
  obtain ⟨⟨productor, consumer⟩, safe, small, productorValid, consumerValid⟩ := bounded
  cases move with
  | pushed enabled written =>
    obtain ⟨valid, size⟩ :=
      Bounded.pushed ⟨⟨productor, consumer⟩, safe, small, productorValid, consumerValid⟩ enabled written
    exact ⟨⟨size.mpr leaves, consumer⟩, safe, small, valid leaves, consumerValid⟩
  | refused | stopped | flushed | stays | ending | exits =>
    exact ⟨⟨productor, consumer⟩, safe, small, productorValid, consumerValid⟩
  | swapped => exact ⟨⟨consumer, productor⟩, safe, small, consumerValid, productorValid⟩
  | emptied => exact ⟨⟨productor, consumer⟩, safe, small, productorValid, Nat.le_refl 0, Nat.zero_le _⟩

theorem Move.fixed_iff {action : Action} (move : Move config logger action next) (bounded : Bounded config logger) :
    next.Fixed config ↔ logger.LeavesSize config action := by
  refine ⟨fun fixed => ?_, fun leaves => (move.bounded bounded leaves).toFixed⟩
  cases move with
  | pushed enabled written => exact (bounded.pushed enabled written).2.mp fixed.productor
  | refused enabled thrown =>
    have size := bounded.productor
    have fits : logger.worker.bufferProductor.buffer.length ≤ maxSize := size ▸ bounded.small
    rcases Buffer.push_cases config bounded.productorValid fits _ with
      ⟨_, _, written⟩ | ⟨_, ⟨large, _⟩ | ⟨_, _, _, _, written⟩⟩
    · cases thrown.symm.trans written
    · exact fun _ => .inl large
    · cases thrown.symm.trans written
  | stopped | swapped | flushed | emptied | stays | ending | exits => trivial

/-- When producers wait for space, both buffers keep the configured size in every state
of a run exactly when no message makes a buffer grow by filling it exactly. -/
theorem capacity_throughout_iff {fresh : Buffer} (built : Buffer.new config = .ok fresh) (sinks : Nat)
    (actions : List Action) :
    Throughout (step config) (fun _ _ next => next.Fixed config) (started .ASYNC_SAFE fresh sinks) actions ↔
      Throughout (step config) (fun logger action _ => logger.LeavesSize config action)
        (started .ASYNC_SAFE fresh sinks) actions := by
  apply throughout_iff (Bounded config)
  · intro logger action next bounded taken leaves
    exact (move_of_step taken).bounded bounded leaves
  · intro logger action next bounded taken
    exact (move_of_step taken).fixed_iff bounded
  · obtain ⟨small, rfl⟩ := Buffer.new_ok built
    have valid : Buffer.Valid ⟨List.replicate config.bufferSize 0, 0, 0⟩ := ⟨Nat.le_refl 0, Nat.zero_le _⟩
    exact ⟨⟨List.length_replicate, List.length_replicate⟩, rfl, small, valid, valid⟩

theorem capacity_two_messages :
    Throughout (step ⟨4, 8, 4⟩) (fun _ _ next => next.Fixed ⟨4, 8, 4⟩)
      (started .ASYNC_SAFE ⟨List.replicate 4 0, 0, 0⟩ 1) [.push (ascii "abc"), .work, .push (ascii "de")] := by
  apply (capacity_throughout_iff rfl 1 _).mpr
  apply Throughout.cons rfl (fun filled => absurd filled (by decide))
  apply Throughout.cons rfl trivial
  exact .cons rfl (fun filled => absurd filled (by decide)) (.nil _)

/-- A message of four bytes makes a buffer of four bytes grow to twelve. -/
theorem exact_push_grows :
    Buffer.new ⟨4, 8, 4⟩ = .ok ⟨List.replicate 4 0, 0, 0⟩ ∧
      ∃ final, Run (step ⟨4, 8, 4⟩) (started .ASYNC_SAFE ⟨List.replicate 4 0, 0, 0⟩ 1) [.push (ascii "abcd")] final ∧
        final.worker.bufferProductor.buffer.length = 12 ∧ ¬ final.Fixed ⟨4, 8, 4⟩ := by
  refine ⟨rfl, _, .cons rfl (.nil _), by decide, fun fixed => ?_⟩
  exact absurd fixed.productor (by decide)

end AsyncLogger

end HttpFramework.Mylog
