import HttpFramework.Mylog.Construction
import HttpFramework.Proofs.WorkerDelivery

/-! The calls of `callback_`. The wait in front of the swap is entered only when `stop_` is
set, so a thread that finds nothing written does not block: it swaps and calls with an empty
buffer. For the same reason a thread just started comes to its first call at once, whether
or not the constructor has come to `callback_`. -/

namespace HttpFramework.Mylog
open Transition

namespace AsyncLogger

variable {config : JsonData} {logger next : AsyncLogger}

/-- Where the thread is about to call `callback_` and no stop was asked for, it has data. -/
def CallsWithData (logger : AsyncLogger) : Prop :=
  logger.worker.place = .flushing 0 → logger.worker.stop = false → logger.worker.bufferConsumer.isEmpty = false

/-- The thread comes to the mutex after a message was written, or after the stop. -/
def FindsData (logger : AsyncLogger) : Action → Prop
  | .work =>
    logger.worker.place = .locking ∨ logger.worker.place = .waiting →
      logger.worker.stop = false → logger.worker.bufferProductor.isEmpty = false
  | _ => True

private theorem callsWithData_iff_elsewhere
    (place : logger.worker.place ≠ .locking ∧ logger.worker.place ≠ .waiting)
    (after : next.worker.place ≠ .flushing 0) : next.CallsWithData ↔ logger.FindsData .work :=
  ⟨fun _ waits => absurd waits (not_or.mpr place), fun _ here => absurd here after⟩

theorem Move.callsWithData_iff {action : Action} (move : Move config logger action next)
    (calls : logger.CallsWithData) : next.CallsWithData ↔ logger.FindsData action := by
  cases move with
  | pushed => exact ⟨fun _ => trivial, fun _ => calls⟩
  | refused => exact ⟨fun _ => trivial, fun _ => calls⟩
  | stopped => exact ⟨fun _ => trivial, fun _ _ running => nomatch running⟩
  | swapped place => exact ⟨fun after _ => after rfl, fun finds _ => finds place⟩
  | flushed place => exact callsWithData_iff_elsewhere (by simp [place]) nofun
  | emptied place => exact callsWithData_iff_elsewhere (by simp [place]) nofun
  | stays place => exact callsWithData_iff_elsewhere (by rcases place with place | place <;> simp [place]) nofun
  | ending place => exact callsWithData_iff_elsewhere (by simp [place]) nofun
  | exits place => exact callsWithData_iff_elsewhere (by simp [place]) nofun

/-- While no stop was asked for, the thread calls `callback_` with data only, exactly when
it never comes to the mutex before something was written. -/
theorem callback_throughout_iff (asyncType : AsyncType) (fresh : Buffer) (sinks : Nat) (actions : List Action) :
    Throughout (step config) (fun _ _ next => next.CallsWithData) (started asyncType fresh sinks) actions ↔
      Throughout (step config) (fun logger action _ => logger.FindsData action)
        (started asyncType fresh sinks) actions := by
  apply throughout_iff CallsWithData
  · intro logger action next calls taken finds
    exact ((move_of_step taken).callsWithData_iff calls).mpr finds
  · intro logger action next calls taken
    exact (move_of_step taken).callsWithData_iff calls
  · exact nofun

/-- The first step of a thread that nobody has written to. -/
theorem idle_worker_calls :
    ∃ final, Run (step ⟨4, 8, 4⟩) (started .ASYNC_SAFE ⟨List.replicate 4 0, 0, 0⟩ 1) [.work] final ∧
      final.worker.place = .flushing 0 ∧ final.worker.stop = false ∧ final.worker.bufferConsumer.isEmpty ∧
      ¬ final.CallsWithData := by
  refine ⟨_, .cons rfl (.nil _), rfl, rfl, rfl, fun calls => ?_⟩
  cases calls rfl rfl

end AsyncLogger

namespace Construction

variable {config : JsonData} {construction next : Construction}

def UsesInitialised (construction : Construction) : Event → Prop
  | .act .work => ∀ name ∈ construction.logger.worker.uses, .member name ∉ construction.left
  | _ => True

/-- The steps that the thread takes before the last of the given number of steps of the
constructor. -/
def earlyWork : Nat → List Event → Nat
  | 0, _ => 0
  | _ + 1, [] => 0
  | left + 1, .construct :: events => earlyWork left events
  | left + 1, .act .work :: events => earlyWork (left + 1) events + 1
  | left + 1, .act _ :: events => earlyWork (left + 1) events

inductive Move (config : JsonData) (construction : Construction) : Event → Construction → Prop where
  | constructed {initialiser left} (remains : construction.left = initialiser :: left) :
      Move config construction .construct { construction with left }
  | worked {logger} (spawned : .spawn ∉ construction.left) (taken : construction.logger.work = some logger) :
      Move config construction (.act .work) { construction with logger }
  | acted {action logger} (other : action ≠ .work) (complete : construction.left = []) :
      Move config construction (.act action) { construction with logger }

theorem move_of_step {event : Event} (taken : step config construction event = some next) :
    Move config construction event next := by
  match event with
  | .construct =>
    simp only [step] at taken
    split at taken
    next => cases taken
    next initialiser left remains => cases taken; exact .constructed remains
  | .act .work =>
    simp only [step] at taken
    split at taken
    next spawned =>
      obtain ⟨logger, worked, rfl⟩ := Option.map_eq_some_iff.mp taken
      exact .worked spawned worked
    next => cases taken
  | .act (.push data) | .act .stop =>
    simp only [step] at taken
    split at taken
    next complete =>
      obtain ⟨logger, _, rfl⟩ := Option.map_eq_some_iff.mp taken
      exact .acted nofun complete
    next => cases taken

/-- A constructor that has started the thread has at most `thread_` and `callback_` left. -/
theorem left_of_spawned {left : List Initialiser} (suffix : left <:+ initialisers) (spawned : .spawn ∉ left)
    (incomplete : left ≠ []) : left = [.member .thread, .member .callback] ∨ left = [.member .callback] := by
  have cases : ∀ left ∈ initialisers.tails, .spawn ∉ left → left ≠ [] →
      left = [.member .thread, .member .callback] ∨ left = [.member .callback] := by decide
  exact cases left ((List.mem_tails _ _).mpr suffix) spawned incomplete

/-- With the thread started, only `callback_` can be used too early. -/
theorem usesInitialised_iff (suffix : construction.left <:+ initialisers) (spawned : .spawn ∉ construction.left) :
    construction.UsesInitialised (.act .work) ↔
      (construction.left ≠ [] → .callback ∉ construction.logger.worker.uses) := by
  by_cases complete : construction.left = []
  · simp [UsesInitialised, complete]
  · have unused : .thread ∉ construction.logger.worker.uses := by
      unfold AsyncWorker.uses
      cases construction.logger.worker.place <;> simp
    rcases left_of_spawned suffix spawned complete with left | left
    · simp only [UsesInitialised, left]
      grind
    · simp only [UsesInitialised, left]
      grind

theorem left_of_step {event : Event} (taken : step config construction event = some next)
    (suffix : construction.left <:+ initialisers) : next.left <:+ initialisers := by
  cases move_of_step taken with
  | constructed remains => exact (List.suffix_cons _ _).trans (remains ▸ suffix)
  | worked => exact suffix
  | acted => exact suffix

theorem throughout_of_complete {events : List Event} {final : Construction}
    (run : Run (step config) construction events final) (complete : construction.left = []) :
    Throughout (step config) (fun construction event _ => construction.UsesInitialised event) construction events := by
  refine @Run.throughout _ _ (step config) _ (fun construction => construction.left = []) ?_ _ _ _ complete run
  intro construction event next complete taken
  constructor
  · unfold UsesInitialised
    split <;> simp [complete]
  · cases move_of_step taken with
    | constructed remains => cases complete.symm.trans remains
    | worked => exact complete
    | acted => exact complete

/-- As long as the thread stays where it is, only its next step matters. -/
theorem throughout_iff_of_work {place : Place} {allowed : Nat}
    (work : ∀ {construction : Construction} {logger : AsyncLogger} {events : List Event} {final : Construction},
      Run (step config) { construction with logger } events final → construction.left <:+ initialisers →
      .spawn ∉ construction.left → construction.left ≠ [] → construction.logger.worker.place = place →
      construction.logger.work = some logger →
      (construction.UsesInitialised (.act .work) ∧
        Throughout (step config) (fun construction event _ => construction.UsesInitialised event) { construction with logger } events ↔
          earlyWork construction.left.length events + 1 ≤ allowed))
    {events : List Event} {final : Construction} (run : Run (step config) construction events final)
    (suffix : construction.left <:+ initialisers) (incomplete : construction.left ≠ [])
    (here : construction.logger.worker.place = place) :
    Throughout (step config) (fun construction event _ => construction.UsesInitialised event) construction events ↔
      earlyWork construction.left.length events ≤ allowed := by
  induction run with
  | nil construction =>
    obtain ⟨initialiser, left, remains⟩ := List.exists_cons_of_ne_nil incomplete
    simp only [remains, List.length_cons, earlyWork, Nat.zero_le, iff_true]
    exact .nil construction
  | @cons construction next final event events taken rest ih =>
    rw [throughout_cons taken]
    have suffix' := left_of_step taken suffix
    cases move_of_step taken with
    | @constructed initialiser left remains =>
      simp only [UsesInitialised, true_and, remains, List.length_cons, earlyWork]
      by_cases complete : left = []
      · subst complete
        simp only [List.length_nil, earlyWork, Nat.zero_le, iff_true]
        exact throughout_of_complete rest rfl
      · exact ih suffix' complete here
    | @worked logger spawned worked =>
      rw [work rest suffix spawned incomplete here worked]
      obtain ⟨initialiser, left, remains⟩ := List.exists_cons_of_ne_nil incomplete
      simp only [remains, List.length_cons, earlyWork]
    | acted other complete => exact absurd complete incomplete

theorem throughout_iff_of_calling {events : List Event} {final : Construction}
    (run : Run (step config) construction events final) (suffix : construction.left <:+ initialisers)
    (incomplete : construction.left ≠ []) (place : construction.logger.worker.place = .flushing 0) :
    Throughout (step config) (fun construction event _ => construction.UsesInitialised event) construction events ↔
      earlyWork construction.left.length events ≤ 0 := by
  refine throughout_iff_of_work ?_ run suffix incomplete place
  intro construction logger events final _ suffix spawned incomplete place _
  have early : ¬ construction.UsesInitialised (.act .work) := by
    rw [usesInitialised_iff suffix spawned]
    simp [incomplete, AsyncWorker.uses, place]
  simp [early]

/-- In front of the mutex, the thread has one step before the call. -/
theorem throughout_iff_of_locking {events : List Event} {final : Construction}
    (run : Run (step config) construction events final) (suffix : construction.left <:+ initialisers)
    (incomplete : construction.left ≠ []) (place : construction.logger.worker.place = .locking) :
    Throughout (step config) (fun construction event _ => construction.UsesInitialised event) construction events ↔
      earlyWork construction.left.length events ≤ 1 := by
  refine throughout_iff_of_work ?_ run suffix incomplete place
  intro construction logger events final rest suffix spawned incomplete place worked
  have fine : construction.UsesInitialised (.act .work) := by
    rw [usesInitialised_iff suffix spawned]
    simp [AsyncWorker.uses, place]
  have calling : logger.worker.place = .flushing 0 := by
    cases @AsyncLogger.move_of_work config _ _ worked with
    | swapped => rfl
    | flushed other => cases place.symm.trans other
    | emptied other => cases place.symm.trans other
    | stays other => rcases other with other | other <;> cases place.symm.trans other
    | ending other => cases place.symm.trans other
    | exits other => cases place.symm.trans other
  have later := throughout_iff_of_calling rest suffix incomplete calling
  simp only [fine, true_and, later]
  omega

/-- However the steps of the constructor and of the thread follow each other, the thread
uses initialised members only, exactly when at most one of its steps, the swap, comes
before the last step of the constructor. -/
theorem construction_throughout_iff (asyncType : AsyncType) (fresh : Buffer) (sinks : Nat)
    {events : List Event} {final : Construction}
    (run : Run (step config) { logger := .started asyncType fresh sinks } events final) :
    Throughout (step config) (fun construction event _ => construction.UsesInitialised event)
        { logger := .started asyncType fresh sinks } events ↔
      earlyWork initialisers.length events ≤ 1 :=
  throughout_iff_of_locking run List.suffix_rfl nofun rfl

/-- The constructor finishes while the thread is between its swap and its first call. -/
theorem construction_before_call :
    Throughout (step ⟨4, 8, 4⟩) (fun construction event _ => construction.UsesInitialised event)
      { logger := .started .ASYNC_SAFE ⟨List.replicate 4 0, 0, 0⟩ 1 }
      (List.replicate 8 .construct ++ [.act .work, .construct, .construct, .act .work, .act (.push (ascii "ab"))]) := by
  apply (construction_throughout_iff _ _ _ (.cons rfl <| .cons rfl <| .cons rfl <| .cons rfl <| .cons rfl <|
    .cons rfl <| .cons rfl <| .cons rfl <| .cons rfl <| .cons rfl <| .cons rfl <| .cons rfl <| .cons rfl <|
    .nil _)).mpr
  decide

/-- The thread is started, takes the mutex, finds nothing to wait for, and calls. -/
theorem callback_before_initialised :
    ∃ final, Run (step ⟨4, 8, 4⟩) { logger := .started .ASYNC_SAFE ⟨List.replicate 4 0, 0, 0⟩ 1 }
        (List.replicate 8 .construct ++ [.act .work]) final ∧
      (∃ next, step ⟨4, 8, 4⟩ final (.act .work) = some next) ∧
      .callback ∈ final.logger.worker.uses ∧ .member .callback ∈ final.left ∧
      ¬ final.UsesInitialised (.act .work) := by
  refine ⟨⟨[.member .thread, .member .callback],
    { AsyncLogger.started .ASYNC_SAFE ⟨List.replicate 4 0, 0, 0⟩ 1 with
      worker := ⟨.ASYNC_SAFE, false, ⟨List.replicate 4 0, 0, 0⟩, ⟨List.replicate 4 0, 0, 0⟩, .flushing 0⟩ }⟩,
    ?run, ⟨_, rfl⟩, by decide, by decide, fun fine => ?_⟩
  case run =>
    iterate 8 refine .cons rfl ?_
    exact .cons rfl (.nil _)
  exact fine .callback (by decide) (by decide)

end Construction

end HttpFramework.Mylog
