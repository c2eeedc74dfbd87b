import HttpFramework.Code.BlockDeque
import HttpFramework.Library.Transition

/-! Consumers of `BlockDeque` after `Close`. A consumer that waits is woken and sees `isClose_`; one
that comes later looks at the deque first, and waits. -/

namespace HttpFramework.Code
open Transition

universe u

variable {α : Type u}

namespace Phase

/-- The thread is in a call of `Close` that has not returned. -/
def closing : Phase α → Bool
  | .close | .closeProducers | .closeConsumers => true
  | _ => false

/-- It has set `isClose_`. -/
def hasClosed : Phase α → Bool
  | .closeProducers | .closeConsumers => true
  | _ => false

theorem closing_wake (phase : Phase α) : phase.wake.closing = phase.closing := by
  cases phase <;> rfl

theorem hasClosed_wake (phase : Phase α) : phase.wake.hasClosed = phase.hasClosed := by
  cases phase <;> rfl

theorem wake_ne_popWaiting (phase : Phase α) (timed : Bool) : phase.wake ≠ .popWaiting timed := by
  cases phase <;> simp [wake]

end Phase

namespace BlockDeque

variable {deque next : BlockDeque α} {threads threads' : List (Phase α)} {thread : Nat} {phase later : Phase α}

/-- `Close` has returned, no other call of it is under way, the deque is empty, and a consumer waits
without a timeout: nothing but a push or another notification will ever wake it. -/
def Blocked (deque : BlockDeque α) : Prop :=
  0 < deque.closed ∧ deque.deq = [] ∧ (∀ phase ∈ deque.threads, phase.closing = false) ∧
    Phase.popWaiting false ∈ deque.threads

/-- A consumer without a timeout comes to the empty deque when `Close` has returned and no other call
of it is under way. -/
def ComesLate (deque : BlockDeque α) : Action α → Prop
  | .run thread _ => 0 < deque.closed ∧ deque.deq = [] ∧ (∀ phase ∈ deque.threads, phase.closing = false) ∧
      deque.threads[thread]? = some (.pop false)
  | _ => False

/-- Between two states of the threads nobody has begun to wait or to close, and nobody has stopped closing. -/
structure Settles (threads threads' : List (Phase α)) : Prop where
  waiting : Phase.popWaiting false ∈ threads' → Phase.popWaiting false ∈ threads
  closing : (∃ phase ∈ threads, phase.closing = true) → ∃ phase ∈ threads', phase.closing = true
  hasClosed : (∃ phase ∈ threads', phase.hasClosed = true) → ∃ phase ∈ threads, phase.hasClosed = true

theorem Settles.trans {threads'' : List (Phase α)} (first : Settles threads threads') (second : Settles threads' threads'') :
    Settles threads threads'' where
  waiting := first.waiting ∘ second.waiting
  closing := second.closing ∘ first.closing
  hasClosed := first.hasClosed ∘ second.hasClosed

theorem closing_set (there : threads[thread]? = some phase) (quiet : phase.closing = true → later.closing = true)
    (closes : ∃ phase ∈ threads, phase.closing = true) : ∃ phase ∈ threads.set thread later, phase.closing = true := by
  obtain ⟨other, member, closing⟩ := closes
  obtain ⟨place, found⟩ := List.mem_iff_getElem?.mp member
  by_cases own : thread = place
  · subst own
    cases found.symm.trans there
    exact ⟨later, List.mem_of_getElem? (List.getElem?_set_self (List.getElem?_eq_some_iff.mp there).1), quiet closing⟩
  · exact ⟨other, List.mem_of_getElem? ((List.getElem?_set_ne own).trans found), closing⟩

theorem hasClosed_set (there : threads[thread]? = some phase) (early : later.hasClosed = true → phase.hasClosed = true)
    (closed : ∃ phase ∈ threads.set thread later, phase.hasClosed = true) : ∃ phase ∈ threads, phase.hasClosed = true := by
  obtain ⟨other, member, closed⟩ := closed
  rcases List.mem_or_eq_of_mem_set member with member | rfl
  · exact ⟨other, member, closed⟩
  · exact ⟨phase, List.mem_of_getElem? there, early closed⟩

/-- A thread goes on, and not to wait. -/
theorem settles_set (there : threads[thread]? = some phase) (quiet : phase.closing = true → later.closing = true)
    (waits : later ≠ .popWaiting false) (early : later.hasClosed = true → phase.hasClosed = true) :
    Settles threads (threads.set thread later) where
  waiting member := by
    rcases List.mem_or_eq_of_mem_set member with member | same
    · exact member
    · exact absurd same.symm waits
  closing := closing_set there quiet
  hasClosed := hasClosed_set there early

theorem settles_notifyOne {waits : Phase α → Bool} {chosen : Option Nat}
    (notified : notifyOne waits chosen threads = some threads') : Settles threads threads' := by
  have same : Settles threads threads := ⟨id, id, id⟩
  unfold notifyOne at notified
  split at notified
  next thread =>
    split at notified
    next phase there =>
      split at notified
      · cases notified
        apply settles_set there
        · exact fun closing => (phase.closing_wake).trans closing
        · exact phase.wake_ne_popWaiting false
        · exact fun closed => (phase.hasClosed_wake).symm.trans closed
      · cases notified
    next => cases notified
  next =>
    split at notified
    · cases notified
    · cases notified
      exact same

theorem settles_notifyAll (waits : Phase α → Bool) (threads : List (Phase α)) : Settles threads (notifyAll waits threads) := by
  have closing (phase : Phase α) : (phase.notified waits).closing = phase.closing := by
    unfold Phase.notified
    split
    · exact phase.closing_wake
    · rfl
  have hasClosed (phase : Phase α) : (phase.notified waits).hasClosed = phase.hasClosed := by
    unfold Phase.notified
    split
    · exact phase.hasClosed_wake
    · rfl
  constructor
  case waiting =>
    intro member
    obtain ⟨phase, member, same⟩ := List.mem_map.mp member
    unfold Phase.notified at same
    split at same
    · exact absurd same (phase.wake_ne_popWaiting false)
    · exact same ▸ member
  case closing =>
    intro ⟨phase, member, closes⟩
    exact ⟨_, List.mem_map.mpr ⟨phase, member, rfl⟩, (closing phase).trans closes⟩
  case hasClosed =>
    intro ⟨_, member, closed⟩
    obtain ⟨phase, there, rfl⟩ := List.mem_map.mp member
    exact ⟨phase, there, (hasClosed phase).symm.trans closed⟩

/-- What `Close` leaves behind. -/
structure Sound (deque : BlockDeque α) : Prop where
  closed : 0 < deque.closed → deque.isClose = true
  closing : (∃ phase ∈ deque.threads, phase.hasClosed = true) → deque.isClose = true
  woken : 0 < deque.closed → Phase.popWaiting false ∈ deque.threads → ∃ phase ∈ deque.threads, phase.closing = true

theorem Sound.not_blocked (sound : deque.Sound) : ¬ deque.Blocked := by
  intro ⟨closed, _, quiet, waits⟩
  obtain ⟨phase, member, closing⟩ := sound.woken closed waits
  rw [quiet phase member] at closing
  cases closing

/-- A step that closes nothing keeps what holds. -/
theorem Sound.settles (sound : deque.Sound) (same : next.closed = deque.closed) (flag : next.isClose = deque.isClose)
    (settles : Settles deque.threads next.threads) : next.Sound where
  closed positive := flag.trans (sound.closed (same ▸ positive))
  closing closing := flag.trans (sound.closing (settles.hasClosed closing))
  woken positive waits := settles.closing (sound.woken (same ▸ positive) (settles.waiting waits))

theorem Sound.popLoop {timed : Bool} {chosen : Option Nat} (sound : deque.Sound) (there : deque.threads[thread]? = some phase)
    (quiet : phase.closing = false)
    (early : deque.deq = [] → timed = false → 0 < deque.closed → ∃ phase ∈ deque.threads, phase.closing = true)
    (taken : deque.popLoop thread timed chosen = some next) : next.Sound := by
  have quiet' {later : Phase α} (closing : phase.closing = true) : later.closing = true := by
    rw [quiet] at closing
    cases closing
  unfold BlockDeque.popLoop at taken
  split at taken
  next empty =>
    cases taken
    cases timed with
    | true => exact sound.settles rfl rfl (settles_set there quiet' (by simp) (by simp [Phase.hasClosed]))
    | false =>
      exact ⟨sound.closed, fun closed => sound.closing (hasClosed_set there (by simp [Phase.hasClosed]) closed),
        fun positive _ => closing_set there quiet' (early empty rfl positive)⟩
  next item rest _ =>
    obtain ⟨threads, notified, made⟩ := Option.bind_eq_some_iff.mp taken
    cases made
    exact sound.settles rfl rfl
      ((settles_set there quiet' (by simp) (by simp [Phase.hasClosed])).trans (settles_notifyOne notified))

theorem Sound.run {chosen : Option Nat} (sound : deque.Sound) (there : deque.threads[thread]? = some phase)
    (early : ¬ deque.ComesLate (.run thread chosen)) (taken : deque.run thread chosen phase = some next) : next.Sound := by
  cases phase with
  | idle | popWaiting _ | pushWaiting _ _ => cases taken
  | pop timed =>
    apply sound.popLoop there rfl _ taken
    rintro empty rfl positive
    by_contra quiet
    refine early ⟨positive, empty, fun phase member => ?_, there⟩
    cases closing : phase.closing with
    | false => rfl
    | true => exact absurd ⟨phase, member, closing⟩ quiet
  | popWoken timed timedOut =>
    rw [BlockDeque.run] at taken
    split at taken
    · cases taken
      exact sound.settles rfl rfl (settles_set there (by simp [Phase.closing]) (by simp) (by simp [Phase.hasClosed]))
    next going =>
      -- `isClose_` is not set, so no `Close` has returned.
      apply sound.popLoop there rfl _ taken
      intro _ _ positive
      rw [sound.closed positive, Bool.or_true] at going
      exact absurd rfl going
  | push front item =>
    rw [BlockDeque.run, pushLoop] at taken
    split at taken
    · cases taken
      exact sound.settles rfl rfl (settles_set there (by simp [Phase.closing]) (by simp) (by simp [Phase.hasClosed]))
    · obtain ⟨threads, notified, made⟩ := Option.bind_eq_some_iff.mp taken
      cases made
      exact sound.settles rfl rfl ((settles_set there (by simp [Phase.closing]) (by simp) (by simp [Phase.hasClosed])).trans
        (settles_notifyOne notified))
  | clear =>
    cases taken
    exact sound.settles rfl rfl (settles_set there (by simp [Phase.closing]) (by simp) (by simp [Phase.hasClosed]))
  | flush =>
    obtain ⟨threads, notified, made⟩ := Option.bind_eq_some_iff.mp taken
    cases made
    exact sound.settles rfl rfl ((settles_set there (by simp [Phase.closing]) (by simp) (by simp [Phase.hasClosed])).trans
      (settles_notifyOne notified))
  | close =>
    cases taken
    refine ⟨fun _ => rfl, fun _ => rfl, fun _ _ => ?_⟩
    exact closing_set there (fun _ => rfl) ⟨_, List.mem_of_getElem? there, rfl⟩
  | closeProducers =>
    cases taken
    exact sound.settles rfl rfl ((settles_set there (fun _ => rfl) (by simp) (fun _ => rfl)).trans (settles_notifyAll _ _))
  | closeConsumers =>
    cases taken
    have flag : deque.isClose = true := sound.closing ⟨_, List.mem_of_getElem? there, rfl⟩
    refine ⟨fun _ => flag, fun _ => flag, fun _ waits => ?_⟩
    -- All that waited have been woken.
    obtain ⟨phase, _, same⟩ := List.mem_map.mp waits
    unfold Phase.notified at same
    split at same
    · exact absurd same (phase.wake_ne_popWaiting false)
    next awake =>
      subst same
      exact absurd rfl awake

theorem Sound.step {action : Action α} (sound : deque.Sound) (early : ¬ deque.ComesLate action)
    (taken : deque.step action = some next) : next.Sound := by
  cases action with
  | call thread op =>
    rw [BlockDeque.step] at taken
    split at taken
    next there =>
      cases taken
      refine sound.settles rfl rfl ?_
      cases op <;> exact settles_set there (by simp [Phase.closing]) (by simp [Op.start]) (by simp [Op.start, Phase.hasClosed])
    next => cases taken
  | run thread chosen =>
    obtain ⟨phase, there, ran⟩ := Option.bind_eq_some_iff.mp taken
    exact sound.run there early ran
  | wake thread =>
    obtain ⟨phase, there, woken⟩ := Option.bind_eq_some_iff.mp taken
    split at woken
    · cases woken
      refine sound.settles rfl rfl (settles_set there ?_ (phase.wake_ne_popWaiting false) ?_)
      · exact fun closing => phase.closing_wake.trans closing
      · exact fun closed => phase.hasClosed_wake.symm.trans closed
    · cases woken
  | timeout thread =>
    rw [BlockDeque.step] at taken
    split at taken
    next there =>
      cases taken
      exact sound.settles rfl rfl (settles_set there (by simp [Phase.closing]) (by simp) (by simp [Phase.hasClosed]))
    next => cases taken

theorem sound_new (capacity threads : Nat) : (new capacity threads : BlockDeque α).Sound where
  closed positive := absurd positive (Nat.lt_irrefl 0)
  closing closing := by
    obtain ⟨phase, member, closed⟩ := closing
    rw [List.eq_of_mem_replicate member] at closed
    cases closed
  woken positive := absurd positive (Nat.lt_irrefl 0)

/-- Who comes late waits for good. -/
theorem ComesLate.blocked {action : Action α} (late : deque.ComesLate action) (taken : deque.step action = some next) :
    next.Blocked := by
  cases action with
  | call | wake | timeout => cases late
  | run thread chosen =>
    obtain ⟨positive, empty, quiet, there⟩ := late
    have waits : deque.step (.run thread chosen) = some { deque with threads := deque.threads.set thread (.popWaiting false) } := by
      rw [BlockDeque.step, there]
      show deque.popLoop thread false chosen = _
      rw [BlockDeque.popLoop, empty]
    cases waits.symm.trans taken
    refine ⟨positive, empty, fun phase member => ?_, ?_⟩
    · rcases List.mem_or_eq_of_mem_set member with member | rfl
      · exact quiet phase member
      · rfl
    · exact List.mem_of_getElem? (List.getElem?_set_self (List.getElem?_eq_some_iff.mp there).1)

/-- No consumer is left behind as long as none comes late, and only then. -/
theorem not_blocked_throughout_iff (capacity threads : Nat) (actions : List (Action α)) :
    Throughout step (fun _ _ next => ¬ next.Blocked) (new capacity threads) actions ↔
      Throughout step (fun deque action _ => ¬ deque.ComesLate action) (new capacity threads) actions := by
  apply throughout_iff Sound _ _ (sound_new capacity threads)
  · intro deque action next sound taken early
    exact sound.step early taken
  · intro deque action next sound taken
    constructor
    · exact fun free late => free (late.blocked taken)
    · exact fun early => (sound.step early taken).not_blocked

/-- The destructor of `Log` finds the deque empty and closes it while the thread that it will join is
between two calls of `pop`. -/
theorem writer_left_behind :
    ¬ ∀ (capacity threads : Nat) (actions : List (Action Nat)) (final : BlockDeque Nat), 0 < capacity →
      Run step (new capacity threads) actions final → ¬ final.Blocked := by
  intro never
  have ran : Run step (new 1000 2 : BlockDeque Nat)
      [.call 0 .close, .run 0 none, .run 0 none, .run 0 none, .call 1 (.pop false), .run 1 none]
      { capacity := 1000, isClose := true, threads := [.idle, .popWaiting false], closed := 1, history := [.cleared] } :=
    .cons rfl (.cons rfl (.cons rfl (.cons rfl (.cons rfl (.cons rfl (.nil _))))))
  exact never _ _ _ _ (by decide) ran ⟨by decide, rfl, by simp [Phase.closing], by simp⟩

end BlockDeque

end HttpFramework.Code
