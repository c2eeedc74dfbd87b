import HttpFramework.Gomoku.MaxOnline
import HttpFramework.Library.Transition
import Mathlib.Order.Bounds.Basic

/-! The greatest number of users online. A call that stores what it has made of an older value takes
back what others have stored in between. -/

namespace HttpFramework.Gomoku
open Transition

namespace MaxOnline

variable {server next : MaxOnline} {initial : Int} {call : Nat}

/-- The greatest of the initial value and the arguments. -/
def IsHighest (initial : Int) (server : MaxOnline) : Prop :=
  IsGreatest {value | value ∈ initial :: server.arguments} server.maxOnline

/-- The number does not fall, and when all calls have returned it is the highest. -/
structure Keeps (initial : Int) (server next : MaxOnline) : Prop where
  mono : server.maxOnline ≤ next.maxOnline
  final : (∀ update ∈ next.calls, update = .returned) → next.IsHighest initial

/-- A call stores although another one has stored more since it loaded. -/
def Overwrites (server : MaxOnline) : Action → Prop
  | .store call => ∃ online value stored, server.calls[call]? = some (.loaded online value stored) ∧
      ∃ later ∈ stored, max value online < later
  | _ => False

/-- What is known of the call with an argument. -/
def Knows (server : MaxOnline) (argument : Int) : Update → Prop
  | .called online => online = argument
  | .loaded online value stored => online = argument ∧ server.maxOnline ∈ value :: stored ∧
      (∀ earlier ∈ value :: stored, earlier ≤ server.maxOnline)
  | .returned => argument ≤ server.maxOnline

structure Sound (initial : Int) (server : MaxOnline) : Prop where
  attained : server.maxOnline ∈ initial :: server.arguments
  initial_le : initial ≤ server.maxOnline
  length : server.calls.length = server.arguments.length
  known : ∀ (call : Nat) update argument, server.calls[call]? = some update → server.arguments[call]? = some argument →
    server.Knows argument update

theorem Sound.final (sound : server.Sound initial) (ended : ∀ update ∈ server.calls, update = .returned) :
    server.IsHighest initial := by
  refine ⟨sound.attained, fun value member => ?_⟩
  rcases List.mem_cons.mp member with rfl | member
  · exact sound.initial_le
  · obtain ⟨call, there⟩ := List.mem_iff_getElem?.mp member
    have inside : call < server.calls.length := sound.length ▸ (List.getElem?_eq_some_iff.mp there).1
    have known := sound.known call _ _ (List.getElem?_eq_getElem inside) there
    rwa [ended _ (List.getElem_mem inside)] at known

theorem Sound.begin (sound : server.Sound initial) (online : Int) :
    Sound initial { server with calls := server.calls ++ [.called online], arguments := server.arguments ++ [online] } where
  attained := List.mem_cons.mpr ((List.mem_cons.mp sound.attained).imp id (List.mem_append_left _))
  initial_le := sound.initial_le
  length := by
    rw [List.length_append, List.length_append, sound.length]
    rfl
  known call update argument there there' := by
    rcases Nat.lt_or_ge call server.calls.length with old | new
    · rw [List.getElem?_append_left old] at there
      rw [List.getElem?_append_left (sound.length ▸ old)] at there'
      exact sound.known call update argument there there'
    · rw [List.getElem?_append_right new] at there
      rw [List.getElem?_append_right (sound.length ▸ new), ← sound.length] at there'
      cases position : call - server.calls.length with
      | zero =>
        rw [position] at there there'
        cases there
        cases there'
        rfl
      | succ n =>
        rw [position] at there
        cases there

theorem Sound.load {online : Int} (sound : server.Sound initial) (there : server.calls[call]? = some (.called online)) :
    Sound initial { server with calls := server.calls.set call (.loaded online server.maxOnline []) } where
  attained := sound.attained
  initial_le := sound.initial_le
  length := by
    rw [List.length_set]
    exact sound.length
  known other update argument found found' := by
    by_cases own : call = other
    · subst own
      have same : online = argument := sound.known call _ _ there found'
      rw [List.getElem?_set_self (List.getElem?_eq_some_iff.mp there).1] at found
      cases found
      exact ⟨same, List.mem_cons_self, fun earlier member => Int.le_of_eq (List.mem_singleton.mp member)⟩
    · rw [List.getElem?_set_ne own] at found
      exact sound.known other _ _ found found'

/-- What is known of a call stays known when another one stores more. -/
theorem Knows.passBy {argument stored : Int} {update : Update} (knows : server.Knows argument update)
    (rises : server.maxOnline ≤ stored) : Knows { server with maxOnline := stored } argument (update.passBy stored) := by
  cases update with
  | called online => exact knows
  | loaded online value before =>
    obtain ⟨same, _, below⟩ := knows
    refine ⟨same, ?_, fun earlier member => ?_⟩
    · rw [← List.cons_append]
      exact List.mem_append_right _ (List.mem_singleton.mpr rfl)
    · rw [← List.cons_append] at member
      rcases List.mem_append.mp member with member | member
      · exact (below earlier member).trans rises
      · exact Int.le_of_eq (List.mem_singleton.mp member)
  | returned => exact Int.le_trans knows rises

theorem Sound.store {online value : Int} {stored : List Int} (sound : server.Sound initial)
    (there : server.calls[call]? = some (.loaded online value stored)) (rises : server.maxOnline ≤ max value online) :
    Sound initial { server with
      maxOnline := max value online, calls := (server.calls.map (Update.passBy (max value online))).set call .returned } := by
  have inside : call < server.arguments.length := sound.length ▸ (List.getElem?_eq_some_iff.mp there).1
  obtain ⟨same, _, below⟩ := sound.known call _ _ there (List.getElem?_eq_getElem inside)
  constructor
  case attained =>
    -- What is stored is the argument, or the value that was loaded and is still there.
    rcases Int.le_total value online with less | less
    · rw [max_eq_right less, same]
      exact List.mem_cons_of_mem _ (List.getElem_mem inside)
    · rw [max_eq_left less] at rises ⊢
      have still : server.maxOnline = value := Int.le_antisymm rises (below value List.mem_cons_self)
      exact still ▸ sound.attained
  case initial_le => exact Int.le_trans sound.initial_le rises
  case length =>
    rw [List.length_set, List.length_map]
    exact sound.length
  case known =>
    intro other update argument found found'
    by_cases own : call = other
    · subst own
      have place : call < (server.calls.map (Update.passBy (max value online))).length := by
        rw [List.length_map, sound.length]
        exact inside
      rw [List.getElem?_set_self place] at found
      cases found
      cases found'.symm.trans (List.getElem?_eq_getElem inside)
      show server.arguments[call] ≤ max value online
      rw [← same]
      exact le_max_right _ _
    · rw [List.getElem?_set_ne own, List.getElem?_map] at found
      obtain ⟨before, there', rfl⟩ := Option.map_eq_some_iff.mp found
      exact (sound.known other _ _ there' found').passBy rises

/-- Without an overwrite the number rises. -/
theorem Sound.rises {online value : Int} {stored : List Int} (sound : server.Sound initial)
    (there : server.calls[call]? = some (.loaded online value stored)) (kept : ¬ server.Overwrites (.store call)) :
    server.maxOnline ≤ max value online := by
  have inside : call < server.arguments.length := sound.length ▸ (List.getElem?_eq_some_iff.mp there).1
  obtain ⟨_, attained, _⟩ := sound.known call _ _ there (List.getElem?_eq_getElem inside)
  rcases List.mem_cons.mp attained with loaded | later
  · rw [loaded]
    exact le_max_left _ _
  · by_contra more
    exact kept ⟨online, value, stored, there, server.maxOnline, later, not_le.mp more⟩

theorem Sound.step {action : Action} (sound : server.Sound initial) (kept : ¬ server.Overwrites action)
    (taken : server.step action = some next) : next.Sound initial ∧ server.maxOnline ≤ next.maxOnline := by
  cases action with
  | updateMaxOnline online =>
    cases taken
    exact ⟨sound.begin online, Int.le_refl _⟩
  | load call =>
    rw [MaxOnline.step] at taken
    split at taken
    next there =>
      cases taken
      exact ⟨sound.load there, Int.le_refl _⟩
    next => cases taken
  | store call =>
    rw [MaxOnline.step] at taken
    split at taken
    next there =>
      cases taken
      have rises := sound.rises there kept
      exact ⟨sound.store there rises, rises⟩
    next => cases taken

/-- An overwrite takes the number down. -/
theorem Overwrites.falls {action : Action} (sound : server.Sound initial) (overwrites : server.Overwrites action)
    (taken : server.step action = some next) : next.maxOnline < server.maxOnline := by
  cases action with
  | updateMaxOnline | load => cases overwrites
  | store call =>
    obtain ⟨online, value, stored, there, later, member, more⟩ := overwrites
    have inside : call < server.arguments.length := sound.length ▸ (List.getElem?_eq_some_iff.mp there).1
    obtain ⟨_, _, below⟩ := sound.known call _ _ there (List.getElem?_eq_getElem inside)
    rw [MaxOnline.step, there] at taken
    cases taken
    exact Int.lt_of_lt_of_le more (below later (List.mem_cons_of_mem _ member))

theorem sound_start (initial : Int) : Sound initial { maxOnline := initial } where
  attained := List.mem_cons_self
  initial_le := Int.le_refl _
  length := rfl
  known call update argument there := by cases there

/-- The number rises to the highest as long as no call overwrites a greater value that was stored
after it had loaded, and only then. -/
theorem rises_throughout_iff (initial : Int) (actions : List Action) :
    Throughout step (fun server _ next => Keeps initial server next) { maxOnline := initial } actions ↔
      Throughout step (fun server action _ => ¬ server.Overwrites action) { maxOnline := initial } actions := by
  apply throughout_iff (Sound initial) _ _ (sound_start initial)
  · intro server action next sound taken kept
    exact (sound.step kept taken).1
  · intro server action next sound taken
    constructor
    · exact fun keeps overwrites => Int.not_le.mpr (overwrites.falls sound taken) keeps.mono
    · intro kept
      obtain ⟨sound', rises⟩ := sound.step kept taken
      exact ⟨rises, sound'.final⟩

/-- Two users log in at once, the first and the second. -/
theorem login_overwritten :
    ¬ ∀ (initial : Int) (actions : List Action) (final : MaxOnline), Run step { maxOnline := initial } actions final →
      Throughout step (fun server _ next => Keeps initial server next) { maxOnline := initial } actions := by
  intro keeps
  have ran : Run step { maxOnline := 0 }
      [.updateMaxOnline 1, .updateMaxOnline 2, .load 0, .load 1, .store 1, .store 0]
      { maxOnline := 1, calls := [.returned, .returned], arguments := [1, 2] } :=
    .cons rfl (.cons rfl (.cons rfl (.cons rfl (.cons rfl (.cons rfl (.nil _))))))
  obtain ⟨_, rest⟩ := (throughout_cons rfl).mp (keeps 0 _ _ ran)
  obtain ⟨_, rest⟩ := (throughout_cons rfl).mp rest
  obtain ⟨_, rest⟩ := (throughout_cons rfl).mp rest
  obtain ⟨_, rest⟩ := (throughout_cons rfl).mp rest
  obtain ⟨_, rest⟩ := (throughout_cons rfl).mp rest
  obtain ⟨last, _⟩ := (throughout_cons rfl).mp rest
  exact absurd last.mono (by decide)

end MaxOnline

end HttpFramework.Gomoku
