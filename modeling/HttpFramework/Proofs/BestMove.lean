import HttpFramework.Proofs.GameWins

/-! Which cell `getBestMove` chooses, told from the board alone: the first one in which a stone
of either colour makes five in a row, and without such a cell the first of those whose threat
is greatest. The trial stones leave no trace, so both searches see the board of the game. -/

namespace HttpFramework.Gomoku
open Transition

namespace Board

variable {board changed : Board} {player : Cell} {place other move : Int × Int} {most : Nat}

/-- A stone of the player in this empty cell is one of five in a row. -/
def WinsAt (board : Board) (player : Cell) (place : Int × Int) : Prop :=
  Grid.get? board place = some .empty ∧
    ∃ changed : Board, Grid.set? board place player = some changed ∧ changed.FiveThrough player place

/-- Either colour has five in a row with a stone here. -/
def Forced (board : Board) (place : Int × Int) : Prop := board.WinsAt .white place ∨ board.WinsAt .black place

/-- No empty cell has a greater threat. -/
def Worst (board : Board) (place : Int × Int) : Prop :=
  ∃ threat, board.Threatens place threat ∧ ∀ other less, board.Threatens other less → less ≤ threat

/-- The first cell, row by row, with a property. -/
def First (property : Int × Int → Prop) (place : Int × Int) : Prop :=
  property place ∧ ∀ other, Grid.Before other place → ¬ property other

/-- The rule by which the computer moves. -/
def Best (board : Board) (place : Int × Int) : Prop :=
  First board.Forced place ∨ (∀ other, ¬ board.Forced other) ∧ First board.Worst place

theorem before_or_before (different : place ≠ other) : Grid.Before place other ∨ Grid.Before other place := by
  have apart : place.1 ≠ other.1 ∨ place.2 ≠ other.2 := by
    by_contra! same
    exact different (Prod.ext same.1 same.2)
  simp only [Grid.Before]
  omega

theorem First.unique {property : Int × Int → Prop} (first : First property place) (first' : First property other) :
    place = other := by
  by_contra different
  rcases before_or_before different with earlier | earlier
  · exact first'.2 place earlier first.1
  · exact first.2 other earlier first'.1

theorem Best.unique (best : board.Best place) (best' : board.Best other) : place = other := by
  rcases best with first | ⟨none, first⟩
  · rcases best' with first' | ⟨none', _⟩
    · exact first.unique first'
    · exact absurd first.1 (none' place)
  · rcases best' with first' | ⟨_, first'⟩
    · exact absurd first'.1 (none other)
    · exact first.unique first'

/-- The first place at which the list is cut comes first row by row. -/
theorem First.of_cut {property : Int × Int → Prop} (shaped : board.Shaped) {done rest : List (Int × Int)}
    (cut : cells = done ++ move :: rest) (holds : property move) (without : ∀ place ∈ done, ¬ property place)
    (vacant : ∀ place, property place → Grid.get? board place = some .empty) : First property move := by
  refine ⟨holds, ?_⟩
  intro place before found
  have inside := Grid.inside_of_get? shaped (vacant place found)
  exact without place (Grid.mem_of_before cut inside before) found

section
variable (shaped : board.Shaped)
include shaped

/-- The trial with one colour. -/
theorem winsAt_iff : board.WinsAt player place ↔ Grid.get? board place = some .empty ∧
    ∃ changed : Board, Grid.set? board place player = some changed ∧
      changed.checkWin place.1 place.2 player = some true := by
  refine and_congr_right fun _ => exists_congr fun changed => and_congr_right fun placed => ?_
  exact (checkWin_iff (shaped.set? placed) (Grid.get?_set?_self placed)).symm

theorem decides_iff : board.Decides place ↔ board.Forced place := by
  rw [Decides, Forced, winsAt_iff shaped, winsAt_iff shaped]
  exact and_or_left

theorem first_of_firstMost (first : board.FirstMost cells move most) : First board.Worst move := by
  obtain ⟨done, rest, cut, before, _⟩ := first.cut
  have most : board.Worst move := by
    refine ⟨most, first.threatens, ?_⟩
    intro other threat threatens
    have inside := Grid.inside_of_get? shaped threatens.1
    exact first.le (Grid.mem_places.mpr inside) threatens
  apply First.of_cut shaped cut most
  · intro place member ⟨threat, threatens, bound⟩
    have less := before place member threat threatens
    have least := bound move _ first.threatens
    omega
  · intro place ⟨_, threatens, _⟩
    exact threatens.1

/-- The computer keeps to the rule. -/
theorem getBestMove_best (vacant : ∃ place, Grid.get? board place = some .empty) (rand : Nat) :
    ∃ move changed, board.getBestMove rand = some (move, changed) ∧ board.Best move ∧
      Grid.set? board move aiPlayer = some changed := by
  rcases winOrBlock_spec shaped (fun _ member => member) with
    ⟨unforced, none⟩ | ⟨done, move, rest, changed, cut, without, forced, decides, placed⟩
  · obtain ⟨best, most, found, first⟩ := mostThreatened_spec shaped vacant
    have empty := first.threatens.1
    obtain ⟨changed, placed⟩ := Grid.set?_of_get? empty aiPlayer
    refine ⟨best, changed, getBestMove_of_most shaped unforced found empty placed rand, .inr ⟨?_, ?_⟩, placed⟩
    · intro place forced
      have decides := (decides_iff shaped).mpr forced
      exact none place (Grid.mem_places.mpr (Grid.inside_of_get? shaped decides.1)) decides
    · exact first_of_firstMost shaped first
  · refine ⟨move, changed, by simp [getBestMove, forced], .inl ?_, placed⟩
    apply First.of_cut shaped cut ((decides_iff shaped).mp decides)
    · intro place member forced
      exact without place member ((decides_iff shaped).mpr forced)
    · intro place forced
      exact ((decides_iff shaped).mpr forced).1

end

end Board

namespace AiGame

variable {game : AiGame} {userId : Int} {actions : List Action}

theorem counted_of_run (ran : Run step { userId } actions game) : game.Counted := by
  have start : AiGame.Counted { userId } ∧ AiGame.Decided { userId } :=
    ⟨(History.consistent_start userId).counted, decided_new userId⟩
  have preserves : ∀ (before : AiGame) action after, before.Counted ∧ before.Decided →
      step before action = some after → after.Counted ∧ after.Decided := by
    intro before action after ⟨counted, decided⟩ taken
    obtain ⟨next, taken', counted', decided', _⟩ := step_decided counted decided action
    cases taken.symm.trans taken'
    exact ⟨counted', decided'⟩
  exact (Run.invariant preserves start ran).1

/-- On every board that a game reaches, `getBestMove` chooses the one cell that the rule
names, and leaves the board with the stone in that cell as the only change. -/
theorem chooses_best (ran : Run step { userId } actions game)
    (vacant : ∃ place, Grid.get? game.board place = some .empty) (rand : Nat) :
    ∃ move changed, game.board.getBestMove rand = some (move, changed) ∧
      (∀ place, game.board.Best place ↔ place = move) ∧ Grid.set? game.board move .white = some changed := by
  obtain ⟨move, changed, chosen, best, placed⟩ := Board.getBestMove_best (counted_of_run ran).shaped vacant rand
  refine ⟨move, changed, chosen, ?_, placed⟩
  intro place
  exact ⟨fun best' => best'.unique best, fun same => same ▸ best⟩

theorem chooses_best_opening : ∃ game, Run step { userId := 1 } [.humanMove 7 7] game ∧
    ∃ move changed, game.board.getBestMove 0 = some (move, changed) ∧
      (∀ place, game.board.Best place ↔ place = move) ∧ Grid.set? game.board move .white = some changed :=
  have opening : Run step { userId := 1 } [.humanMove 7 7] _ := .cons rfl (.nil _)
  ⟨_, opening, chooses_best opening ⟨(0, 0), rfl⟩ 0⟩

end AiGame

end HttpFramework.Gomoku
