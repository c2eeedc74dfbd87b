import HttpFramework.Proofs.BestMove

/-! What a move of the computer does about lines that one more stone would complete. A line of the
computer and a line of the other player are looked for in the same pass over the cells, so the one
that is met first is answered. -/

namespace HttpFramework.Gomoku
open Transition

set_option maxRecDepth 4000

namespace Board

variable {board changed : Board} {player stone : Cell} {place move : Int × Int}

/-- All stones of the line but the new one are there already. -/
theorem winsAt_iff_line : board.WinsAt player place ↔ Grid.get? board place = some .empty ∧
    ∃ start, ∃ direction ∈ directions, (∃ k : Nat, k < 5 ∧ along start direction k = place) ∧
      ∀ k : Nat, k < 5 → along start direction k ≠ place → Grid.get? board (along start direction k) = some player := by
  refine and_congr_right fun vacant => ?_
  constructor
  · intro ⟨changed, fills, start, direction, member, line, passes⟩
    refine ⟨start, direction, member, passes, ?_⟩
    intro k less apart
    rw [← line k less, Grid.get?_set? fills, if_neg apart]
  · intro ⟨start, direction, member, passes, line⟩
    obtain ⟨changed, fills⟩ := Grid.set?_of_get? vacant player
    refine ⟨changed, fills, start, direction, member, ?_, passes⟩
    intro k less
    rw [Grid.get?_set? fills]
    by_cases same : along start direction k = place
    · rw [if_pos same]
    · rw [if_neg same, line k less same]

/-- A stone of one colour completes no line of another. -/
theorem winsAt_of_set? (placed : Grid.set? board move stone = some changed) (coloured : stone ≠ .empty)
    (other : stone ≠ player) (wins : changed.WinsAt player place) : board.WinsAt player place := by
  obtain ⟨vacant, start, direction, member, passes, line⟩ := winsAt_iff_line.mp wins
  have untouched {there : Int × Int} {cell : Cell} (different : stone ≠ cell) (found : Grid.get? changed there = some cell) :
      Grid.get? board there = some cell := by
    rw [Grid.get?_set? placed] at found
    split at found
    next => exact absurd (Option.some_inj.mp found) different
    next => exact found
  refine winsAt_iff_line.mpr ⟨untouched coloured vacant, start, direction, member, passes, ?_⟩
  intro k less apart
  exact untouched other (line k less apart)

/-- Where lines can be completed, the rule chooses the first such cell. -/
theorem Best.forced (best : board.Best move) (some : ∃ place, board.Forced place) : First board.Forced move := by
  rcases best with first | ⟨none, _⟩
  · exact first
  · obtain ⟨place, forced⟩ := some
    exact absurd forced (none place)

end Board

namespace AiGame

variable {game after : AiGame} {userId : Int} {actions : List Action} {move : Int × Int}

/-- A move of the computer in a game that goes on. -/
structure Answers (game after : AiGame) (move : Int × Int) : Prop where
  best : game.board.Best move
  fills : game.Fills after move aiPlayer
  judges : game.Judges after move aiPlayer .ai

theorem aiMove_answers (counted : game.Counted) (playing : (game.gameOver || game.isDraw) = false) (rand : Nat) :
    ∃ move after, game.aiMove rand = some after ∧ game.Answers after move := by
  have undrawn : game.isDraw = false := (Bool.or_eq_false_iff.mp playing).2
  obtain ⟨move, after, made, chosen, fills⟩ := aiMove_spec counted rand playing
  obtain ⟨best, _, chosen', rule, _⟩ := Board.getBestMove_best counted.shaped (counted.vacant undrawn) rand
  have same : best = move := by
    rw [chosen'] at chosen
    exact Option.some_inj.mp chosen
  exact ⟨move, after, made, same ▸ rule, fills, aiMove_judges playing made chosen⟩

/-- The computer has won exactly if its stone completes a line. -/
theorem Answers.won_iff (answers : game.Answers after move) (counted : game.Counted) :
    after.gameOver = true ∧ after.winner = .ai ↔ game.board.WinsAt .white move := by
  have here := Grid.get?_set?_self answers.fills.placed
  have completes := Board.checkWin_iff (counted.shaped.set? answers.fills.placed) here
  rw [answers.judges.checked, Option.some_inj] at completes
  constructor
  · intro won
    exact ⟨answers.fills.empty, _, answers.fills.placed, completes.mp won.1⟩
  · intro ⟨_, changed, placed, through⟩
    cases answers.fills.placed.symm.trans placed
    have ended := completes.mpr through
    exact ⟨ended, by rw [answers.judges.won, if_pos ended]⟩

/-- The computer takes a win exactly if one of its winning cells comes before all cells in which
the other player would win. -/
theorem takes_win_iff (ran : Run step { userId } actions game) (playing : (game.gameOver || game.isDraw) = false)
    (winning : ∃ place, game.board.WinsAt .white place) (rand : Nat) :
    (∃ after, game.aiMove rand = some after ∧ after.gameOver = true ∧ after.winner = .ai) ↔
      ∃ place, game.board.WinsAt .white place ∧ ∀ other, Grid.Before other place → ¬ game.board.WinsAt .black other := by
  have counted := counted_of_run ran
  obtain ⟨move, after, made, answers⟩ := aiMove_answers counted playing rand
  have first := answers.best.forced (winning.imp fun _ wins => .inl wins)
  constructor
  · intro ⟨after', made', won⟩
    cases made.symm.trans made'
    exact ⟨move, (answers.won_iff counted).mp won, fun other earlier wins => first.2 other earlier (.inr wins)⟩
  · intro ⟨place, wins, unforced⟩
    refine ⟨after, made, (answers.won_iff counted).mpr ?_⟩
    by_cases same : move = place
    · exact same ▸ wins
    · rcases Board.before_or_before same with earlier | later
      · exact first.1.resolve_right (unforced move earlier)
      · exact absurd (.inl wins) (first.2 place later)

/-- Rows of four in the corner, each answered at its end. The answers make a column of four. -/
def cornerRows : List Action :=
  [.humanMove 0 0, .humanMove 0 1, .humanMove 0 2, .humanMove 0 3, .aiMove 0,
    .humanMove 1 0, .humanMove 1 1, .humanMove 1 2, .humanMove 1 3, .aiMove 0,
    .humanMove 2 0, .humanMove 2 1, .humanMove 2 2, .humanMove 2 3, .aiMove 0,
    .humanMove 3 0, .humanMove 3 1, .humanMove 3 2, .humanMove 3 3, .aiMove 0]

/-- White would win at the end of the column, and does not when it is told to move. -/
def passesOver (game : AiGame) : Bool :=
  !(game.gameOver || game.isDraw) && Grid.get? game.board (4, 4) = some .empty &&
    (Grid.set? game.board (4, 4) .white).any (fun changed => Board.checkWin changed 4 4 .white = some true) &&
    (game.aiMove 0).all fun after => after.winner ≠ .ai

theorem cornerRows_passesOver : ∃ game, Run step { userId := 1 } cornerRows game ∧
    (game.gameOver || game.isDraw) = false ∧ (∃ place, game.board.WinsAt .white place) ∧
      ∀ after, game.aiMove 0 = some after → after.winner ≠ .ai := by
  have checked : (cornerRows.foldlM step { userId := 1 }).any passesOver = true := by decide
  obtain ⟨game, ran, facts⟩ := run_of_check checked
  simp only [passesOver, Bool.and_eq_true, Bool.not_eq_true', decide_eq_true_eq, Option.any_eq_true, Option.all_eq_true] at facts
  obtain ⟨⟨⟨playing, vacant⟩, changed, placed, completes⟩, passed⟩ := facts
  refine ⟨game, ran, playing, ⟨(4, 4), ?_⟩, passed⟩
  exact (Board.winsAt_iff (counted_of_run ran).shaped).mpr ⟨vacant, changed, placed, completes⟩

/-- The column could be completed, and the computer closes a column of the other player instead. -/
theorem win_passed_over : ¬ ∀ userId actions game rand, Run step { userId } actions game →
    (game.gameOver || game.isDraw) = false → (∃ place, game.board.WinsAt .white place) →
      ∃ after, game.aiMove rand = some after ∧ after.gameOver = true ∧ after.winner = .ai := by
  intro claimed
  obtain ⟨game, ran, playing, winning, passed⟩ := cornerRows_passesOver
  obtain ⟨after, made, _, won⟩ := claimed 1 cornerRows game 0 ran playing winning
  exact passed after made won

theorem takes_win_iff_corner : ∃ game, Run step { userId := 1 } cornerRows game ∧
    ((∃ after, game.aiMove 0 = some after ∧ after.gameOver = true ∧ after.winner = .ai) ↔
      ∃ place, game.board.WinsAt .white place ∧ ∀ other, Grid.Before other place → ¬ game.board.WinsAt .black other) := by
  obtain ⟨game, ran, playing, winning, _⟩ := cornerRows_passesOver
  exact ⟨game, ran, takes_win_iff ran playing winning 0⟩

/-- The only line that the other player could complete is closed. -/
theorem blocks_single_threat (ran : Run step { userId } actions game) (playing : (game.gameOver || game.isDraw) = false)
    (harmless : ∀ place, ¬ game.board.WinsAt .white place) (single : ∃! place, game.board.WinsAt .black place) (rand : Nat) :
    ∃ after, game.aiMove rand = some after ∧ ∀ place, ¬ after.board.WinsAt .black place := by
  obtain ⟨threat, threatens, only⟩ := single
  obtain ⟨move, after, made, answers⟩ := aiMove_answers (counted_of_run ran) playing rand
  have first := answers.best.forced ⟨threat, .inr threatens⟩
  have blocked : move = threat := only move (first.1.resolve_left (harmless move))
  refine ⟨after, made, ?_⟩
  intro place wins
  have before := Board.winsAt_of_set? answers.fills.placed (by decide) (by decide) wins
  have here : place = move := (only place before).trans blocked.symm
  have occupied := Grid.get?_set?_self answers.fills.placed
  rw [← here, wins.1] at occupied
  cases occupied

def topRow : List Action := [.humanMove 0 0, .humanMove 0 1, .humanMove 0 2, .humanMove 0 3]

/-- Four stones stand at the beginning of the first row, and there are no others. -/
def threatensOnce (game : AiGame) : Bool :=
  !(game.gameOver || game.isDraw) && Grid.get? game.board (0, 4) = some .empty &&
    cells.all fun place => Grid.get? game.board place ≠ some .white ∧
      (Grid.get? game.board place = some .black ↔ place.1 = 0 ∧ place.2 < 4)

/-- Of the five cells of a line, four are among those with stones. -/
theorem winsAt_topRow (shaped : game.board.Shaped) {player : Cell} (coloured : player ≠ .empty)
    (stones : ∀ place ∈ cells, Grid.get? game.board place ≠ some .white ∧
      (Grid.get? game.board place = some .black ↔ place.1 = 0 ∧ place.2 < 4))
    (wins : game.board.WinsAt player move) : player = .black ∧ move = (0, 4) := by
  obtain ⟨vacant, start, direction, member, _, line⟩ := Board.winsAt_iff_line.mp wins
  have stone (k : Nat) (less : k < 5) : along start direction k = move ∨ player = .black ∧
      (along start direction k).1 = 0 ∧ 0 ≤ (along start direction k).2 ∧ (along start direction k).2 < 4 := by
    by_cases same : along start direction k = move
    · exact .inl same
    · have found := line k less same
      have there := Grid.inside_of_get? shaped found
      have placed := stones _ (Grid.mem_places.mpr there)
      cases player with
      | empty => exact absurd rfl coloured
      | white => exact absurd found placed.1
      | black =>
        have top := placed.2.mp found
        exact .inr ⟨rfl, top.1, there.2.2.1, top.2⟩
  have inside := Grid.inside_of_get? shaped vacant
  have apart : ¬ (move.1 = 0 ∧ move.2 < 4) := by
    intro top
    have black := (stones move (Grid.mem_places.mpr inside)).2.mpr top
    rw [vacant] at black
    cases black
  have first := stone 0 (by decide)
  have second := stone 1 (by decide)
  have third := stone 2 (by decide)
  have fourth := stone 3 (by decide)
  have fifth := stone 4 (by decide)
  simp only [Grid.Inside] at inside
  simp only [Prod.ext_iff, along] at first second third fourth fifth ⊢
  simp only [directions, List.mem_cons, List.not_mem_nil, or_false] at member
  by_cases black : player = .black
  · simp only [black, true_and] at first second third fourth fifth ⊢
    rcases member with rfl | rfl | rfl | rfl <;> omega
  · simp only [black, false_and, or_false] at first second
    rcases member with rfl | rfl | rfl | rfl <;> omega

theorem blocks_single_threat_row : ∃ game, Run step { userId := 1 } topRow game ∧
    ∃ after, game.aiMove 0 = some after ∧ ∀ place, ¬ after.board.WinsAt .black place := by
  have checked : (topRow.foldlM step { userId := 1 }).any threatensOnce = true := by decide
  obtain ⟨game, ran, facts⟩ := run_of_check checked
  simp only [threatensOnce, Bool.and_eq_true, Bool.not_eq_true', decide_eq_true_eq, List.all_eq_true] at facts
  obtain ⟨⟨playing, vacant⟩, stones⟩ := facts
  have shaped := (counted_of_run ran).shaped
  refine ⟨game, ran, blocks_single_threat ran playing ?_ ⟨(0, 4), ?_, ?_⟩ 0⟩
  · intro place wins
    cases (winsAt_topRow shaped (by decide) stones wins).1
  · refine Board.winsAt_iff_line.mpr ⟨vacant, (0, 0), (0, 1), by decide, ⟨4, by decide, rfl⟩, ?_⟩
    intro k less apart
    have top : along (0, 0) (0, 1) k ∈ cells := Grid.mem_places.mpr (by simp only [Grid.Inside, along, boardSize]; omega)
    refine (stones _ top).2.mpr ?_
    simp only [along, ne_eq, Prod.mk.injEq] at apart ⊢
    omega
  · intro place wins
    exact (winsAt_topRow shaped (by decide) stones wins).2

end AiGame

end HttpFramework.Gomoku
