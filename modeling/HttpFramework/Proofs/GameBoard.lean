import HttpFramework.Gomoku.AiGame
import HttpFramework.Library.Loop
import HttpFramework.Library.Transition

/-! The board of a game over any sequence of moves. `getBestMove` tries stones of both colours
on the board itself and takes them away again. As long as a cell is empty it finds one, and
a game that is not drawn has an empty cell, because the moves are counted. -/

namespace HttpFramework.Gomoku
open Transition

namespace Board

variable {board : Board}

def Shaped (board : Board) : Prop := Grid.Shape boardSize boardSize board

theorem isInBoard_iff {place : Int × Int} : isInBoard place = true ↔ Grid.Inside boardSize boardSize place := by
  simp [isInBoard, Grid.Inside]

theorem Shaped.get? (shaped : board.Shaped) {place : Int × Int} (inside : isInBoard place = true) :
    ∃ cell, Grid.get? board place = some cell :=
  Grid.get?_of_inside shaped (isInBoard_iff.mp inside)

theorem Shaped.get?_of_mem (shaped : board.Shaped) {place : Int × Int} (member : place ∈ cells) :
    ∃ cell, Grid.get? board place = some cell :=
  Grid.get?_of_inside shaped (Grid.mem_places.mp member)

/-- The cell is empty, and a stone of one of the two colours would win in it. -/
def Decides (board : Board) (place : Int × Int) : Prop :=
  Grid.get? board place = some .empty ∧
    ((∃ changed : Board, Grid.set? board place aiPlayer = some changed ∧
        changed.checkWin place.1 place.2 aiPlayer = some true) ∨
      ∃ changed : Board, Grid.set? board place humanPlayer = some changed ∧
        changed.checkWin place.1 place.2 humanPlayer = some true)

/-- The threat of an empty cell. -/
def Threatens (board : Board) (place : Int × Int) (threat : Nat) : Prop :=
  Grid.get? board place = some .empty ∧ board.evaluateThreat place.1 place.2 = some threat

/-- The cell comes behind some that are less threatened and before some that are not more threatened. -/
structure FirstMost (board : Board) (places : List (Int × Int)) (move : Int × Int) (most : Nat) : Prop where
  threatens : board.Threatens move most
  cut : ∃ done rest, places = done ++ move :: rest ∧
    (∀ place ∈ done, ∀ threat, board.Threatens place threat → threat < most) ∧
    ∀ place ∈ rest, ∀ threat, board.Threatens place threat → threat ≤ most

namespace FirstMost

variable {places : List (Int × Int)} {move place : Int × Int} {most threat : Nat}

theorem le (first : board.FirstMost places move most) (member : place ∈ places) (threatens : board.Threatens place threat) :
    threat ≤ most := by
  obtain ⟨done, rest, cut, before, after⟩ := first.cut
  rw [cut] at member
  rcases List.mem_append.mp member with earlier | later
  · exact Nat.le_of_lt (before place earlier threat threatens)
  · rcases List.mem_cons.mp later with rfl | later
    · exact Nat.le_of_eq (Option.some.inj (threatens.2.symm.trans first.threatens.2))
    · exact after place later threat threatens

theorem extend (first : board.FirstMost places move most) (bounded : ∀ threat, board.Threatens place threat → threat ≤ most) :
    board.FirstMost (places ++ [place]) move most where
  threatens := first.threatens
  cut := by
    obtain ⟨done, rest, cut, before, after⟩ := first.cut
    refine ⟨done, rest ++ [place], by rw [cut, List.append_assoc, List.cons_append], before, ?_⟩
    intro other member
    rcases List.mem_append.mp member with member | same
    · exact after other member
    · cases List.mem_singleton.mp same
      exact bounded

end FirstMost

section
variable (shaped : board.Shaped)
include shaped

theorem countStones_total (player : Cell) (x y : Int) (direction : Int × Int) (steps : List Int) :
    ∃ count, board.countStones player x y direction steps = some count := by
  induction steps with
  | nil => exact ⟨0, rfl⟩
  | cons i rest ih =>
    obtain ⟨later, counted⟩ := ih
    rw [countStones]
    by_cases inside : isInBoard (x + direction.1 * i, y + direction.2 * i)
    · obtain ⟨cell, found⟩ := shaped.get? inside
      by_cases same : cell = player
      · exact ⟨later + 1, by simp [inside, found, same, counted]⟩
      · exact ⟨0, by simp [inside, found, same]⟩
    · exact ⟨0, by simp [inside]⟩

theorem checkWin_total (x y : Int) (player : Cell) : ∃ result, board.checkWin x y player = some result := by
  apply Loop.anyM_total
  intro direction _
  obtain ⟨forward, counted⟩ := countStones_total shaped player x y direction [1, 2, 3, 4]
  obtain ⟨backward, counted'⟩ := countStones_total shaped player x y direction [-1, -2, -3, -4]
  exact ⟨_, by rw [counted, counted']; rfl⟩

theorem countThreat_total (r c : Int) (direction : Int × Int) : ∃ count, board.countThreat r c direction = some count := by
  apply Loop.foldlM_total
  intro count i _
  by_cases inside : isInBoard (r + i * direction.1, c + i * direction.2)
  · obtain ⟨cell, found⟩ := shaped.get? inside
    by_cases human : cell = humanPlayer
    · exact ⟨count + 1, by simp [inside, found, human]⟩
    · exact ⟨count, by simp [inside, found, human]⟩
  · exact ⟨count, by simp [inside]⟩

theorem evaluateThreat_total (r c : Int) : ∃ threat, board.evaluateThreat r c = some threat := by
  apply Loop.foldlM_total
  intro threat direction _
  obtain ⟨count, counted⟩ := countThreat_total shaped r c direction
  exact ⟨threat + count, by rw [counted]; rfl⟩

/-- The search stops at the first cell that decides, with the stone of the computer in it. If there is
none, every cell is as it was. -/
theorem winOrBlock_spec {places : List (Int × Int)} (within : ∀ place ∈ places, place ∈ cells) :
    (winOrBlock board places = some (none, board) ∧ ∀ place ∈ places, ¬ board.Decides place) ∨
      ∃ done move rest changed, places = done ++ move :: rest ∧ (∀ place ∈ done, ¬ board.Decides place) ∧
        winOrBlock board places = some (some move, changed) ∧ board.Decides move ∧
        Grid.set? board move aiPlayer = some changed := by
  induction places with
  | nil => exact .inl ⟨rfl, nofun⟩
  | cons place rest ih =>
    have rest' := ih fun other member => within other (List.mem_cons_of_mem _ member)
    -- A cell that does not decide is passed by.
    have passed (skipped : winOrBlock board (place :: rest) = winOrBlock board rest) (undecided : ¬ board.Decides place) :
        (winOrBlock board (place :: rest) = some (none, board) ∧ ∀ other ∈ place :: rest, ¬ board.Decides other) ∨
        ∃ done move rest' changed, place :: rest = done ++ move :: rest' ∧ (∀ place ∈ done, ¬ board.Decides place) ∧
          winOrBlock board (place :: rest) = some (some move, changed) ∧ board.Decides move ∧
          Grid.set? board move aiPlayer = some changed := by
      rw [skipped]
      rcases rest' with ⟨unforced, none⟩ | ⟨done, move, rest', changed, cut, none, forced, decides, placed⟩
      · exact .inl ⟨unforced, List.forall_mem_cons.mpr ⟨undecided, none⟩⟩
      · exact .inr ⟨place :: done, move, rest', changed, congrArg (place :: ·) cut,
          List.forall_mem_cons.mpr ⟨undecided, none⟩, forced, decides, placed⟩
    obtain ⟨r, c⟩ := place
    obtain ⟨cell, found⟩ := shaped.get?_of_mem (within (r, c) List.mem_cons_self)
    by_cases occupied : cell = .empty
    · subst occupied
      -- Both trials end on the board as it was before them.
      obtain ⟨white, whitened⟩ := Grid.set?_of_get? found aiPlayer
      obtain ⟨black, blackened⟩ := Grid.set?_of_get? found humanPlayer
      have restored := Grid.set?_get? found
      obtain ⟨wins, tried⟩ := checkWin_total (shaped.set? whitened) r c aiPlayer
      obtain ⟨blocks, tried'⟩ := checkWin_total (shaped.set? blackened) r c humanPlayer
      cases wins with
      | true =>
        exact .inr ⟨[], (r, c), rest, white, rfl, nofun, by simp [winOrBlock, found, whitened, tried],
          ⟨found, .inl ⟨white, whitened, tried⟩⟩, whitened⟩
      | false =>
        cases blocks with
        | true =>
          refine .inr ⟨[], (r, c), rest, white, rfl, nofun, ?_, ⟨found, .inr ⟨black, blackened, tried'⟩⟩, whitened⟩
          simp [winOrBlock, found, whitened, tried, Grid.set?_set? whitened, restored, blackened, tried',
            Grid.set?_set? blackened]
        | false =>
          apply passed
          · simp [winOrBlock, found, whitened, tried, Grid.set?_set? whitened, restored, blackened, tried',
              Grid.set?_set? blackened]
          · intro decides
            rcases decides.2 with ⟨_, placed, won⟩ | ⟨_, placed, won⟩
            · cases whitened.symm.trans placed
              cases tried.symm.trans won
            · cases blackened.symm.trans placed
              cases tried'.symm.trans won
    · apply passed
      · simp [winOrBlock, found, occupied]
      · intro decides
        exact occupied (Option.some.inj (found.symm.trans decides.1))

/-- Every threat is greater than the one the search starts with, so that an empty cell is
found when there is one, and the first of those with the greatest threat. -/
theorem mostThreatened_spec (vacant : ∃ place, Grid.get? board place = some .empty) :
    ∃ best, ∃ most : Nat, board.mostThreatened = some (best, (most : Int)) ∧ board.FirstMost cells best most := by
  have searched : ∃ best, board.mostThreatened = some best ∧
      (best.2 = -1 ∧ (∀ place ∈ cells, Grid.get? board place ≠ some .empty) ∨
        ∃ most : Nat, best.2 = most ∧ board.FirstMost cells best.1 most) := by
    refine Loop.foldlM_rule (fun done (best : (Int × Int) × Int) =>
      best.2 = -1 ∧ (∀ place ∈ done, Grid.get? board place ≠ some .empty) ∨
        ∃ most : Nat, best.2 = most ∧ board.FirstMost done best.1 most) ?_ (.inl ⟨rfl, nofun⟩)
    intro done place best member holds
    obtain ⟨cell, found⟩ := shaped.get?_of_mem member
    by_cases empty : cell = .empty
    · subst empty
      obtain ⟨threat, evaluated⟩ := evaluateThreat_total shaped place.1 place.2
      by_cases more : best.2 < threat
      · refine ⟨(place, threat), by simp [found, evaluated, more], .inr ⟨threat, rfl, ⟨found, evaluated⟩, done, [], rfl, ?_, nofun⟩⟩
        intro other there threat' threatens
        rcases holds with ⟨_, none⟩ | ⟨most, same, first⟩
        · exact absurd threatens.1 (none other there)
        · have below := first.le there threatens
          omega
      · refine ⟨best, by simp [found, evaluated, more], ?_⟩
        rcases holds with ⟨start, _⟩ | ⟨most, same, first⟩
        · omega
        · refine .inr ⟨most, same, first.extend ?_⟩
          intro threat' threatens
          cases evaluated.symm.trans threatens.2
          omega
    · have occupied : ¬ Grid.get? board place = some .empty := by
        rw [found]
        exact fun same => empty (Option.some_inj.mp same)
      refine ⟨best, by simp [found, empty], ?_⟩
      rcases holds with ⟨start, none⟩ | ⟨most, same, first⟩
      · refine .inl ⟨start, ?_⟩
        intro other there
        rcases List.mem_append.mp there with earlier | same
        · exact none other earlier
        · cases List.mem_singleton.mp same
          exact occupied
      · exact .inr ⟨most, same, first.extend fun _ threatens => absurd threatens.1 occupied⟩
  obtain ⟨best, found, result⟩ := searched
  rcases result with ⟨_, none⟩ | ⟨most, same, first⟩
  · obtain ⟨place, empty⟩ := vacant
    exact absurd empty (none place (Grid.mem_places.mpr (Grid.inside_of_get? shaped empty)))
  · exact ⟨best.1, most, by rw [found, ← same], first⟩

theorem getBestMove_of_most {best : Int × Int} {most : Int} {changed : Board} (unforced : winOrBlock board cells = some (none, board))
    (found : board.mostThreatened = some (best, most)) (empty : Grid.get? board best = some .empty)
    (placed : Grid.set? board best aiPlayer = some changed) (rand : Nat) : board.getBestMove rand = some (best, changed) := by
  have inside : best.1 ≠ -1 := by
    have within := Grid.inside_of_get? shaped empty
    simp only [Grid.Inside] at within
    omega
  simp [getBestMove, unforced, found, inside, placed]

/-- A cell that was empty is chosen, and only the stone of the computer is left in it. -/
theorem getBestMove_spec (vacant : ∃ place, Grid.get? board place = some .empty) (rand : Nat) :
    ∃ move changed, board.getBestMove rand = some (move, changed) ∧
      Grid.get? board move = some .empty ∧ Grid.set? board move aiPlayer = some changed := by
  rcases winOrBlock_spec shaped (fun _ member => member) with ⟨unforced, _⟩ | ⟨_, move, _, changed, _, _, forced, decides, placed⟩
  · obtain ⟨best, most, found, first⟩ := mostThreatened_spec shaped vacant
    have empty := first.threatens.1
    obtain ⟨changed, placed⟩ := Grid.set?_of_get? empty aiPlayer
    exact ⟨best, changed, getBestMove_of_most shaped unforced found empty placed rand, empty, placed⟩
  · exact ⟨move, changed, by simp [getBestMove, forced], decides.1, placed⟩

end

end Board

namespace AiGame

variable {game after : AiGame} {move : Int × Int} {stone : Cell}

structure Counted (game : AiGame) : Prop where
  shaped : game.board.Shaped
  count : game.moveCount = Grid.count (fun cell => cell ≠ .empty) game.board

structure Fills (game after : AiGame) (move : Int × Int) (stone : Cell) : Prop where
  empty : Grid.get? game.board move = some .empty
  placed : Grid.set? game.board move stone = some after.board
  count : after.moveCount = game.moveCount + 1
  last : after.lastMove = move

theorem Counted.fill (counted : game.Counted) (fills : game.Fills after move stone)
    (coloured : stone ≠ .empty) : after.Counted where
  shaped := counted.shaped.set? fills.placed
  count := by
    rw [fills.count, counted.count]
    exact (Grid.count_set? fills.empty fills.placed (by simp) (by simpa using coloured)).symm

theorem Counted.vacant (counted : game.Counted) (undrawn : game.isDraw = false) :
    ∃ place, Grid.get? game.board place = some .empty := by
  have less : Grid.count (fun cell => cell ≠ .empty) game.board < boardSize * boardSize := by
    rw [← counted.count]
    simpa [isDraw] using undrawn
  obtain ⟨place, cell, found, empty⟩ := Grid.exists_of_count_lt counted.shaped less
  have same : cell = .empty := by simpa using empty
  exact ⟨place, same ▸ found⟩

theorem humanMove_spec (counted : game.Counted) (x y : Int) :
    game.humanMove x y = some (false, game) ∨
      ∃ after, game.humanMove x y = some (true, after) ∧ game.Fills after (x, y) humanPlayer := by
  by_cases outside : x < 0 ∨ boardSize ≤ x ∨ y < 0 ∨ boardSize ≤ y
  · exact .inl (by simp [humanMove, isValidMove, outside])
  · have inside : Grid.Inside boardSize boardSize (x, y) := by
      simp only [Grid.Inside]
      omega
    obtain ⟨cell, found⟩ := Grid.get?_of_inside counted.shaped inside
    by_cases empty : cell = .empty
    · subst empty
      cases ended : game.gameOver || game.isDraw with
      | true => exact .inl (by simp [humanMove, isValidMove, outside, found, ended])
      | false =>
        obtain ⟨board, placed⟩ := Grid.set?_of_get? found humanPlayer
        obtain ⟨wins, tested⟩ := Board.checkWin_total (counted.shaped.set? placed) x y humanPlayer
        refine .inr ⟨{ game with
          board
          moveCount := game.moveCount + 1
          lastMove := (x, y)
          gameOver := wins || game.gameOver
          winner := if wins then .human else game.winner }, ?_, found, placed, rfl, rfl⟩
        cases wins <;> simp [humanMove, isValidMove, outside, found, ended, placed, tested]
    · exact .inl (by simp [humanMove, isValidMove, outside, found, empty])

theorem isValidMove_of_humanMove {x y : Int} {made : Bool} (moved : game.humanMove x y = some (made, after)) :
    game.isValidMove x y = some made := by
  simp only [humanMove, Option.bind_eq_bind, Option.bind_eq_some_iff] at moved
  obtain ⟨valid, tested, rest⟩ := moved
  rw [tested]
  cases valid with
  | false => cases rest; rfl
  | true =>
    simp only [if_true, Option.bind_eq_some_iff] at rest
    obtain ⟨board, _, wins, _, result⟩ := rest
    cases wins <;> (cases result; rfl)

theorem open_of_isValidMove {x y : Int} (valid : game.isValidMove x y = some true) :
    (game.gameOver || game.isDraw) = false := by
  simp only [isValidMove] at valid
  split at valid
  · simp at valid
  · cases found : Grid.get? game.board (x, y) with
    | none => simp [found] at valid
    | some cell =>
      by_cases empty : cell = .empty
      · simpa [found, empty] using valid
      · simp [found, empty] at valid

theorem aiMove_spec (counted : game.Counted) (rand : Nat) (playing : (game.gameOver || game.isDraw) = false) :
    ∃ move after, game.aiMove rand = some after ∧ (game.board.getBestMove rand).map Prod.fst = some move ∧
      game.Fills after move aiPlayer := by
  have undrawn : game.isDraw = false := by simpa using (Bool.or_eq_false_iff.mp playing).2
  obtain ⟨move, board, chosen, empty, placed⟩ := Board.getBestMove_spec counted.shaped (counted.vacant undrawn) rand
  have again : Grid.set? board move aiPlayer = some board := Grid.set?_get? (Grid.get?_set?_self placed)
  obtain ⟨wins, tested⟩ := Board.checkWin_total (counted.shaped.set? placed) move.1 move.2 aiPlayer
  refine ⟨move, { game with
    board
    moveCount := game.moveCount + 1
    lastMove := move
    gameOver := wins || game.gameOver
    winner := if wins then .ai else game.winner }, ?_, by rw [chosen]; rfl, empty, placed, rfl, rfl⟩
  cases wins <;> simp [aiMove, playing, chosen, again, tested]

/-- Exactly one cell differs: it was empty, and has the stone now. -/
structure OneCell (game after : AiGame) (move : Int × Int) (stone : Cell) : Prop where
  differences : Grid.differences boardSize boardSize game.board after.board = [move]
  before : Grid.get? game.board move = some .empty
  after : Grid.get? after.board move = some stone

theorem Fills.oneCell (fills : game.Fills after move stone) (counted : game.Counted) (coloured : stone ≠ .empty) :
    game.OneCell after move stone where
  differences := Grid.differences_set? counted.shaped fills.empty coloured.symm fills.placed
  before := fills.empty
  after := Grid.get?_set?_self fills.placed

/-- A game with the cells that have changed, the last one first. -/
structure History where
  game : AiGame
  changed : List (Int × Int) := []

namespace History

def extend (history : History) (after : AiGame) : History where
  game := after
  changed := Grid.differences boardSize boardSize history.game.board after.board ++ history.changed

def step (history : History) (action : Action) : Option History := (history.game.step action).map history.extend

structure Consistent (history : History) : Prop where
  shaped : Grid.Shape boardSize boardSize history.game.board
  count : history.game.moveCount = Grid.count (fun cell => cell ≠ .empty) history.game.board
  last : history.game.lastMove = history.changed.head?.getD (-1, -1)

def Plays (before : History) (action : Action) (after : History) : Prop :=
  match action with
  | .humanMove x y => ∃ made, before.game.humanMove x y = some (made, after.game) ∧
      if made then before.game.OneCell after.game (x, y) .black else after = before
  | .aiMove rand =>
    if before.game.gameOver || before.game.isDraw then after = before
    else ∃ move, (before.game.board.getBestMove rand).map Prod.fst = some move ∧ before.game.OneCell after.game move .white

theorem Consistent.counted {history : History} (consistent : history.Consistent) : history.game.Counted :=
  ⟨consistent.shaped, consistent.count⟩

theorem Consistent.fill {history : History} (consistent : history.Consistent) {after : AiGame} {move : Int × Int}
    {stone : Cell} (fills : history.game.Fills after move stone) (coloured : stone ≠ .empty) :
    (history.extend after).Consistent where
  shaped := (consistent.counted.fill fills coloured).shaped
  count := (consistent.counted.fill fills coloured).count
  last := by
    rw [extend, (fills.oneCell consistent.counted coloured).differences]
    exact fills.last

theorem extend_self (history : History) : history.extend history.game = history := by
  rw [extend, Grid.differences_self]
  rfl

theorem step_plays {history : History} (consistent : history.Consistent) (action : Action) :
    ∃ next, history.step action = some next ∧ history.Plays action next ∧ next.Consistent := by
  cases action with
  | humanMove x y =>
    rcases humanMove_spec consistent.counted x y with refused | ⟨after, made, fills⟩
    · refine ⟨history, ?_, ⟨false, refused, rfl⟩, consistent⟩
      rw [step, AiGame.step, refused]
      exact congrArg some history.extend_self
    · have filled := fills.oneCell consistent.counted (by decide)
      refine ⟨history.extend after, ?_, ⟨true, made, filled⟩, consistent.fill fills (by decide)⟩
      rw [step, AiGame.step, made]
      rfl
  | aiMove rand =>
    cases ended : history.game.gameOver || history.game.isDraw with
    | true =>
      refine ⟨history, ?_, ?_, consistent⟩
      · rw [step, AiGame.step, aiMove, ended]
        exact congrArg some history.extend_self
      · simp [Plays, ended]
    | false =>
      obtain ⟨move, after, made, chosen, fills⟩ := aiMove_spec consistent.counted rand ended
      have filled := fills.oneCell consistent.counted (by decide)
      refine ⟨history.extend after, ?_, ?_, consistent.fill fills (by decide)⟩
      · rw [step, AiGame.step, made]
        rfl
      · simp only [Plays, ended]
        exact ⟨move, chosen, filled⟩

theorem consistent_start (userId : Int) : Consistent { game := { userId } } where
  shaped := Grid.replicate_shape _ _ _
  count := by
    show 0 = Grid.count _ (List.replicate boardSize (List.replicate boardSize Cell.empty))
    decide
  last := rfl

/-- For every user and every sequence of calls, with any coordinates and any numbers that
`rand` returns: every call succeeds without indexing outside the board, changes what it
should and nothing else, and the game is consistent after it as it was at the start. -/
theorem game_consistent (userId : Int) (actions : List Action) :
    Consistent { game := { userId } } ∧
      Throughout step (fun before action after => before.Plays action after ∧ after.Consistent)
        { game := { userId } } actions := by
  refine ⟨consistent_start userId, throughout_of_progress Consistent ?_ (consistent_start userId) actions⟩
  intro history action consistent
  obtain ⟨next, taken, plays, kept⟩ := step_plays consistent action
  exact ⟨next, taken, ⟨plays, kept⟩, kept⟩

end History

end AiGame

end HttpFramework.Gomoku
