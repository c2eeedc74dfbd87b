import HttpFramework.Proofs.GameBoard

/-! Who has won. `checkWin` looks only around the last stone, four steps each way. A line of five
that a move makes passes through the stone it places, so nothing is missed: a game is over
exactly when five stones of one colour stand in a line. -/

namespace HttpFramework.Gomoku
open Transition

/-- The cell some steps away in a direction. -/
def along (place direction : Int × Int) (steps : Int) : Int × Int :=
  (place.1 + direction.1 * steps, place.2 + direction.2 * steps)

theorem along_along (place direction : Int × Int) (first second : Int) :
    along (along place direction first) direction second = along place direction (first + second) := by
  simp only [along, Int.mul_add, Int.add_assoc]

theorem along_zero (place direction : Int × Int) : along place direction 0 = place := by
  simp [along]

namespace Board

variable {board changed : Board} {player stone : Cell} {place move direction : Int × Int}

def Line (board : Board) (player : Cell) (start direction : Int × Int) : Prop :=
  ∀ k : Nat, k < 5 → Grid.get? board (along start direction k) = some player

/-- Five consecutive stones of a player in a row, a column or a diagonal. -/
def Five (board : Board) (player : Cell) : Prop := ∃ start, ∃ direction ∈ directions, board.Line player start direction

def FiveThrough (board : Board) (player : Cell) (place : Int × Int) : Prop :=
  ∃ start, ∃ direction ∈ directions, board.Line player start direction ∧ ∃ k : Nat, k < 5 ∧ along start direction k = place

private theorem le_takeWhile {property : Int → Bool} {steps : List Int} {n : Nat} (within : n ≤ steps.length) :
    n ≤ (steps.takeWhile property).length ↔ ∀ i ∈ steps.take n, property i = true := by
  induction steps generalizing n with
  | nil =>
    have none : n = 0 := Nat.le_zero.mp within
    simp [none]
  | cons i rest ih =>
    cases n with
    | zero => simp
    | succ n =>
      cases holds : property i with
      | true => simpa [holds] using ih (Nat.le_of_succ_le_succ within)
      | false => simp [holds]

private theorem mem_ahead {n : Nat} (bound : n ≤ 4) {i : Int} : i ∈ [1, 2, 3, 4].take n ↔ 1 ≤ i ∧ i ≤ n := by
  interval_cases n <;> simp <;> omega

private theorem mem_behind {n : Nat} (bound : n ≤ 4) {i : Int} : i ∈ [-1, -2, -3, -4].take n ↔ -n ≤ i ∧ i ≤ -1 := by
  interval_cases n <;> simp <;> omega

/-- The stones counted both ways and the one between them are five or more when five in a row
have the one between them among them. -/
private theorem five_iff {property : Int → Bool} (here : property 0 = true) :
    5 ≤ 1 + ([1, 2, 3, 4].takeWhile property).length + ([-1, -2, -3, -4].takeWhile property).length ↔
      ∃ back : Nat, back < 5 ∧ ∀ k : Nat, k < 5 → property (k - back) = true := by
  constructor
  · intro five
    have most : ([-1, -2, -3, -4].takeWhile property).length ≤ 4 := (List.takeWhile_sublist _).length_le
    have behind := (le_takeWhile most).mp (Nat.le_refl _)
    generalize ([-1, -2, -3, -4].takeWhile property).length = back at five most behind
    have ahead : ∀ i ∈ [1, 2, 3, 4].take (4 - back), property i = true :=
      (le_takeWhile (by simp)).mp (by omega)
    refine ⟨back, by omega, ?_⟩
    intro k less
    rcases Int.lt_trichotomy (k - back) 0 with before | same | after
    · exact behind _ ((mem_behind most).mpr (by omega))
    · rwa [same]
    · exact ahead _ ((mem_ahead (by omega)).mpr (by omega))
  · intro ⟨back, less, five⟩
    have shifted : ∀ i : Int, -back ≤ i → i < 5 - back → property i = true := by
      intro i low high
      have found := five (i + back).toNat (by omega)
      rwa [show ((i + back).toNat : Int) - back = i by omega] at found
    have behind : back ≤ ([-1, -2, -3, -4].takeWhile property).length := by
      refine (le_takeWhile (by simpa using Nat.le_of_lt_succ less)).mpr ?_
      intro i member
      have range := (mem_behind (by omega)).mp member
      exact shifted i (by omega) (by omega)
    have ahead : 4 - back ≤ ([1, 2, 3, 4].takeWhile property).length := by
      refine (le_takeWhile (by simp)).mpr ?_
      intro i member
      have range := (mem_ahead (by omega)).mp member
      exact shifted i (by omega) (by omega)
    omega

theorem countStones_eq (shaped : board.Shaped) (player : Cell) (x y : Int) (direction : Int × Int) (steps : List Int) :
    board.countStones player x y direction steps =
      some (steps.takeWhile fun i => Grid.get? board (along (x, y) direction i) = some player).length := by
  induction steps with
  | nil => rfl
  | cons i rest ih =>
    rw [countStones]
    by_cases inside : isInBoard (x + direction.1 * i, y + direction.2 * i)
    · obtain ⟨cell, found⟩ := shaped.get? inside
      by_cases same : cell = player
      · simp [along, inside, found, same, ih]
      · simp [along, inside, found, same]
    · have missing : Grid.get? board (along (x, y) direction i) ≠ some player := by
        intro found
        exact inside (isInBoard_iff.mpr (Grid.inside_of_get? shaped found))
      simp [inside, missing]

/-- What `checkWin` tells about a cell that has a stone of the player. -/
theorem checkWin_iff (shaped : board.Shaped) {x y : Int} (here : Grid.get? board (x, y) = some player) :
    board.checkWin x y player = some true ↔ board.FiveThrough player (x, y) := by
  let stone (direction : Int × Int) (i : Int) : Bool := Grid.get? board (along (x, y) direction i) = some player
  have counted : board.checkWin x y player = some (directions.any fun direction =>
      5 ≤ 1 + ([1, 2, 3, 4].takeWhile (stone direction)).length + ([-1, -2, -3, -4].takeWhile (stone direction)).length) := by
    simp only [checkWin, countStones_eq shaped]
    exact List.anyM_pure
  rw [counted, Option.some_inj, List.any_eq_true]
  constructor
  · intro ⟨direction, member, five⟩
    obtain ⟨back, less, stones⟩ := (five_iff (by simpa [stone, along_zero] using here)).mp (of_decide_eq_true five)
    refine ⟨along (x, y) direction (-back), direction, member, ?_, back, less, ?_⟩
    · intro k bound
      rw [along_along, Int.add_comm]
      exact of_decide_eq_true (stones k bound)
    · rw [along_along, Int.add_comm, Int.add_right_neg, along_zero]
  · intro ⟨start, direction, member, line, back, less, passes⟩
    refine ⟨direction, member, decide_eq_true ?_⟩
    refine (five_iff (by simpa [stone, along_zero] using here)).mpr ⟨back, less, ?_⟩
    intro k bound
    apply decide_eq_true
    rw [← passes, along_along, show (back : Int) + (k - back) = k by omega]
    exact line k bound

/-- The answer of `checkWin` for any stone on any board. -/
theorem checkWin_exact (shaped : board.Shaped) {x y : Int} (here : Grid.get? board (x, y) = some player) :
    ∃ wins, board.checkWin x y player = some wins ∧ (wins = true ↔ board.FiveThrough player (x, y)) := by
  obtain ⟨wins, checked⟩ := checkWin_total shaped x y player
  refine ⟨wins, checked, ?_⟩
  rw [← checkWin_iff shaped here, checked, Option.some_inj]

theorem checkWin_exact_full :
    let board : Board := List.replicate boardSize (List.replicate boardSize .black)
    ∃ wins, board.checkWin 7 7 .black = some wins ∧ (wins = true ↔ board.FiveThrough .black (7, 7)) :=
  checkWin_exact (Grid.replicate_shape _ _ _) rfl

theorem five_of_through (through : board.FiveThrough player place) : board.Five player := by
  obtain ⟨start, direction, member, line, _⟩ := through
  exact ⟨start, direction, member, line⟩

/-- A line that is there after a move was there before, or the stone is part of it. -/
theorem five_set? (placed : Grid.set? board move stone = some changed) (five : changed.Five player) :
    board.Five player ∨ (player = stone ∧ changed.FiveThrough player move) := by
  obtain ⟨start, direction, member, line⟩ := five
  by_cases passes : ∃ k : Nat, k < 5 ∧ along start direction k = move
  · refine .inr ⟨?_, start, direction, member, line, passes⟩
    obtain ⟨k, less, same⟩ := passes
    have here := line k less
    rw [same, Grid.get?_set?_self placed] at here
    exact (Option.some_inj.mp here).symm
  · refine .inl ⟨start, direction, member, ?_⟩
    intro k less
    have other : along start direction k ≠ move := fun same => passes ⟨k, less, same⟩
    rw [← line k less, Grid.get?_set? placed, if_neg other]

end Board

namespace AiGame

variable {game after : AiGame} {move : Int × Int} {stone : Cell} {winner : Winner}

/-- What a move decides, when the stone has been placed. -/
structure Judges (game after : AiGame) (move : Int × Int) (stone : Cell) (winner : Winner) : Prop where
  playing : game.gameOver = false
  checked : after.board.checkWin move.1 move.2 stone = some after.gameOver
  won : after.winner = if after.gameOver then winner else game.winner

theorem humanMove_judges {x y : Int} (made : game.humanMove x y = some (true, after)) :
    game.Judges after (x, y) humanPlayer .human := by
  have valid := isValidMove_of_humanMove made
  have playing : game.gameOver = false := (Bool.or_eq_false_iff.mp (open_of_isValidMove valid)).1
  simp only [humanMove, valid, Option.bind_eq_bind, Option.bind_some, if_true, Option.bind_eq_some_iff] at made
  obtain ⟨board, placed, wins, checked, result⟩ := made
  cases wins with
  | true =>
    cases result
    exact ⟨playing, checked, rfl⟩
  | false =>
    cases result
    exact ⟨playing, by simpa [playing] using checked, by simp [playing]⟩

theorem aiMove_judges {rand : Nat} (playing : (game.gameOver || game.isDraw) = false)
    (made : game.aiMove rand = some after) (chosen : (game.board.getBestMove rand).map Prod.fst = some move) :
    game.Judges after move aiPlayer .ai := by
  have unfinished : game.gameOver = false := (Bool.or_eq_false_iff.mp playing).1
  obtain ⟨⟨_, trial⟩, best, rfl⟩ := Option.map_eq_some_iff.mp chosen
  simp only [aiMove, playing, best, Option.bind_eq_bind, Option.bind_some, Bool.false_eq_true, if_false,
    Option.bind_eq_some_iff] at made
  obtain ⟨board, placed, wins, checked, result⟩ := made
  cases wins with
  | true =>
    cases result
    exact ⟨unfinished, checked, rfl⟩
  | false =>
    cases result
    exact ⟨unfinished, by simpa [unfinished] using checked, by simp [unfinished]⟩

/-- The result of a game as its board shows it. -/
structure Decided (game : AiGame) : Prop where
  ended : game.gameOver = true ↔ game.board.Five .black ∨ game.board.Five .white
  human : game.winner = .human ↔ game.board.Five .black
  ai : game.winner = .ai ↔ game.board.Five .white
  one : ¬ (game.board.Five .black ∧ game.board.Five .white)
  undecided : game.gameOver = false → game.winner = .none

/-- Before the move there is no line, so one that is there afterwards has the last stone in it. -/
theorem Decided.five_iff (decided : game.Decided) (counted : game.Counted) (fills : game.Fills after move stone)
    (judges : game.Judges after move stone winner) (player : Cell) (coloured : player ≠ .empty) :
    after.board.Five player ↔ player = stone ∧ after.gameOver = true := by
  have shaped : after.board.Shaped := counted.shaped.set? fills.placed
  have here := Grid.get?_set?_self fills.placed
  have checked : after.gameOver = true ↔ after.board.FiveThrough stone move := by
    rw [← Board.checkWin_iff shaped here, judges.checked, Option.some_inj]
  have without : ¬ game.board.Five player := by
    intro five
    have ended : game.gameOver = true := by
      refine decided.ended.mpr ?_
      cases player with
      | empty => exact absurd rfl coloured
      | white => exact .inr five
      | black => exact .inl five
    rw [judges.playing] at ended
    cases ended
  constructor
  · intro five
    obtain ⟨rfl, through⟩ := (Board.five_set? fills.placed five).resolve_left without
    exact ⟨rfl, checked.mpr through⟩
  · intro ⟨same, ended⟩
    exact same ▸ Board.five_of_through (checked.mp ended)

theorem Decided.fill (decided : game.Decided) (counted : game.Counted) (fills : game.Fills after move stone)
    (judges : game.Judges after move stone winner)
    (player : (stone, winner) = (humanPlayer, .human) ∨ (stone, winner) = (aiPlayer, .ai)) : after.Decided := by
  have black := decided.five_iff counted fills judges .black (by decide)
  have white := decided.five_iff counted fills judges .white (by decide)
  have start := decided.undecided judges.playing
  have won := judges.won
  rcases player with same | same
  · cases same
    cases ended : after.gameOver <;> constructor <;> simp_all [humanPlayer]
  · cases same
    cases ended : after.gameOver <;> constructor <;> simp_all [aiPlayer]

/-- A call either changes nothing, or it was made while the game was open. -/
theorem step_decided (counted : game.Counted) (decided : game.Decided) (action : Action) :
    ∃ next, game.step action = some next ∧ next.Counted ∧ next.Decided ∧ (game.gameOver = true → next = game) := by
  cases action with
  | humanMove x y =>
    rcases humanMove_spec counted x y with refused | ⟨after, made, fills⟩
    · exact ⟨game, by rw [step, refused]; rfl, counted, decided, fun _ => rfl⟩
    · have judges := humanMove_judges made
      refine ⟨after, by rw [step, made]; rfl, counted.fill fills (by decide), decided.fill counted fills judges (.inl rfl), ?_⟩
      intro ended
      rw [judges.playing] at ended
      cases ended
  | aiMove rand =>
    cases finished : game.gameOver || game.isDraw with
    | true => exact ⟨game, by rw [step, aiMove, if_pos finished], counted, decided, fun _ => rfl⟩
    | false =>
      obtain ⟨move, after, made, chosen, fills⟩ := aiMove_spec counted rand finished
      have judges := aiMove_judges finished made chosen
      refine ⟨after, made, counted.fill fills (by decide), decided.fill counted fills judges (.inr rfl), ?_⟩
      intro ended
      rw [judges.playing] at ended
      cases ended

theorem get?_new {userId : Int} {place : Int × Int} {cell : Cell}
    (found : Grid.get? ({ userId } : AiGame).board place = some cell) : cell = .empty := by
  obtain ⟨_, _, row, here, there⟩ := Grid.get?_eq_some_iff.mp found
  cases List.eq_of_mem_replicate (List.mem_of_getElem? here)
  exact List.eq_of_mem_replicate (List.mem_of_getElem? there)

theorem decided_new (userId : Int) : ({ userId } : AiGame).Decided := by
  have without : ∀ player, player ≠ .empty → ¬ ({ userId } : AiGame).board.Five player := by
    intro player coloured ⟨start, direction, _, line⟩
    exact coloured (get?_new (line 0 (by decide)))
  have black := without .black (by decide)
  have white := without .white (by decide)
  constructor <;> simp [black, white]

/-- The board of a game says whether it is over and who has won it, and a game that is over
keeps its board. -/
theorem game_decided (userId : Int) (actions : List Action) :
    ∃ game, Run step { userId } actions game ∧ game.Decided ∧
      (game.gameOver = true → ∀ later, ∃ final, Run step game later final ∧ final.board = game.board) := by
  have start : AiGame.Counted { userId } ∧ AiGame.Decided { userId } :=
    ⟨(History.consistent_start userId).counted, decided_new userId⟩
  have progress : ∀ (game : AiGame) action, game.Counted ∧ game.Decided →
      ∃ next, game.step action = some next ∧ next.Counted ∧ next.Decided := by
    intro game action ⟨counted, decided⟩
    obtain ⟨next, taken, counted', decided', _⟩ := step_decided counted decided action
    exact ⟨next, taken, counted', decided'⟩
  obtain ⟨game, ran, counted, decided⟩ := run_of_progress _ progress start actions
  refine ⟨game, ran, decided, ?_⟩
  intro ended later
  have unchanged : ∀ next action, next = game → ∃ after, step next action = some after ∧ after = game := by
    intro next action same
    subst same
    obtain ⟨after, taken, _, _, unchanged⟩ := step_decided counted decided action
    exact ⟨after, taken, unchanged ended⟩
  obtain ⟨final, rest, same⟩ := run_of_progress (fun next => next = game) unchanged rfl later
  exact ⟨final, rest, by rw [same]⟩

end AiGame

end HttpFramework.Gomoku
