import HttpFramework.Library.Grid

/-! `AiGame`: a game of Gomoku against the computer. The board is a vector of vectors, and to
index it outside is undefined: such a call has no result here. -/

namespace HttpFramework.Gomoku

/-- The texts `empty`, `white` and `black` that stand in the cells. -/
inductive Cell where
  | empty
  | white
  | black
deriving DecidableEq, Repr

def aiPlayer : Cell := .white
def humanPlayer : Cell := .black

inductive Winner where
  | none
  | human
  | ai
deriving DecidableEq, Repr

def boardSize : Nat := 15

abbrev Board := List (List Cell)

/-- The two loops over rows and columns. -/
def cells : List (Int × Int) := Grid.places boardSize boardSize

def directions : List (Int × Int) := [(1, 0), (0, 1), (1, 1), (1, -1)]

def isInBoard (place : Int × Int) : Bool :=
  0 ≤ place.1 ∧ place.1 < boardSize ∧ 0 ≤ place.2 ∧ place.2 < boardSize

namespace Board

/-- The stones of a player along a direction, up to the first cell without one. -/
def countStones (board : Board) (player : Cell) (x y : Int) (direction : Int × Int) : List Int → Option Nat
  | [] => some 0
  | i :: rest =>
    let next := (x + direction.1 * i, y + direction.2 * i)
    if isInBoard next then do
      if (← Grid.get? board next) = player then return (← countStones board player x y direction rest) + 1
      else return 0
    else
      some 0

/-- The cell itself is counted without being looked at. -/
def checkWin (board : Board) (x y : Int) (player : Cell) : Option Bool :=
  directions.anyM fun direction => do
    let forward ← board.countStones player x y direction [1, 2, 3, 4]
    let backward ← board.countStones player x y direction [-1, -2, -3, -4]
    return 5 ≤ 1 + forward + backward

/-- The inner loop of `evaluateThreat`: two steps, whatever stands between. -/
def countThreat (board : Board) (r c : Int) (direction : Int × Int) : Option Nat :=
  [1, 2].foldlM (fun count i =>
    let next := (r + i * direction.1, c + i * direction.2)
    if isInBoard next then do
      if (← Grid.get? board next) = humanPlayer then return count + 1 else return count
    else
      some count) 1

def evaluateThreat (board : Board) (r c : Int) : Option Nat :=
  directions.foldlM (fun threat direction => do return threat + (← board.countThreat r c direction)) 0

def isNearOccupied (board : Board) (r c : Int) : Option Bool :=
  [(1, 0), (-1, 0), (0, 1), (0, -1), (1, 1), (-1, -1), (1, -1), (-1, 1)].anyM fun direction =>
    let next := (r + direction.1, c + direction.2)
    if isInBoard next then do return (← Grid.get? board next) ≠ Cell.empty else some false

/-- The first part of `getBestMove`: stones of both colours are tried in every empty cell. A
cell where either wins is returned with the stone of the computer in it. -/
def winOrBlock : Board → List (Int × Int) → Option (Option (Int × Int) × Board)
  | board, [] => some (none, board)
  | board, (r, c) :: rest => do
    if (← Grid.get? board (r, c)) ≠ Cell.empty then winOrBlock board rest
    else
      let board ← Grid.set? board (r, c) aiPlayer
      if ← checkWin board r c aiPlayer then return (some (r, c), board)
      else
        let board ← Grid.set? board (r, c) .empty
        let board ← Grid.set? board (r, c) humanPlayer
        if ← checkWin board r c humanPlayer then
          let board ← Grid.set? board (r, c) aiPlayer
          return (some (r, c), board)
        else
          let board ← Grid.set? board (r, c) .empty
          winOrBlock board rest

/-- The second part: the best move so far and its threat. -/
def mostThreatened (board : Board) : Option ((Int × Int) × Int) :=
  cells.foldlM (fun (best : (Int × Int) × Int) place => do
    if (← Grid.get? board place) ≠ Cell.empty then return best
    else
      let threatLevel ← board.evaluateThreat place.1 place.2
      if best.2 < threatLevel then return (place, threatLevel) else return best) ((-1, -1), -1)

/-- The third part. -/
def nearCells (board : Board) : Option (List (Int × Int)) :=
  cells.foldlM (fun near place => do
    if (← Grid.get? board place) = Cell.empty then
      if ← board.isNearOccupied place.1 place.2 then return near ++ [place] else return near
    else
      return near) []

/-- The fourth part. -/
def firstEmpty (board : Board) : Option (Option (Int × Int)) :=
  cells.findM? fun place => do return (← Grid.get? board place) = Cell.empty

/-- The move, and the board on which it has been made. `rand` is what the call of the
function of this name returns. -/
def getBestMove (rand : Nat) (board : Board) : Option ((Int × Int) × Board) := do
  let place (move : Int × Int) (board : Board) : Option ((Int × Int) × Board) := do
    return (move, ← Grid.set? board move aiPlayer)
  match ← winOrBlock board cells with
  | (some move, board) => return (move, board)
  | (none, board) =>
    let (bestMove, _) ← mostThreatened board
    if bestMove.1 = -1 then
      let near ← nearCells board
      if near ≠ [] then
        let move ← near[rand % near.length]?
        place move board
      else
        match ← firstEmpty board with
        | some move => place move board
        | none => place bestMove board
    else
      place bestMove board

end Board

structure AiGame where
  userId : Int
  gameOver : Bool := false
  moveCount : Nat := 0
  winner : Winner := .none
  lastMove : Int × Int := (-1, -1)
  board : Board := List.replicate boardSize (List.replicate boardSize .empty)

namespace AiGame

def isDraw (game : AiGame) : Bool := boardSize * boardSize ≤ game.moveCount

def isValidMove (game : AiGame) (x y : Int) : Option Bool :=
  if x < 0 ∨ boardSize ≤ x ∨ y < 0 ∨ boardSize ≤ y then some false
  else do
    if (← Grid.get? game.board (x, y)) ≠ Cell.empty then return false
    else return !(game.gameOver || game.isDraw)

/-- The result says whether the move was made. -/
def humanMove (x y : Int) (game : AiGame) : Option (Bool × AiGame) := do
  if ← game.isValidMove x y then
    let board ← Grid.set? game.board (x, y) humanPlayer
    let game := { game with board, moveCount := game.moveCount + 1, lastMove := (x, y) }
    if ← game.board.checkWin x y humanPlayer then return (true, { game with gameOver := true, winner := .human })
    else return (true, game)
  else
    return (false, game)

/-- The move is made twice, on the board that `getBestMove` leaves. -/
def aiMove (rand : Nat) (game : AiGame) : Option AiGame :=
  if game.gameOver || game.isDraw then some game
  else do
    let (move, board) ← game.board.getBestMove rand
    let board ← Grid.set? board move aiPlayer
    let game := { game with board, moveCount := game.moveCount + 1, lastMove := move }
    if ← game.board.checkWin move.1 move.2 aiPlayer then return { game with gameOver := true, winner := .ai }
    else return game

inductive Action where
  | humanMove (x y : Int)
  | aiMove (rand : Nat)

/-- A call of one of the two, with any arguments. -/
def step (game : AiGame) : Action → Option AiGame
  | .humanMove x y => (game.humanMove x y).map Prod.snd
  | .aiMove rand => game.aiMove rand

end AiGame

end HttpFramework.Gomoku
