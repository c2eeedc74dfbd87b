import HttpFramework.Gomoku.AiGame

/-! `AiGameMoveHandler::handle` for several requests of one user at a time. The worker threads
share the game, and `humanMove` and `aiMove` take no lock, so between any two calls of a
request others may make theirs. -/

namespace HttpFramework.Gomoku

/-- The call on the game that a request makes next. -/
inductive Phase where
  | humanMove (x y : Int)
  | isGameOver
  | isDraw
  | aiMove
  | answered
deriving DecidableEq, Repr

/-- The human stone has been placed, and that of the computer is still to come. -/
def Phase.between : Phase → Bool
  | .isGameOver | .isDraw | .aiMove => true
  | .humanMove _ _ | .answered => false

structure MoveRequests where
  game : AiGame
  requests : List Phase := []

namespace MoveRequests

inductive Action where
  /-- Another request, with the coordinates of its body. -/
  | arrive (x y : Int)
  | advance (request : Nat) (rand : Nat)

/-- The part of the handler from the move on. The tests after `aiMove` only choose the answer. -/
def advance (game : AiGame) (rand : Nat) : Phase → Option (AiGame × Phase)
  | .humanMove x y => do
    let (made, game) ← game.humanMove x y
    return (game, if made then .isGameOver else .answered)
  | .isGameOver => some (game, if game.gameOver then .answered else .isDraw)
  | .isDraw => some (game, if game.isDraw then .answered else .aiMove)
  | .aiMove => do return (← game.aiMove rand, .answered)
  | .answered => none

def step (server : MoveRequests) : Action → Option MoveRequests
  | .arrive x y => some { server with requests := server.requests ++ [.humanMove x y] }
  | .advance request rand => do
    let phase ← server.requests[request]?
    let (game, next) ← MoveRequests.advance server.game rand phase
    return { game, requests := server.requests.set request next }

end MoveRequests

end HttpFramework.Gomoku
