import HttpFramework.Gomoku.MoveRequests
import HttpFramework.Proofs.GameBoard

/-! Whose turn it is. A game has no variable for it: the stones alternate because each request
makes both moves. They do so exactly as long as no human stone is placed while another request
still has to make the move of the computer. -/

namespace HttpFramework.Gomoku
open Transition

namespace AiGame

variable {game after : AiGame} {move : Int × Int}

def stones (game : AiGame) (player : Cell) : Nat := Grid.count (fun cell => cell = player) game.board

/-- The number of black stones minus the number of white ones is 0 or 1. -/
def Alternates (game : AiGame) : Prop :=
  game.stones .black = game.stones .white ∨ game.stones .black = game.stones .white + 1

instance : Decidable game.Alternates := inferInstanceAs (Decidable (_ ∨ _))

theorem Fills.stones {stone : Cell} (fills : game.Fills after move stone) (player : Cell) (coloured : player ≠ .empty) :
    after.stones player = game.stones player + if stone = player then 1 else 0 := by
  have counted := @Grid.count_set?_add _ _ _ _ _ _ (fun cell => cell = player) fills.empty fills.placed
  simpa [AiGame.stones, coloured.symm] using counted

end AiGame

namespace MoveRequests

variable {server next : MoveRequests}

/-- A human stone may be placed when no other request is between its two moves. -/
def InTurn (server : MoveRequests) : Action → Prop
  | .arrive _ _ => True
  | .advance request _ => ∀ x y, server.requests[request]? = some (.humanMove x y) →
      server.game.isValidMove x y = some true → ∀ phase ∈ server.requests, phase.between = false

def waiting (server : MoveRequests) : Nat := server.requests.countP Phase.between

/-- One request at most is between its moves. It accounts for the stone that black is ahead. -/
structure Turns (server : MoveRequests) : Prop where
  counted : server.game.Counted
  turn : server.waiting = 1 ∧ server.game.stones .black = server.game.stones .white + 1 ∨
    server.waiting = 0 ∧ server.game.Alternates ∧
      ((server.game.gameOver || server.game.isDraw) = false → server.game.stones .black = server.game.stones .white)

theorem Turns.alternates (turns : server.Turns) : server.game.Alternates := by
  rcases turns.turn with ⟨_, one⟩ | ⟨_, alternates, _⟩
  · exact .inr one
  · exact alternates

/-- What a request can do in one step, to the game and in its own course. -/
inductive Advances (game : AiGame) : Phase → AiGame → Phase → Prop where
  | stays {phase next} (same : next.between = phase.between)
      (refused : ∀ x y, phase = .humanMove x y → game.isValidMove x y = some false) : Advances game phase game next
  | leaves {phase next} (before : phase.between = true) (after : next.between = false)
      (ended : (game.gameOver || game.isDraw) = true) : Advances game phase game next
  | human {x y next game'} (valid : game.isValidMove x y = some true) (after : next.between = true)
      (fills : game.Fills game' (x, y) humanPlayer) : Advances game (.humanMove x y) game' next
  | ai {phase next game' move} (before : phase.between = true) (after : next.between = false)
      (fills : game.Fills game' move aiPlayer) : Advances game phase game' next

theorem advances {game after : AiGame} {rand : Nat} {phase next : Phase} (counted : game.Counted)
    (taken : advance game rand phase = some (after, next)) : Advances game phase after next := by
  cases phase with
  | humanMove x y =>
    rcases AiGame.humanMove_spec counted x y with refused | ⟨moved, made, fills⟩
    · simp only [advance, refused] at taken
      cases taken
      refine .stays rfl ?_
      intro x' y' same
      cases same
      exact AiGame.isValidMove_of_humanMove refused
    · simp only [advance, made] at taken
      cases taken
      exact .human (AiGame.isValidMove_of_humanMove made) rfl fills
  | isGameOver =>
    cases taken
    cases ended : game.gameOver with
    | true => exact .leaves rfl rfl (by simp [ended])
    | false => exact .stays rfl nofun
  | isDraw =>
    cases taken
    cases drawn : game.isDraw with
    | true => exact .leaves rfl rfl (by simp [drawn])
    | false => exact .stays rfl nofun
  | aiMove =>
    cases ended : game.gameOver || game.isDraw with
    | true =>
      simp only [advance, AiGame.aiMove, ended] at taken
      cases taken
      exact .leaves rfl rfl ended
    | false =>
      obtain ⟨move, moved, made, _, fills⟩ := AiGame.aiMove_spec counted rand ended
      simp only [advance, made] at taken
      cases taken
      exact .ai rfl rfl fills
  | answered => cases taken

theorem waiting_set {request : Nat} {phase next : Phase} {game : AiGame} (found : server.requests[request]? = some phase) :
    ({ game, requests := server.requests.set request next } : MoveRequests).waiting + (if phase.between then 1 else 0) =
      server.waiting + (if next.between then 1 else 0) := by
  obtain ⟨bound, rfl⟩ := List.getElem?_eq_some_iff.mp found
  exact Grid.countP_set_add bound next

theorem waiting_eq_zero : server.waiting = 0 ↔ ∀ phase ∈ server.requests, phase.between = false := by
  simp [waiting, List.countP_eq_zero]

/-- A human stone is in turn when no request is between its moves. -/
theorem Turns.human {request rand : Nat} {x y : Int} {later : Phase} {game : AiGame} (turns : server.Turns)
    (found : server.requests[request]? = some (.humanMove x y)) (valid : server.game.isValidMove x y = some true)
    (after : later.between = true) (fills : server.game.Fills game (x, y) humanPlayer) :
    (game.Alternates ↔ server.InTurn (.advance request rand)) ∧
      (server.InTurn (.advance request rand) → Turns { game, requests := server.requests.set request later }) := by
  have waits := @waiting_set server request (.humanMove x y) later game found
  have black : game.stones .black = server.game.stones .black + 1 := fills.stones .black (by decide)
  have white : game.stones .white = server.game.stones .white := fills.stones .white (by decide)
  have still := AiGame.open_of_isValidMove valid
  rw [after] at waits
  have inTurn : server.InTurn (.advance request rand) ↔ server.waiting = 0 := by
    rw [waiting_eq_zero]
    exact ⟨fun inTurn => inTurn x y found valid, fun free _ _ _ _ => free⟩
  rw [inTurn]
  refine ⟨⟨fun alternates => ?_, fun free => ?_⟩, fun free => ⟨turns.counted.fill fills (by decide), .inl ?_⟩⟩
  · rcases turns.turn with ⟨_, one⟩ | ⟨none, _⟩
    · simp only [AiGame.Alternates] at alternates
      omega
    · exact none
  · rcases turns.turn with ⟨one, _⟩ | ⟨_, _, even⟩
    · omega
    · exact .inr (by rw [black, white, even still])
  · rcases turns.turn with ⟨one, _⟩ | ⟨_, _, even⟩
    · omega
    · exact ⟨by simpa [Phase.between, free] using waits, by rw [black, white, even still]⟩

/-- The stone of the computer makes the numbers equal again. -/
theorem Turns.ai {request : Nat} {phase later : Phase} {game : AiGame} {move : Int × Int} (turns : server.Turns)
    (found : server.requests[request]? = some phase) (before : phase.between = true) (after : later.between = false)
    (fills : server.game.Fills game move aiPlayer) :
    game.Alternates ∧ Turns { game, requests := server.requests.set request later } := by
  have waits := @waiting_set server request phase later game found
  have black : game.stones .black = server.game.stones .black := fills.stones .black (by decide)
  have white : game.stones .white = server.game.stones .white + 1 := fills.stones .white (by decide)
  simp only [before, after] at waits
  -- The request itself waits, so black is one stone ahead before the move.
  have even : game.stones .black = game.stones .white := by
    rcases turns.turn with ⟨_, one⟩ | ⟨none, _⟩
    · omega
    · simp [none] at waits
  have none : ({ game, requests := server.requests.set request later } : MoveRequests).waiting = 0 := by
    rcases turns.turn with ⟨one, _⟩ | ⟨none, _⟩
    · simpa [one] using waits
    · simp [none] at waits
  exact ⟨.inl even, turns.counted.fill fills (by decide), .inr ⟨none, .inl even, fun _ => even⟩⟩

/-- After a step, the stones alternate exactly if the move was in turn; then one request at
most is between its moves again. -/
theorem step_turns {action : Action} (turns : server.Turns) (taken : server.step action = some next) :
    (next.game.Alternates ↔ server.InTurn action) ∧ (server.InTurn action → next.Turns) := by
  cases action with
  | arrive x y =>
    cases taken
    have same : ({ server with requests := server.requests ++ [.humanMove x y] } : MoveRequests).waiting = server.waiting := by
      simp [waiting, Phase.between]
    refine ⟨⟨fun _ => trivial, fun _ => turns.alternates⟩, fun _ => ⟨turns.counted, ?_⟩⟩
    rw [same]
    exact turns.turn
  | advance request rand =>
    simp only [step, Option.bind_eq_bind, Option.bind_eq_some_iff] at taken
    obtain ⟨phase, found, ⟨game, later⟩, advanced, result⟩ := taken
    cases result
    have waits := @waiting_set server request phase later game found
    have free : (∀ x y, phase = .humanMove x y → server.game.isValidMove x y = some false) →
        server.InTurn (.advance request rand) := by
      intro refused x y same valid
      rw [found, Option.some_inj] at same
      rw [refused x y same] at valid
      cases valid
    have inside : phase.between = true → server.InTurn (.advance request rand) := by
      intro before
      apply free
      rintro x y rfl
      cases before
    cases advances turns.counted advanced with
    | stays same refused =>
      rw [same] at waits
      refine ⟨⟨fun _ => free refused, fun _ => turns.alternates⟩, fun _ => ⟨turns.counted, ?_⟩⟩
      rw [Nat.add_right_cancel waits]
      exact turns.turn
    | leaves before after ended =>
      refine ⟨⟨fun _ => inside before, fun _ => turns.alternates⟩, fun _ => ⟨turns.counted, ?_⟩⟩
      simp only [before, after] at waits
      refine .inr ⟨?_, turns.alternates, fun still => ?_⟩
      · rcases turns.turn with ⟨one, _⟩ | ⟨none, _⟩
        · simpa [one] using waits
        · simp [none] at waits
      · rw [ended] at still
        cases still
    | human valid after fills => exact turns.human found valid after fills
    | ai before after fills =>
      obtain ⟨alternates, kept⟩ := turns.ai found before after fills
      exact ⟨⟨fun _ => inside before, fun _ => alternates⟩, fun _ => kept⟩

theorem turns_new (userId : Int) : Turns { game := { userId } } where
  counted := (AiGame.History.consistent_start userId).counted
  turn := by
    have even : ({ userId } : AiGame).stones .black = ({ userId } : AiGame).stones .white := by
      let fresh : Board := List.replicate boardSize (List.replicate boardSize .empty)
      show Grid.count (fun cell => cell = .black) fresh = Grid.count (fun cell => cell = .white) fresh
      decide
    exact .inr ⟨rfl, .inl even, fun _ => even⟩

/-- For any number of requests and any interleaving of their steps: the stones alternate in
every state exactly when each human stone is placed while no other request is between its
two moves. -/
theorem alternates_throughout_iff (userId : Int) (actions : List Action) :
    Throughout step (fun _ _ next => next.game.Alternates) { game := { userId } } actions ↔
      Throughout step (fun server action _ => server.InTurn action) { game := { userId } } actions := by
  apply throughout_iff Turns
  · intro server action next turns taken
    exact (step_turns turns taken).2
  · intro server action next turns taken
    exact (step_turns turns taken).1
  · exact turns_new userId

/-- Two requests that both place a stone before the computer does. -/
theorem requests_together_not_alternate :
    ∃ final, Run step { game := { userId := 1 } } [.arrive 7 7, .arrive 7 8, .advance 0 0, .advance 1 0] final ∧
      final.game.stones .black = 2 ∧ final.game.stones .white = 0 ∧ ¬ final.game.Alternates := by
  refine ⟨_, .cons rfl (.cons rfl (.cons rfl (.cons rfl (.nil _)))), ?_⟩
  decide

end MoveRequests

end HttpFramework.Gomoku
