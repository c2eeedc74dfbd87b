import Mathlib.Tactic.Common

/-! `updateMaxOnline` of the Gomoku server, called by logins on several threads. `maxOnline_` is
atomic, but a call loads it in one step and stores it in another. -/

namespace HttpFramework.Gomoku

/-- Where a call of `updateMaxOnline` is. -/
inductive Update where
  | called (online : Int)
  /-- What it has loaded, and what others have stored since, which it does not know. -/
  | loaded (online value : Int) (stored : List Int)
  | returned
deriving DecidableEq, Repr

/-- Another call stores a value. -/
def Update.passBy (stored : Int) : Update → Update
  | .loaded online value before => .loaded online value (before ++ [stored])
  | update => update

structure MaxOnline where
  maxOnline : Int
  calls : List Update := []
  /-- The arguments of the calls. -/
  arguments : List Int := []
deriving DecidableEq, Repr

namespace MaxOnline

inductive Action where
  | updateMaxOnline (online : Int)
  | load (call : Nat)
  | store (call : Nat)
deriving DecidableEq, Repr

def step (server : MaxOnline) : Action → Option MaxOnline
  | .updateMaxOnline online =>
    some { server with calls := server.calls ++ [.called online], arguments := server.arguments ++ [online] }
  | .load call =>
    match server.calls[call]? with
    | some (.called online) => some { server with calls := server.calls.set call (.loaded online server.maxOnline []) }
    | _ => none
  | .store call =>
    match server.calls[call]? with
    | some (.loaded online value _) =>
      some { server with
        maxOnline := max value online, calls := (server.calls.map (Update.passBy (max value online))).set call .returned }
    | _ => none

end MaxOnline

end HttpFramework.Gomoku
