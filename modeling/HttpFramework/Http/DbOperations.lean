import HttpFramework.Http.DbConnectionPool

/-! What is done with the connections of `DbConnectionPool`: the operations on the server that are
under way, each between its start and its end. `executeQuery` and `executeUpdate` take the mutex of
the connection, `ping` and `reconnect` do not. -/

namespace HttpFramework.Http

/-- Who performs an operation: a call of `getConnection`, which pings and reconnects, a thread
that uses the handle of a call, or the thread that checks the connections. -/
inductive Operator where
  | call (call : Nat)
  | client (call : Nat)
  | checker
deriving DecidableEq, Repr

structure DbOperations where
  pool : DbConnectionPool
  operations : List (Operator × DbConnection) := []
  /-- The `ping` of the checker has returned false. -/
  checkLost : Bool := false

namespace DbOperations

def start (poolSize : Nat) : DbOperations := { pool := ({} : DbConnectionPool).init poolSize }

inductive Action where
  | getConnection
  /-- A call goes through a section under the mutex of the pool. -/
  | lock (call : Nat)
  | release (call : Nat)
  | snapshot
  | begin (operator : Operator)
  | finish (operator : Operator) (result : DbConnectionPool.Result)

def performs (operator : Operator) (state : DbOperations) : Bool :=
  state.operations.any fun operation => operation.1 = operator

/-- The connection that the operator may start to use. Only the handles contend for the mutex of
the connection. -/
def usable (state : DbOperations) : Operator → Option DbConnection
  | .call call =>
    match state.pool.calls[call]? with
    | some (.popped conn) | some (.lost conn) => if state.performs (.call call) then none else some conn
    | _ => none
  | .client call =>
    match state.pool.calls[call]? with
    | some (.returned conn) =>
      if state.operations.any fun operation => operation.2 = conn && operation.1 matches .client _ then none else some conn
    | _ => none
  | .checker => if state.performs .checker then none else state.pool.connsToCheck.head?

def remove (operator : Operator) (state : DbOperations) : DbOperations :=
  { state with operations := state.operations.filter fun operation => operation.1 ≠ operator }

def inPool (action : DbConnectionPool.Action) (state : DbOperations) : Option DbOperations :=
  (state.pool.step action).map fun pool => { state with pool }

/-- The end of an operation. A connection that the checker has lost is reconnected next. -/
def finish (result : DbConnectionPool.Result) (state : DbOperations) : Operator → Option DbOperations
  | .call call => (state.remove (.call call)).inPool (.advance call result)
  | .client call => some (state.remove (.client call))
  | .checker =>
    if state.checkLost then { state.remove .checker with checkLost := false }.inPool (.check .fails)
    else if result = .fails then some { state.remove .checker with checkLost := true }
    else (state.remove .checker).inPool (.check result)

def step (state : DbOperations) : Action → Option DbOperations
  | .getConnection => state.inPool .getConnection
  | .lock call =>
    match state.pool.calls[call]? with
    | some .waiting | some (.caught _) => state.inPool (.advance call .succeeds)
    | _ => none
  -- A thread that is using the handle keeps it alive.
  | .release call => if state.performs (.client call) then none else state.inPool (.release call)
  | .snapshot => state.inPool .snapshot
  | .begin operator => (state.usable operator).map fun conn => { state with operations := (operator, conn) :: state.operations }
  | .finish operator result => if state.performs operator then state.finish result operator else none

end DbOperations

end HttpFramework.Http
