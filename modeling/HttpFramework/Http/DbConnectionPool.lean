import Mathlib.Tactic.Common

/-! `DbConnectionPool`: the queue of idle connections, the calls of `getConnection` with the handles
they return, and the thread that checks the connections. Sections under the mutex are single steps,
and a call that finds no connection waits. Connections are numbered as they are created. -/

namespace HttpFramework.Http

abbrev DbConnection := Nat

/-- Where a call of `getConnection` stands, and what has become of its handle. -/
inductive Checkout where
  | waiting
  | popped (conn : DbConnection)
  /-- `ping` has returned false. -/
  | lost (conn : DbConnection)
  /-- The handle has been returned, and its deleter has the connection. -/
  | returned (conn : DbConnection)
  /-- An exception has been caught. -/
  | caught (conn : DbConnection)
  | threw
  | released
deriving DecidableEq, Repr

namespace Checkout

/-- The connection that the call or its handle has. -/
def conn? : Checkout → Option DbConnection
  | .popped conn | .lost conn | .returned conn | .caught conn => some conn
  | .waiting | .threw | .released => none

end Checkout

structure DbConnectionPool where
  connections : List DbConnection := []
  initialized : Bool := false
  calls : List Checkout := []
  connsToCheck : List DbConnection := []
deriving DecidableEq, Repr

namespace DbConnectionPool

/-- `init`, when every connection can be created. -/
def init (poolSize : Nat) (pool : DbConnectionPool) : DbConnectionPool :=
  if pool.initialized then pool
  else { pool with connections := pool.connections ++ List.range poolSize, initialized := true }

def push (conn : DbConnection) (pool : DbConnectionPool) : DbConnectionPool :=
  { pool with connections := pool.connections ++ [conn] }

/-- The loop of `init`, over the connections to be created. `create` tells what becomes of each:
`none` is an exception, which leaves the loop. The flag says whether it has come to its end. -/
def createAll (create : Nat → Option DbConnection) : List Nat → DbConnectionPool → Bool × DbConnectionPool
  | [], pool => (true, pool)
  | i :: rest, pool =>
    match create i with
    | none => (false, pool)
    | some conn => createAll create rest (pool.push conn)

/-- `init`, when connections may fail to be created. The flag says whether it returns. -/
def tryInit (create : Nat → Option DbConnection) (poolSize : Nat) (pool : DbConnectionPool) : Bool × DbConnectionPool :=
  if pool.initialized then (true, pool)
  else
    match createAll create (List.range poolSize) pool with
    | (true, pool) => (true, { pool with initialized := true })
    | (false, pool) => (false, pool)

def set (call : Nat) (checkout : Checkout) (pool : DbConnectionPool) : DbConnectionPool :=
  { pool with calls := pool.calls.set call checkout }

/-- What `ping` or `reconnect` does. -/
inductive Result where
  | succeeds
  | fails
  | throws
deriving DecidableEq, Repr

inductive Action where
  | getConnection
  /-- The call goes on, with what the database does for it. -/
  | advance (call : Nat) (result : Result)
  /-- The last owner of the handle gives it up. -/
  | release (call : Nat)
  | snapshot
  /-- The next connection of the snapshot is pinged and, if need be, reconnected. -/
  | check (result : Result)

/-- `reconnect` returns nothing: it succeeds or throws. -/
def advance (call : Nat) (result : Result) (pool : DbConnectionPool) : Checkout → Option DbConnectionPool
  | .waiting =>
    match pool.connections with
    | conn :: rest => some (({ pool with connections := rest } : DbConnectionPool).set call (.popped conn))
    | [] => if pool.initialized then none else some (pool.set call .threw)
  | .popped conn =>
    match result with
    | .succeeds => some (pool.set call (.returned conn))
    | .fails => some (pool.set call (.lost conn))
    | .throws => some (pool.set call (.caught conn))
  | .lost conn =>
    match result with
    | .succeeds => some (pool.set call (.returned conn))
    | .fails | .throws => some (pool.set call (.caught conn))
  | .caught conn => some ((pool.push conn).set call .threw)
  | .returned _ | .threw | .released => none

def step (pool : DbConnectionPool) : Action → Option DbConnectionPool
  | .getConnection => some { pool with calls := pool.calls ++ [.waiting] }
  | .advance call result => do pool.advance call result (← pool.calls[call]?)
  | .release call =>
    match pool.calls[call]? with
    | some (.returned conn) => some ((pool.push conn).set call .released)
    | _ => none
  | .snapshot =>
    if pool.connsToCheck = [] then some { pool with connsToCheck := pool.connections } else none
  | .check result =>
    match pool.connsToCheck with
    | _ :: rest =>
      -- An exception of `ping` ends the loop, one of `reconnect` does not.
      some { pool with connsToCheck := if result = .throws then [] else rest }
    | [] => none

end DbConnectionPool

end HttpFramework.Http
