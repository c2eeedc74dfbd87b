import HttpFramework.Cpp

/-! `SqlConnPool`, with any threads that use it and with the calls of `HttpRequest::UserVerify`, each
in a thread of its own. The steps are those between which other threads may come: the test without the lock, the
semaphore, each locked section, and the queries. -/

namespace HttpFramework.Code

structure SqlConnPool (Conn : Type) where
  connQue : List Conn
  semId : Nat
  maxConn : Nat

namespace SqlConnPool

variable {Conn : Type}

/-- `Init`, with the connections it has made. -/
def init (connections : List Conn) : SqlConnPool Conn where
  connQue := connections
  semId := connections.length
  maxConn := connections.length

/-- A thread that would have to wait has no step. -/
def semWait (pool : SqlConnPool Conn) : Option (SqlConnPool Conn) :=
  if 0 < pool.semId then some { pool with semId := pool.semId - 1 } else none

/-- The locked section of `GetConn`. On an empty queue it is undefined. -/
def popConn (pool : SqlConnPool Conn) : Option (Conn × SqlConnPool Conn) :=
  match pool.connQue with
  | [] => none
  | sql :: rest => some (sql, { pool with connQue := rest })

def freeConn (sql : Conn) (pool : SqlConnPool Conn) : SqlConnPool Conn :=
  { pool with connQue := pool.connQue ++ [sql], semId := pool.semId + 1 }

/-- What a thread does next in its call of `GetConn`. -/
inductive GetConn where
  | idle
  | empty
  | semWait
  | pop
deriving DecidableEq

structure Caller (Conn : Type) where
  stage : GetConn := .idle
  /-- What it has got and not given back. -/
  held : List Conn := []

namespace Caller

/-- One step of `GetConn`. -/
def advance (caller : Caller Conn) (pool : SqlConnPool Conn) : Option (Caller Conn × SqlConnPool Conn) :=
  match caller.stage with
  | .idle => some ({ caller with stage := .empty }, pool)
  | .empty => some ({ caller with stage := if pool.connQue = [] then .idle else .semWait }, pool)
  | .semWait => do return ({ caller with stage := .pop }, ← pool.semWait)
  | .pop => do
    let (sql, pool) ← pool.popConn
    return ({ stage := .idle, held := sql :: caller.held }, pool)

/-- A thread gives back what it has got. -/
def giveBack [DecidableEq Conn] (caller : Caller Conn) (sql : Conn) (pool : SqlConnPool Conn) :
    Option (Caller Conn × SqlConnPool Conn) :=
  if caller.stage = .idle ∧ sql ∈ caller.held then
    some ({ caller with held := caller.held.erase sql }, pool.freeConn sql)
  else
    none

end Caller

structure Callers (Conn : Type) where
  pool : SqlConnPool Conn
  callers : List (Caller Conn) := []

namespace Callers

inductive Action (Conn : Type) where
  | arrive
  | getConn (caller : Nat)
  | freeConn (caller : Nat) (sql : Conn)

def step [DecidableEq Conn] (server : Callers Conn) : Action Conn → Option (Callers Conn)
  | .arrive => some { server with callers := server.callers ++ [{}] }
  | .getConn i => do
    let caller ← server.callers[i]?
    let (caller, pool) ← caller.advance server.pool
    return { pool, callers := server.callers.set i caller }
  | .freeConn i sql => do
    let caller ← server.callers[i]?
    let (caller, pool) ← caller.giveBack sql server.pool
    return { pool, callers := server.callers.set i caller }

end Callers

end SqlConnPool

/-- How far a call of `UserVerify` has come: what it does next. -/
inductive Stage (Conn : Type) where
  | enter
  | empty
  | semWait
  | pop
  /-- The queue was empty, and `assert(sql)` fails. -/
  | assertNull
  /-- The `SqlConnRAII` has no name, so it ends with the statement that makes it. -/
  | destroy (sql : Conn)
  | query (sql : Conn)
  | insert (sql : Conn)
  | freeConn (sql : Conn) (flag : Bool)
  | returned (flag : Bool)
deriving DecidableEq

/-- The connection that the call holds. -/
def Stage.sql? {Conn : Type} : Stage Conn → Option Conn
  | .destroy sql | .query sql | .insert sql | .freeConn sql _ => some sql
  | .enter | .empty | .semWait | .pop | .assertNull | .returned _ => none

structure UserVerify (Conn : Type) where
  name : Bytes
  pwd : Bytes
  isLogin : Bool
  stage : Stage Conn := .enter
deriving DecidableEq

namespace UserVerify

variable {Conn : Type}

/-- The loop over the rows, of each of which the password is given. -/
def verify (call : UserVerify Conn) (rows : List Bytes) : Bool :=
  rows.foldl (fun _ password => call.isLogin && call.pwd = password) (!call.isLogin)

/-- One step of the call. `rows` is what the first query brings, or that it fails. -/
def advance (call : UserVerify Conn) (pool : SqlConnPool Conn) (rows : Option (List Bytes)) :
    Option (Stage Conn × SqlConnPool Conn) :=
  match call.stage with
  | .enter => some (if call.name = [] ∨ call.pwd = [] then .returned false else .empty, pool)
  | .empty => some (if pool.connQue = [] then .assertNull else .semWait, pool)
  | .semWait => do return (.pop, ← pool.semWait)
  | .pop => do
    let (sql, pool) ← pool.popConn
    return (.destroy sql, pool)
  | .assertNull => none
  | .destroy sql => some (.query sql, pool.freeConn sql)
  | .query sql =>
    match rows with
    | none => some (.returned false, pool)
    | some rows =>
      let flag := call.verify rows
      some (if !call.isLogin && flag then .insert sql else .freeConn sql flag, pool)
  | .insert sql => some (.freeConn sql true, pool)
  | .freeConn sql flag => some (.returned flag, pool.freeConn sql)
  | .returned _ => none

end UserVerify

structure Verifications (Conn : Type) where
  pool : SqlConnPool Conn
  calls : List (UserVerify Conn) := []

namespace Verifications

variable {Conn : Type}

inductive Action where
  | arrive (name pwd : Bytes) (isLogin : Bool)
  | advance (call : Nat) (rows : Option (List Bytes))

def step (server : Verifications Conn) : Action → Option (Verifications Conn)
  | .arrive name pwd isLogin => some { server with calls := server.calls ++ [{ name, pwd, isLogin }] }
  | .advance i rows => do
    let call ← server.calls[i]?
    let (stage, pool) ← call.advance server.pool rows
    return { pool, calls := server.calls.set i { call with stage } }

end Verifications

end HttpFramework.Code
