import HttpFramework.Code.SqlConnPool
import HttpFramework.Library.Transition

/-! Who owns a connection. A call gives its connection back as soon as it has it, and at its end
once more. So a connection is used by one call at a time and is in the queue once exactly as
long as no call gets to its end and none is handed a connection that another still uses. -/

namespace HttpFramework.Code
open Transition

namespace Verifications

variable {Conn : Type} {connections : List Conn} {server next : Verifications Conn}

def stage? (server : Verifications Conn) (i : Nat) : Option (Stage Conn) := server.calls[i]?.map UserVerify.stage

/-- Call number `i` holds the connection. -/
def Uses (server : Verifications Conn) (i : Nat) (sql : Conn) : Prop :=
  ∃ stage, server.stage? i = some stage ∧ stage.sql? = some sql

structure Exclusive (server : Verifications Conn) : Prop where
  one : ∀ i j sql, server.Uses i sql → server.Uses j sql → i = j
  once : server.pool.connQue.Nodup
  most : server.pool.connQue.length ≤ server.pool.maxConn

/-- What the call may do next. -/
def SafeStage (server : Verifications Conn) : Stage Conn → Prop
  | .pop => ∀ sql, server.pool.connQue.head? = some sql → ∀ i, ¬ server.Uses i sql
  | .freeConn _ _ => False
  | .enter | .empty | .semWait | .assertNull | .destroy _ | .query _ | .insert _ | .returned _ => True

def Safe (server : Verifications Conn) : Action → Prop
  | .arrive .. => True
  | .advance i _ => ∀ stage, server.stage? i = some stage → server.SafeStage stage

/-- Where the connections are as long as every step is safe: one that has just been handed out is
not in the queue, and one that is used already is. -/
structure Owned (connections : List Conn) (server : Verifications Conn) : Prop where
  one : ∀ i j sql, server.Uses i sql → server.Uses j sql → i = j
  once : server.pool.connQue.Nodup
  max : server.pool.maxConn = connections.length
  known : ∀ sql ∈ server.pool.connQue, sql ∈ connections
  held : ∀ i sql, server.stage? i = some (.destroy sql) → sql ∈ connections ∧ sql ∉ server.pool.connQue
  used : ∀ i stage sql, server.stage? i = some stage → stage.sql? = some sql → stage ≠ .destroy sql →
    sql ∈ server.pool.connQue

theorem Owned.exclusive (owned : Owned connections server) : server.Exclusive where
  one := owned.one
  once := owned.once
  most := by
    rw [owned.max]
    exact (owned.once.subperm owned.known).length_le

/-- What a step does to the queue and to what the call holds. -/
inductive Moves (pool : SqlConnPool Conn) : Stage Conn → SqlConnPool Conn → Stage Conn → Prop where
  | quiet {stage later pool'} (queue : pool'.connQue = pool.connQue) (max : pool'.maxConn = pool.maxConn)
      (holds : later.sql? = none ∨ later.sql? = stage.sql?) (before : ∀ sql, stage ≠ .destroy sql)
      (after : ∀ sql, later ≠ .destroy sql) (other : stage ≠ .pop ∧ ∀ sql flag, stage ≠ .freeConn sql flag) :
      Moves pool stage pool' later
  | popped {sql pool'} (queue : pool.connQue = sql :: pool'.connQue) (max : pool'.maxConn = pool.maxConn) :
      Moves pool .pop pool' (.destroy sql)
  | destroyed {sql pool'} (freed : pool' = pool.freeConn sql) : Moves pool (.destroy sql) pool' (.query sql)
  | freed {sql flag pool'} (freed : pool' = pool.freeConn sql) : Moves pool (.freeConn sql flag) pool' (.returned flag)

theorem moves {call : UserVerify Conn} {pool pool' : SqlConnPool Conn} {rows : Option (List Bytes)} {later : Stage Conn}
    (taken : call.advance pool rows = some (later, pool')) : Moves pool call.stage pool' later := by
  cases stage : call.stage with
  | enter | empty =>
    simp only [UserVerify.advance, stage, Option.some_inj, Prod.mk.injEq] at taken
    obtain ⟨rfl, rfl⟩ := taken
    refine .quiet rfl rfl (.inl ?_) nofun ?_ ⟨nofun, nofun⟩
    · split <;> rfl
    · intro sql
      split <;> nofun
  | semWait =>
    simp only [UserVerify.advance, stage, SqlConnPool.semWait] at taken
    split at taken
    · cases taken
      exact .quiet rfl rfl (.inl rfl) nofun nofun ⟨nofun, nofun⟩
    · cases taken
  | pop =>
    simp only [UserVerify.advance, stage, SqlConnPool.popConn] at taken
    split at taken
    next => cases taken
    next sql rest queue =>
      cases taken
      exact .popped queue rfl
  | assertNull | returned flag =>
    simp only [UserVerify.advance, stage] at taken
    cases taken
  | destroy sql =>
    simp only [UserVerify.advance, stage] at taken
    cases taken
    exact .destroyed rfl
  | query sql =>
    simp only [UserVerify.advance, stage] at taken
    cases rows with
    | none =>
      cases taken
      exact .quiet rfl rfl (.inl rfl) nofun nofun ⟨nofun, nofun⟩
    | some rows =>
      simp only [Option.some_inj, Prod.mk.injEq] at taken
      obtain ⟨rfl, rfl⟩ := taken
      refine .quiet rfl rfl (.inr ?_) nofun ?_ ⟨nofun, nofun⟩
      · split <;> rfl
      · intro sql
        split <;> nofun
  | insert sql =>
    simp only [UserVerify.advance, stage] at taken
    cases taken
    exact .quiet rfl rfl (.inr rfl) nofun nofun ⟨nofun, nofun⟩
  | freeConn sql flag =>
    simp only [UserVerify.advance, stage] at taken
    cases taken
    exact .freed rfl

theorem step_cases {action : Action} (taken : server.step action = some next) :
    ((∃ name pwd isLogin, action = .arrive name pwd isLogin) ∧ next.pool = server.pool ∧
      ∀ k stage, next.stage? k = some stage → server.stage? k = some stage ∨ stage = .enter) ∨
    ∃ i rows stage later, action = .advance i rows ∧ server.stage? i = some stage ∧
      Moves server.pool stage next.pool later ∧
      ∀ k, next.stage? k = if k = i then some later else server.stage? k := by
  cases action with
  | arrive name pwd isLogin =>
    cases taken
    refine .inl ⟨⟨_, _, _, rfl⟩, rfl, ?_⟩
    intro k stage found
    simp only [stage?, List.getElem?_append] at found
    split at found
    · exact .inl found
    · obtain ⟨call, there, rfl⟩ := Option.map_eq_some_iff.mp found
      cases List.mem_singleton.mp (List.mem_of_getElem? there)
      exact .inr rfl
  | advance i rows =>
    simp only [step, Option.bind_eq_bind, Option.bind_eq_some_iff] at taken
    obtain ⟨call, found, ⟨later, pool⟩, moved, result⟩ := taken
    cases result
    have bound := (List.getElem?_eq_some_iff.mp found).1
    refine .inr ⟨i, rows, call.stage, later, rfl, by simp [stage?, found], moves moved, ?_⟩
    intro k
    by_cases same : k = i
    · subst same
      simp [stage?, bound]
    · simp [stage?, List.getElem?_set_ne (Ne.symm same), same]

section
variable {i : Nat} {stage later : Stage Conn} {sql : Conn}

/-- A step in which the call gets no connection. -/
theorem uses_of_quiet (stages : ∀ k, next.stage? k = if k = i then some later else server.stage? k)
    (found : server.stage? i = some stage) (holds : later.sql? = none ∨ later.sql? = stage.sql?)
    {k : Nat} (uses : next.Uses k sql) : server.Uses k sql := by
  obtain ⟨now, there, same⟩ := uses
  rw [stages] at there
  split at there
  next here =>
    cases there
    rcases holds with none | kept
    · rw [none] at same
      cases same
    · exact ⟨stage, here ▸ found, kept ▸ same⟩
  next => exact ⟨now, there, same⟩

theorem Owned.quiet (owned : Owned connections server)
    (stages : ∀ k, next.stage? k = if k = i then some later else server.stage? k) (found : server.stage? i = some stage)
    (queue : next.pool.connQue = server.pool.connQue) (max : next.pool.maxConn = server.pool.maxConn)
    (holds : later.sql? = none ∨ later.sql? = stage.sql?) (before : ∀ sql, stage ≠ .destroy sql)
    (after : ∀ sql, later ≠ .destroy sql) : Owned connections next where
  one k l sql first second :=
    owned.one k l sql (uses_of_quiet stages found holds first) (uses_of_quiet stages found holds second)
  once := queue ▸ owned.once
  max := max.trans owned.max
  known := queue ▸ owned.known
  held k sql there := by
    rw [stages] at there
    rw [queue]
    split at there
    next => exact absurd (Option.some_inj.mp there) (after sql)
    next => exact owned.held k sql there
  used k now sql there same apart := by
    rw [queue]
    obtain ⟨earlier, there', same'⟩ := uses_of_quiet stages found holds ⟨now, there, same⟩
    refine owned.used k earlier sql there' same' ?_
    rw [stages] at there
    split at there
    next here =>
      rw [here, found, Option.some_inj] at there'
      exact there' ▸ before sql
    next =>
      rw [there', Option.some_inj] at there
      exact there ▸ apart

theorem Owned.arrived (owned : Owned connections server) (pool : next.pool = server.pool)
    (stages : ∀ k stage, next.stage? k = some stage → server.stage? k = some stage ∨ stage = .enter) :
    Owned connections next := by
  have uses : ∀ {k sql}, next.Uses k sql → server.Uses k sql := by
    rintro k sql ⟨stage, there, holds⟩
    rcases stages k stage there with before | rfl
    · exact ⟨stage, before, holds⟩
    · cases holds
  refine ⟨fun k l sql first second => owned.one k l sql (uses first) (uses second), pool ▸ owned.once, pool ▸ owned.max,
    pool ▸ owned.known, ?_, ?_⟩
  · intro k sql there
    rcases stages k _ there with before | fresh
    · exact pool ▸ owned.held k sql before
    · cases fresh
  · intro k stage sql there holds apart
    rcases stages k stage there with before | rfl
    · exact pool ▸ owned.used k stage sql before holds apart
    · cases holds

theorem Owned.popped (owned : Owned connections server)
    (stages : ∀ k, next.stage? k = if k = i then some (.destroy sql) else server.stage? k)
    (queue : server.pool.connQue = sql :: next.pool.connQue) (max : next.pool.maxConn = server.pool.maxConn)
    (free : ∀ k, ¬ server.Uses k sql) : Owned connections next := by
  have once := owned.once
  rw [queue, List.nodup_cons] at once
  have uses : ∀ {k other}, next.Uses k other → (k = i ∧ other = sql) ∨ (k ≠ i ∧ server.Uses k other) := by
    rintro k other ⟨now, there, same⟩
    rw [stages] at there
    split at there
    next here =>
      cases there
      exact .inl ⟨here, (Option.some_inj.mp same).symm⟩
    next apart => exact .inr ⟨apart, now, there, same⟩
  refine ⟨?_, once.2, max.trans owned.max, ?_, ?_, ?_⟩
  · intro k l other first second
    rcases uses first with ⟨rfl, rfl⟩ | ⟨_, before⟩ <;> rcases uses second with ⟨rfl, same⟩ | ⟨_, before'⟩
    · rfl
    · exact absurd before' (free l)
    · exact absurd (same ▸ before) (free k)
    · exact owned.one k l other before before'
  · intro other member
    exact owned.known other (queue ▸ List.mem_cons_of_mem _ member)
  · intro k other there
    rw [stages] at there
    split at there
    next =>
      cases there
      exact ⟨owned.known sql (queue ▸ List.mem_cons_self), once.1⟩
    next =>
      obtain ⟨member, absent⟩ := owned.held k other there
      exact ⟨member, fun later => absent (queue ▸ List.mem_cons_of_mem _ later)⟩
  · intro k now other there same apart
    rw [stages] at there
    split at there
    next =>
      cases there
      cases same
      exact absurd rfl apart
    next =>
      have member := owned.used k now other there same apart
      rw [queue] at member
      rcases List.mem_cons.mp member with rfl | rest
      · exact absurd ⟨now, there, same⟩ (free k)
      · exact rest

theorem Owned.destroyed (owned : Owned connections server)
    (stages : ∀ k, next.stage? k = if k = i then some (.query sql) else server.stage? k)
    (found : server.stage? i = some (.destroy sql)) (pool : next.pool = server.pool.freeConn sql) : Owned connections next := by
  obtain ⟨known, absent⟩ := owned.held i sql found
  have queue : next.pool.connQue = server.pool.connQue ++ [sql] := by rw [pool]; rfl
  have uses := fun {k other} => @uses_of_quiet _ server next i _ _ other stages found (.inr rfl) k
  refine ⟨?_, ?_, ?_, ?_, ?_, ?_⟩
  · intro k l other first second
    exact owned.one k l other (uses first) (uses second)
  · rw [queue]
    exact List.nodup_append.mpr ⟨owned.once, List.nodup_singleton sql, by
      rintro first member _ here rfl
      exact absent (List.mem_singleton.mp here ▸ member)⟩
  · rw [pool]
    exact owned.max
  · intro other member
    rw [queue] at member
    rcases List.mem_append.mp member with before | last
    · exact owned.known other before
    · exact List.mem_singleton.mp last ▸ known
  · intro k other there
    have holder : server.Uses k other := uses ⟨_, there, rfl⟩
    rw [stages] at there
    split at there
    next => cases there
    next apart =>
      obtain ⟨member, outside⟩ := owned.held k other there
      refine ⟨member, fun later => ?_⟩
      rw [queue] at later
      rcases List.mem_append.mp later with before | last
      · exact outside before
      · cases List.mem_singleton.mp last
        exact apart (owned.one k i _ holder ⟨_, found, rfl⟩)
  · intro k now other there same apart
    rw [stages] at there
    rw [queue]
    split at there
    next =>
      cases there
      cases same
      exact List.mem_append_right _ (List.mem_singleton_self _)
    next => exact List.mem_append_left _ (owned.used k now other there same apart)

end

/-- After a step, the connections are each used once exactly if the step was safe, and then they
are where they belong. -/
theorem step_owned {action : Action} (owned : Owned connections server) (taken : server.step action = some next) :
    (next.Exclusive ↔ server.Safe action) ∧ (server.Safe action → Owned connections next) := by
  suffices owns : server.Safe action → Owned connections next by
    refine ⟨⟨fun exclusive => ?_, fun safe => (owns safe).exclusive⟩, owns⟩
    rcases step_cases taken with ⟨⟨_, _, _, rfl⟩, _⟩ | ⟨i, rows, stage, later, rfl, found, move, stages⟩
    · trivial
    · intro stage' found'
      cases found.symm.trans found'
      cases move with
      | quiet _ _ _ _ _ other =>
        cases stage with
        | pop => exact absurd rfl other.1
        | freeConn sql flag => exact absurd rfl (other.2 sql flag)
        | enter | empty | semWait | assertNull | destroy | query | insert | returned => trivial
      | @popped sql _ queue max =>
        intro sql' front k uses
        rw [queue] at front
        cases front
        have apart : k ≠ i := by
          rintro rfl
          obtain ⟨_, there, holds⟩ := uses
          cases found.symm.trans there
          cases holds
        have other : next.Uses k sql := by
          obtain ⟨stage, there, holds⟩ := uses
          exact ⟨stage, by rw [stages, if_neg apart, there], holds⟩
        exact apart (exclusive.one k i sql other ⟨_, by rw [stages, if_pos rfl], rfl⟩)
      | destroyed => trivial
      | @freed sql flag _ freed =>
        have member := owned.used i _ sql found rfl nofun
        have once := exclusive.once
        rw [freed] at once
        exact (List.nodup_append.mp once).2.2 sql member sql (List.mem_singleton_self sql) rfl
  intro safe
  rcases step_cases taken with ⟨_, pool, stages⟩ | ⟨i, rows, stage, later, rfl, found, move, stages⟩
  · exact owned.arrived pool stages
  · cases move with
    | quiet queue max holds before after => exact owned.quiet stages found queue max holds before after
    | @popped sql _ queue max => exact owned.popped stages queue max (safe _ found sql (by rw [queue]; rfl))
    | destroyed freed => exact owned.destroyed stages found freed
    | freed => exact (safe _ found).elim

theorem owned_init (distinct : connections.Nodup) : Owned connections { pool := SqlConnPool.init connections } where
  one i j sql first _ := by
    obtain ⟨_, there, _⟩ := first
    cases there
  once := distinct
  max := rfl
  known _ member := member
  held i sql there := by cases there
  used i stage sql there := by cases there

/-- For any number of calls and any interleaving of their steps: every connection is used by one
call at a time and stands in the queue once exactly when no call gets to its second `FreeConn`
and none takes a connection out of the queue that another still uses. -/
theorem exclusive_throughout_iff (connections : List Conn) (distinct : connections.Nodup) (actions : List Action) :
    Throughout step (fun _ _ next => next.Exclusive) { pool := SqlConnPool.init connections } actions ↔
      Throughout step (fun server action _ => server.Safe action) { pool := SqlConnPool.init connections } actions := by
  apply throughout_iff (Owned connections)
  · intro server action next owned taken
    exact (step_owned owned taken).2
  · intro server action next owned taken
    exact (step_owned owned taken).1
  · exact owned_init distinct

theorem exclusive_failed_query :
    Throughout step (fun _ _ next => next.Exclusive) { pool := SqlConnPool.init [1, 2] }
      (.arrive (ascii "bob") (ascii "pw") true :: List.replicate 6 (.advance 0 none)) := by
  apply (exclusive_throughout_iff [1, 2] (by decide) _).mpr
  have quiet : ∀ {server : Verifications Nat} {stage}, server.stage? 0 = some stage → server.SafeStage stage →
      server.Safe (.advance 0 none) := by
    intro server stage found safe stage' found'
    cases found.symm.trans found'
    exact safe
  apply Throughout.cons rfl trivial
  refine Throughout.cons rfl (quiet rfl (by trivial)) ?_
  refine Throughout.cons rfl (quiet rfl (by trivial)) ?_
  refine Throughout.cons rfl (quiet rfl (by trivial)) ?_
  refine Throughout.cons rfl (quiet rfl ?_) ?_
  · rintro sql _ i ⟨stage, there, holds⟩
    cases i with
    | zero =>
      cases there
      cases holds
    | succ i => cases there
  · refine Throughout.cons rfl (quiet rfl (by trivial)) ?_
    exact .cons rfl (quiet rfl (by trivial)) (.nil _)

/-- One call that runs to its end puts its connection into the queue twice. -/
theorem one_call_duplicates :
    ∃ final, Run step { pool := SqlConnPool.init [1, 2] }
        (.arrive (ascii "bob") (ascii "pw") true :: List.replicate 7 (.advance 0 (some [ascii "pw"]))) final ∧
      final.pool.connQue = [2, 1, 1] ∧ ¬ final.Exclusive := by
  refine ⟨_, .cons rfl (.cons rfl (.cons rfl (.cons rfl (.cons rfl (.cons rfl (.cons rfl (.cons rfl (.nil _)))))))), rfl, ?_⟩
  intro exclusive
  exact absurd exclusive.once (by decide)

end Verifications

end HttpFramework.Code
