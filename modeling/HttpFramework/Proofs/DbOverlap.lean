import HttpFramework.Http.DbOperations
import HttpFramework.Proofs.DbPool

/-! Whether two operations on one connection overlap. Calls and handles never share a connection,
and the mutex of a connection keeps the users of one handle apart. The checker, however, keeps
what it found idle, and nothing tells it that a connection has been checked out since. -/

namespace HttpFramework.Http
open Transition

namespace DbConnectionPool

variable {pool next : DbConnectionPool} {call other : Nat}

/-- What a step leaves alone: the other calls, and every idle connection but one that is popped. -/
theorem advance_frame {result : Result} {checkout : Checkout} (taken : pool.advance call result checkout = some next) :
    (∀ other, other ≠ call → next.calls[other]? = pool.calls[other]?) ∧
      ∀ conn ∈ pool.connections, (checkout = .waiting → pool.connections.head? ≠ some conn) → conn ∈ next.connections := by
  have set_other (checkout : Checkout) (other : Nat) (different : other ≠ call) :
      (pool.calls.set call checkout)[other]? = pool.calls[other]? := List.getElem?_set_ne different.symm
  cases checkout with
  | waiting =>
    simp only [advance] at taken
    split at taken
    next conn rest queue =>
      cases taken
      refine ⟨set_other _, ?_⟩
      intro conn' member unpopped
      have later := unpopped rfl
      rw [queue] at member later
      rcases List.mem_cons.mp member with same | inside
      · exact absurd (by rw [same]; rfl) later
      · exact inside
    next =>
      split at taken
      · cases taken
      · cases taken
        exact ⟨set_other _, fun _ member _ => member⟩
  | popped conn =>
    cases result <;> cases taken <;> exact ⟨set_other _, fun _ member _ => member⟩
  | lost conn =>
    cases result <;> cases taken <;> exact ⟨set_other _, fun _ member _ => member⟩
  | caught conn =>
    cases taken
    exact ⟨set_other _, fun _ member _ => List.mem_append_left _ member⟩
  | returned conn => cases taken
  | threw => cases taken
  | released => cases taken

theorem release_frame (taken : pool.step (.release call) = some next) :
    (∀ other, other ≠ call → next.calls[other]? = pool.calls[other]?) ∧ ∀ conn ∈ pool.connections, conn ∈ next.connections := by
  simp only [step] at taken
  split at taken
  · cases taken
    exact ⟨fun _ different => List.getElem?_set_ne different.symm, fun _ member => List.mem_append_left _ member⟩
  · cases taken

theorem check_frame {result : Result} (taken : pool.step (.check result) = some next) :
    next.calls = pool.calls ∧ next.connections = pool.connections := by
  simp only [step] at taken
  split at taken <;> cases taken
  exact ⟨rfl, rfl⟩

end DbConnectionPool

namespace DbOperations

variable {state next : DbOperations} {poolSize call : Nat} {conn : DbConnection} {operator : Operator}

/-- No two operations under way are on one connection. -/
def Apart (state : DbOperations) : Prop := (state.operations.map Prod.snd).Nodup

/-- The checker starts on a connection only while it is idle, and no connection is checked out while
the checker is at it. -/
def Careful (state : DbOperations) : Action → Prop
  | .begin .checker => ∀ conn, state.pool.connsToCheck.head? = some conn → conn ∈ state.pool.connections
  | .lock call => state.pool.calls[call]? = some .waiting →
      ∀ conn, state.pool.connections.head? = some conn → (Operator.checker, conn) ∉ state.operations
  | _ => True

/-- Where the connection of an operation is. -/
def Placed (pool : DbConnectionPool) : Operator → DbConnection → Prop
  | .call call, conn => pool.calls[call]? = some (.popped conn) ∨ pool.calls[call]? = some (.lost conn)
  | .client call, conn => pool.calls[call]? = some (.returned conn)
  | .checker, conn => conn ∈ pool.connections

structure Valid (poolSize : Nat) (state : DbOperations) : Prop where
  ready : state.pool.Ready poolSize
  apart : state.Apart
  placed : ∀ operator conn, (operator, conn) ∈ state.operations → Placed state.pool operator conn

theorem valid_start : (start poolSize).Valid poolSize where
  ready := DbConnectionPool.init_ready poolSize
  apart := List.nodup_nil
  placed := by
    intro operator conn member
    cases member

theorem performs_iff : state.performs operator = true ↔ ∃ conn, (operator, conn) ∈ state.operations := by
  simp [performs]

/-- Two operators have one connection only when they are the same or two users of a handle. -/
theorem ne_of_placed {pool : DbConnectionPool} {other : Operator} {conn' : DbConnection} (exclusive : pool.Exclusive)
    (placed : Placed pool operator conn) (placed' : Placed pool other conn') (different : operator ≠ other) : conn ≠ conn' := by
  intro same
  subst same
  have has {operator : Operator} (placed : Placed pool operator conn) :
      operator = .checker ∧ conn ∈ pool.connections ∨
        ∃ (call : Nat) (checkout : Checkout), (operator = .call call ∧ (checkout = .popped conn ∨ checkout = .lost conn) ∨
          operator = .client call ∧ checkout = .returned conn) ∧ pool.calls[call]? = some checkout ∧
          checkout.conn? = some conn := by
    cases operator with
    | call call =>
      rcases placed with there | there
      · exact .inr ⟨call, _, .inl ⟨rfl, .inl rfl⟩, there, rfl⟩
      · exact .inr ⟨call, _, .inl ⟨rfl, .inr rfl⟩, there, rfl⟩
    | client call => exact .inr ⟨call, _, .inr ⟨rfl, rfl⟩, placed, rfl⟩
    | checker => exact .inl ⟨rfl, placed⟩
  rcases has placed with ⟨first, idle⟩ | ⟨call, checkout, first, there, holds⟩
  · rcases has placed' with ⟨second, _⟩ | ⟨call', checkout', second, there', holds'⟩
    · exact different (first.trans second.symm)
    · exact exclusive.idle call' checkout' conn there' holds' idle
  · rcases has placed' with ⟨second, idle⟩ | ⟨call', checkout', second, there', holds'⟩
    · exact exclusive.idle call checkout conn there holds idle
    · obtain rfl := exclusive.once call call' checkout checkout' conn there there' holds holds'
      cases there.symm.trans there'
      rcases first with ⟨first, stage⟩ | ⟨first, stage⟩ <;> rcases second with ⟨second, stage'⟩ | ⟨second, stage'⟩
      · exact different (first.trans second.symm)
      · rcases stage with rfl | rfl <;> cases stage'
      · rcases stage' with rfl | rfl <;> cases stage
      · exact different (first.trans second.symm)

theorem placed_of_usable (careful : state.Careful (.begin operator)) (able : state.usable operator = some conn) :
    Placed state.pool operator conn := by
  cases operator with
  | call call =>
    simp only [usable] at able
    split at able
    next there =>
      split at able <;> cases able
      exact .inl there
    next there =>
      split at able <;> cases able
      exact .inr there
    next => cases able
  | client call =>
    simp only [usable] at able
    split at able
    next there =>
      split at able <;> cases able
      exact there
    next => cases able
  | checker =>
    simp only [usable] at able
    split at able
    · cases able
    · exact careful conn able

/-- An operator is not in the middle of another operation, and a handle has the mutex. -/
theorem fresh_of_usable (able : state.usable operator = some conn) (other : DbConnection)
    (member : (operator, other) ∈ state.operations) : other ≠ conn := by
  have performing : state.performs operator = true := performs_iff.mpr ⟨other, member⟩
  cases operator with
  | call call =>
    simp only [usable, performing, if_true] at able
    split at able <;> cases able
  | client call =>
    simp only [usable] at able
    split at able
    next there =>
      split at able
      · cases able
      next free =>
        cases able
        intro same
        subst same
        apply free
        apply List.any_eq_true.mpr
        exact ⟨_, member, by simp⟩
    next => cases able
  | checker => simp [usable, performing] at able

theorem Valid.begin (valid : state.Valid poolSize) (careful : state.Careful (.begin operator))
    (able : state.usable operator = some conn) :
    Valid poolSize { state with operations := (operator, conn) :: state.operations } := by
  have placed := placed_of_usable careful able
  refine ⟨valid.ready, ?_, ?_⟩
  · apply List.nodup_cons.mpr
    refine ⟨?_, valid.apart⟩
    intro member
    obtain ⟨⟨other, conn'⟩, inside, same⟩ := List.mem_map.mp member
    obtain rfl : conn' = conn := same
    by_cases own : operator = other
    · subst own
      exact fresh_of_usable able _ inside rfl
    · exact ne_of_placed valid.ready.conserved.exclusive placed (valid.placed other _ inside) own rfl
  · intro other conn' member
    rcases List.mem_cons.mp member with same | inside
    · cases same
      exact placed
    · exact valid.placed other conn' inside

theorem Valid.remove (valid : state.Valid poolSize) (operator : Operator) : (state.remove operator).Valid poolSize where
  ready := valid.ready
  apart := valid.apart.sublist (List.filter_sublist.map _)
  placed := fun other conn member => valid.placed other conn (List.mem_filter.mp member).1

/-- A step of the pool that leaves every operation where it was. -/
theorem Valid.inPool {action : DbConnectionPool.Action} (valid : state.Valid poolSize)
    (stepped : state.inPool action = some next)
    (frame : ∀ pool, state.pool.step action = some pool → ∀ operator conn, (operator, conn) ∈ state.operations →
      Placed state.pool operator conn → Placed pool operator conn) : next.Valid poolSize := by
  obtain ⟨pool, taken, rfl⟩ := Option.map_eq_some_iff.mp stepped
  refine ⟨(DbConnectionPool.step_ready valid.ready taken).2, valid.apart, ?_⟩
  intro operator conn member
  exact frame pool taken operator conn member (valid.placed operator conn member)

/-- A call that moves takes no operation with it that belongs to another call. -/
theorem placed_of_frame {pool pool' : DbConnectionPool} (calls : ∀ other, other ≠ call → pool'.calls[other]? = pool.calls[other]?)
    (idle : operator = .checker → conn ∈ pool'.connections) (apart : operator ≠ .call call ∧ operator ≠ .client call)
    (placed : Placed pool operator conn) : Placed pool' operator conn := by
  cases operator with
  | call other =>
    have different : other ≠ call := fun same => apart.1 (by rw [same])
    rwa [Placed, calls other different]
  | client other =>
    have different : other ≠ call := fun same => apart.2 (by rw [same])
    rwa [Placed, calls other different]
  | checker => exact idle rfl

theorem Valid.advance {result : DbConnectionPool.Result} {checkout : Checkout} (valid : state.Valid poolSize)
    (there : state.pool.calls[call]? = some checkout) (stepped : state.inPool (.advance call result) = some next)
    (free : ∀ operator conn, (operator, conn) ∈ state.operations → operator ≠ .call call ∧ operator ≠ .client call)
    (kept : ∀ conn, (Operator.checker, conn) ∈ state.operations → checkout = .waiting → state.pool.connections.head? ≠ some conn) :
    next.Valid poolSize := by
  apply valid.inPool stepped
  intro pool taken operator conn member placed
  obtain ⟨checkout', there', advanced⟩ := Option.bind_eq_some_iff.mp taken
  cases there.symm.trans there'
  obtain ⟨calls, idle⟩ := DbConnectionPool.advance_frame advanced
  apply placed_of_frame calls _ (free operator conn member) placed
  intro checker
  subst checker
  exact idle conn placed (kept conn member)

theorem Valid.check {result : DbConnectionPool.Result} (valid : state.Valid poolSize)
    (stepped : state.inPool (.check result) = some next) : next.Valid poolSize := by
  apply valid.inPool stepped
  intro pool taken operator conn _ placed
  obtain ⟨calls, connections⟩ := DbConnectionPool.check_frame taken
  cases operator <;> simpa only [Placed, calls, connections] using placed

theorem Valid.finish {result : DbConnectionPool.Result} (valid : state.Valid poolSize) (performing : state.performs operator)
    (finished : state.finish result operator = some next) : next.Valid poolSize := by
  have removed := valid.remove operator
  cases operator with
  | call call =>
    obtain ⟨conn, member⟩ := performs_iff.mp performing
    have placed := valid.placed _ _ member
    have free : ∀ operator conn, (operator, conn) ∈ (state.remove (.call call)).operations →
        operator ≠ .call call ∧ operator ≠ .client call := by
      intro other conn' member'
      obtain ⟨inside, different⟩ := List.mem_filter.mp member'
      refine ⟨by simpa using different, ?_⟩
      intro client
      subst client
      have returned : state.pool.calls[call]? = some (.returned conn') := valid.placed _ _ inside
      rcases placed with there | there <;> cases there.symm.trans returned
    rcases placed with there | there
    · exact removed.advance there finished free fun _ _ waiting => by cases waiting
    · exact removed.advance there finished free fun _ _ waiting => by cases waiting
  | client call =>
    cases finished
    exact removed
  | checker =>
    simp only [DbOperations.finish] at finished
    split at finished
    · have lost : Valid poolSize { state.remove .checker with checkLost := false } := ⟨removed.ready, removed.apart, removed.placed⟩
      exact lost.check finished
    · split at finished
      · cases finished
        exact ⟨removed.ready, removed.apart, removed.placed⟩
      · exact removed.check finished

theorem Valid.getConnection (valid : state.Valid poolSize) (stepped : state.inPool .getConnection = some next) : next.Valid poolSize := by
  apply valid.inPool stepped
  intro pool taken operator conn _ placed
  cases taken
  have longer {call : Nat} {checkout : Checkout} (there : state.pool.calls[call]? = some checkout) :
      (state.pool.calls ++ [Checkout.waiting])[call]? = some checkout := by
    rwa [List.getElem?_append_left (List.getElem?_eq_some_iff.mp there).1]
  cases operator with
  | call call => exact placed.imp longer longer
  | client call => exact longer placed
  | checker => exact placed

/-- Neither a call that waits nor one that has caught an exception performs an operation. -/
theorem Valid.free_of_locking {checkout : Checkout} (valid : state.Valid poolSize) (there : state.pool.calls[call]? = some checkout)
    (locks : checkout = .waiting ∨ ∃ conn, checkout = .caught conn) (operator : Operator) (conn : DbConnection)
    (member : (operator, conn) ∈ state.operations) : operator ≠ .call call ∧ operator ≠ .client call := by
  have placed := valid.placed operator conn member
  constructor
  · intro same
    subst same
    rcases locks with rfl | ⟨conn, rfl⟩ <;> rcases placed with there' | there' <;> cases there.symm.trans there'
  · intro same
    subst same
    rcases locks with rfl | ⟨conn, rfl⟩ <;> cases there.symm.trans placed

theorem Valid.release (valid : state.Valid poolSize) (unused : ¬ state.performs (.client call))
    (stepped : state.inPool (.release call) = some next) : next.Valid poolSize := by
  apply valid.inPool stepped
  intro pool taken operator conn member placed
  obtain ⟨calls, idle⟩ := DbConnectionPool.release_frame taken
  have apart : operator ≠ .call call ∧ operator ≠ .client call := by
    constructor
    · intro same
      subst same
      simp only [DbConnectionPool.step] at taken
      split at taken
      next there => rcases placed with there' | there' <;> cases there.symm.trans there'
      next => cases taken
    · intro same
      subst same
      exact unused (performs_iff.mpr ⟨conn, member⟩)
  apply placed_of_frame calls _ apart placed
  intro checker
  subst checker
  exact idle conn placed

theorem Valid.snapshot (valid : state.Valid poolSize) (stepped : state.inPool .snapshot = some next) : next.Valid poolSize := by
  apply valid.inPool stepped
  intro pool taken operator conn _ placed
  simp only [DbConnectionPool.step] at taken
  split at taken <;> cases taken
  cases operator <;> exact placed

theorem step_valid {action : Action} (valid : state.Valid poolSize) (careful : state.Careful action)
    (taken : state.step action = some next) : next.Valid poolSize := by
  cases action with
  | getConnection => exact valid.getConnection taken
  | lock call =>
    simp only [step] at taken
    split at taken
    next there =>
      refine valid.advance there taken (valid.free_of_locking there (.inl rfl)) ?_
      intro conn member _ front
      exact careful there conn front member
    next conn there =>
      refine valid.advance there taken (valid.free_of_locking there (.inr ⟨conn, rfl⟩)) ?_
      intro conn member waiting
      cases waiting
    next => cases taken
  | release call =>
    simp only [step] at taken
    split at taken
    · cases taken
    next unused => exact valid.release unused taken
  | snapshot => exact valid.snapshot taken
  | begin operator =>
    obtain ⟨conn, able, rfl⟩ := Option.map_eq_some_iff.mp taken
    exact valid.begin careful able
  | finish operator result =>
    simp only [step] at taken
    split at taken
    next performing => exact valid.finish performing taken
    next => cases taken

/-- No two operations on one connection overlap as long as the checker keeps to idle connections
and these stay idle while it is at them. -/
theorem apart_throughout (poolSize : Nat) (actions : List Action)
    (meets : Throughout step (fun state action _ => state.Careful action) (start poolSize) actions) :
    Throughout step (fun _ _ next => next.Apart) (start poolSize) actions := by
  apply throughout_of_condition (fun state => state.Valid poolSize) _ _ valid_start meets
  · intro state action next valid taken careful
    exact step_valid valid careful taken
  · intro state action next valid taken careful
    exact (step_valid valid careful taken).apart

/-- The checker is done with its only connection before a client gets it. -/
theorem apart_throughout_checked_first :
    Throughout step (fun _ _ next => next.Apart) (start 1) [.snapshot, .begin .checker, .finish .checker .succeeds,
      .getConnection, .lock 0, .begin (.call 0), .finish (.call 0) .succeeds, .begin (.client 0)] := by
  apply apart_throughout
  apply Throughout.cons rfl trivial
  refine Throughout.cons rfl ?_ ?_
  · intro conn front
    cases front
    exact List.mem_singleton.mpr rfl
  apply Throughout.cons rfl trivial
  apply Throughout.cons rfl trivial
  refine Throughout.cons rfl ?_ ?_
  · intro _ conn _ member
    cases member
  apply Throughout.cons rfl trivial
  apply Throughout.cons rfl trivial
  apply Throughout.cons rfl trivial
  exact Throughout.nil _

/-- A client checks the connection out and queries it between the snapshot and the ping. -/
theorem ping_during_query :
    ¬ ∀ poolSize actions final, Run step (start poolSize) actions final → final.Apart := by
  intro never
  have ran : Run step (start 1) [.snapshot, .getConnection, .lock 0, .begin (.call 0), .finish (.call 0) .succeeds,
      .begin (.client 0), .begin .checker] _ :=
    .cons rfl (.cons rfl (.cons rfl (.cons rfl (.cons rfl (.cons rfl (.cons rfl (.nil _)))))))
  have apart := never _ _ _ ran
  exact (List.nodup_cons.mp apart).1 (List.mem_singleton.mpr rfl)

end DbOperations

end HttpFramework.Http
