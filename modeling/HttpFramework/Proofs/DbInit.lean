import HttpFramework.Http.DbConnectionPool
import Mathlib.Data.List.Induction
import Mathlib.Data.List.TakeWhile

/-! Calls of `init` that fail. The connections created before the failure stay in the queue, and
those of the next call are added to them. -/

namespace HttpFramework.Http

namespace DbConnectionPool

/-- A call of `init`, with what becomes of each connection. -/
structure InitCall where
  create : Nat → Option DbConnection
  poolSize : Nat

namespace InitCall

def run (pool : DbConnectionPool) (call : InitCall) : DbConnectionPool := (tryInit call.create call.poolSize pool).2

/-- Some connection cannot be created. -/
def Fails (call : InitCall) : Prop := ∃ i < call.poolSize, call.create i = none

def Succeeds (call : InitCall) : Prop := ∀ i < call.poolSize, call.create i ≠ none

end InitCall

/-- The connections up to the first failure. -/
def created (create : Nat → Option DbConnection) (places : List Nat) : List DbConnection :=
  (places.takeWhile fun i => (create i).isSome).filterMap create

variable {create : Nat → Option DbConnection} {call : InitCall} {calls : List InitCall} {pool : DbConnectionPool}

theorem createAll_eq (create : Nat → Option DbConnection) (places : List Nat) (pool : DbConnectionPool) :
    createAll create places pool =
      (places.all fun i => (create i).isSome, { pool with connections := pool.connections ++ created create places }) := by
  induction places generalizing pool with
  | nil => rw [created, List.takeWhile_nil, List.filterMap_nil, List.append_nil]; rfl
  | cons i places ih =>
    rw [createAll, created, List.takeWhile_cons, List.all_cons]
    cases made : create i with
    | none => simp
    | some conn => simp [ih, push, created, made]

theorem created_all {places : List Nat} (all : ∀ i ∈ places, create i ≠ none) :
    (created create places).length = places.length := by
  have whole : places.takeWhile (fun i => (create i).isSome) = places :=
    List.takeWhile_eq_self_iff.mpr fun i member => Option.isSome_iff_ne_none.mpr (all i member)
  rw [created, whole]
  exact List.filterMap_length_eq_length.mpr fun i member => Option.isSome_iff_ne_none.mpr (all i member)

theorem tryInit_eq (create : Nat → Option DbConnection) (poolSize : Nat) (uninitialized : pool.initialized = false) :
    tryInit create poolSize pool = ((List.range poolSize).all fun i => (create i).isSome,
      { pool with
        connections := pool.connections ++ created create (List.range poolSize)
        initialized := (List.range poolSize).all fun i => (create i).isSome }) := by
  rw [tryInit, createAll_eq, uninitialized, if_neg Bool.false_ne_true]
  cases (List.range poolSize).all fun i => (create i).isSome <;> rfl

/-- When nothing fails, this is the `init` of the other runs. -/
theorem tryInit_some (poolSize : Nat) (pool : DbConnectionPool) : tryInit some poolSize pool = (true, pool.init poolSize) := by
  cases initialized : pool.initialized with
  | true => rw [tryInit, init, if_pos initialized, if_pos initialized]
  | false =>
    have all : (List.range poolSize).takeWhile (fun i => (some i).isSome) = List.range poolSize :=
      List.takeWhile_eq_self_iff.mpr fun _ _ => rfl
    rw [tryInit_eq some poolSize initialized, init, initialized, if_neg Bool.false_ne_true, created, all, List.filterMap_some]
    simp

theorem run_of_fails (fails : call.Fails) (uninitialized : pool.initialized = false) :
    call.run pool = { pool with connections := pool.connections ++ created call.create (List.range call.poolSize) } := by
  obtain ⟨i, inside, failed⟩ := fails
  have notAll : (List.range call.poolSize).all (fun i => (call.create i).isSome) = false := by
    apply List.all_eq_false.mpr
    exact ⟨i, List.mem_range.mpr inside, by simp [failed]⟩
  rw [InitCall.run, tryInit_eq _ _ uninitialized, notAll, ← uninitialized]

theorem run_of_succeeds (succeeds : call.Succeeds) (uninitialized : pool.initialized = false) :
    (call.run pool).connections.length = pool.connections.length + call.poolSize := by
  have all : ∀ i ∈ List.range call.poolSize, call.create i ≠ none := fun i member =>
    succeeds i (List.mem_range.mp member)
  rw [InitCall.run, tryInit_eq _ _ uninitialized, List.length_append, created_all all, List.length_range]

/-- Nothing is created exactly when the first connection fails. -/
theorem created_eq_nil_iff (fails : call.Fails) : created call.create (List.range call.poolSize) = [] ↔ call.create 0 = none := by
  obtain ⟨i, inside, -⟩ := fails
  obtain ⟨size, same⟩ : ∃ size, call.poolSize = size + 1 := ⟨call.poolSize - 1, by omega⟩
  rw [same, List.range_succ_eq_map, created, List.takeWhile_cons]
  cases first : call.create 0 <;> simp [first]

/-- The pool after the calls, from its construction on. -/
def afterCalls (calls : List InitCall) : DbConnectionPool := calls.foldl InitCall.run {}

theorem afterCalls_fail (fail : ∀ call ∈ calls, call.Fails) :
    afterCalls calls = { connections := calls.flatMap fun call => created call.create (List.range call.poolSize) } := by
  induction calls using List.reverseRecOn with
  | nil => rfl
  | append_singleton calls call ih =>
    have earlier := ih fun call member => fail call (List.mem_append_left _ member)
    have last := fail call (List.mem_append_right _ List.mem_cons_self)
    rw [afterCalls, List.foldl_append, ← afterCalls, earlier, List.flatMap_append, List.flatMap_singleton]
    exact run_of_fails last rfl

theorem created_nowhere_iff (fail : ∀ call ∈ calls, call.Fails) :
    (calls.flatMap fun call => created call.create (List.range call.poolSize)) = [] ↔ ∀ call ∈ calls, call.create 0 = none := by
  rw [List.flatMap_eq_nil_iff]
  exact forall₂_congr fun call member => created_eq_nil_iff (fail call member)

theorem failed_inits_iff (calls : List InitCall) (last : InitCall) (fail : ∀ call ∈ calls, call.Fails) (succeeds : last.Succeeds) :
    ((∀ count, afterCalls (calls.take count) = {}) ↔ ∀ call ∈ calls, call.create 0 = none) ∧
      ((afterCalls (calls ++ [last])).connections.length = last.poolSize ↔ ∀ call ∈ calls, call.create 0 = none) := by
  constructor
  · rw [← created_nowhere_iff fail]
    constructor
    · intro unchanged
      have whole := unchanged calls.length
      rw [List.take_length, afterCalls_fail fail] at whole
      exact congrArg connections whole
    · intro nowhere count
      rw [afterCalls_fail fun call member => fail call (List.mem_of_mem_take member)]
      have nothing : ∀ call ∈ calls.take count, created call.create (List.range call.poolSize) = [] := fun call member =>
        List.flatMap_eq_nil_iff.mp nowhere call (List.mem_of_mem_take member)
      rw [List.flatMap_eq_nil_iff.mpr nothing]
  · rw [← created_nowhere_iff fail, afterCalls, List.foldl_append, ← afterCalls, afterCalls_fail fail]
    have length := @run_of_succeeds last
      { connections := calls.flatMap fun call => created call.create (List.range call.poolSize) } succeeds rfl
    rw [List.foldl_cons, List.foldl_nil, length, Nat.add_eq_right, List.length_eq_zero_iff]

def InitCall.failingAt (place poolSize : Nat) : InitCall where
  create i := if i = place then none else some i
  poolSize := poolSize

def InitCall.complete (poolSize : Nat) : InitCall where
  create := some
  poolSize := poolSize

theorem failed_inits_first :
    ((∀ count, afterCalls ([InitCall.failingAt 0 2].take count) = {}) ↔
        ∀ call ∈ [InitCall.failingAt 0 2], call.create 0 = none) ∧
      ((afterCalls ([InitCall.failingAt 0 2] ++ [.complete 2])).connections.length = (InitCall.complete 2).poolSize ↔
        ∀ call ∈ [InitCall.failingAt 0 2], call.create 0 = none) := by
  apply failed_inits_iff
  · intro call member
    rw [List.mem_singleton.mp member]
    exact ⟨0, Nat.zero_lt_two, rfl⟩
  · intro i _
    exact Option.some_ne_none i

theorem failed_init_leaves_connection : ¬ ∀ (calls : List InitCall) (last : InitCall), (∀ call ∈ calls, call.Fails) → last.Succeeds →
    (∀ count, afterCalls (calls.take count) = {}) ∧ (afterCalls (calls ++ [last])).connections.length = last.poolSize := by
  intro holds
  have fail : ∀ call ∈ [InitCall.failingAt 1 2], call.Fails := by
    intro call member
    rw [List.mem_singleton.mp member]
    exact ⟨1, Nat.one_lt_two, rfl⟩
  have succeeds : (InitCall.complete 2).Succeeds := fun i _ => Option.some_ne_none i
  exact absurd (holds _ _ fail succeeds).2 (by decide)

end DbConnectionPool

end HttpFramework.Http
