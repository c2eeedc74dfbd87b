import HttpFramework.Proofs.TimerHeap
import HttpFramework.Library.Transition
import Mathlib.Data.List.Perm.Basic

/-! What the calls do to the heap and its index. `del_` exchanges the node with the last one and
then erases the id of the one that has taken its place: the index stays right exactly when the
last node is the one that goes. -/

namespace HttpFramework.Code
open Transition
open scoped List

namespace Timer

variable {β : Type} {timer after : Timer β} {i n : Nat} {node : TimerNode β}

def Ordered (timer : Timer β) : Prop := Heap.Ordered timer.heap.length timer.key

/-- The timers that are left when those of an id are taken away. -/
def without (id : Int) (nodes : List (TimerNode β)) : List (TimerNode β) := nodes.filter fun node => node.id ≠ id

theorem eraseIdx_perm_without {nodes : List (TimerNode β)} (distinct : (nodes.map TimerNode.id).Nodup)
    (found : nodes[i]? = some node) : (nodes.eraseIdx i).Perm (without node.id nodes) := by
  obtain ⟨bound, rfl⟩ := List.getElem?_eq_some_iff.mp found
  have perm := List.getElem_cons_eraseIdx_perm bound
  have apart := (perm.map TimerNode.id).nodup_iff.mpr distinct
  rw [List.map_cons, List.nodup_cons] at apart
  have kept : without nodes[i].id (nodes.eraseIdx i) = nodes.eraseIdx i := by
    apply List.filter_eq_self.mpr
    intro other member
    have different : other.id ≠ nodes[i].id := fun same => apart.1 (same ▸ List.mem_map_of_mem member)
    simpa using different
  have filtered := perm.filter fun node => node.id ≠ nodes[i].id
  rw [List.filter_cons_of_neg (by simp)] at filtered
  exact kept ▸ filtered

theorem without_of_absent {nodes : List (TimerNode β)} {id : Int} (absent : id ∉ nodes.map TimerNode.id) :
    without id nodes = nodes := by
  apply List.filter_eq_self.mpr
  intro other member
  have different : other.id ≠ id := fun same => absent (same ▸ List.mem_map_of_mem member)
  simpa using different

/-- A new node at the end, with its entry. -/
theorem Indexed.push (indexed : timer.Indexed) (absent : timer.ref node.id = none) :
    Indexed { heap := timer.heap ++ [node], ref := Function.update timer.ref node.id (some timer.heap.length) } := by
  apply Indexed.of
  · intro k other found
    dsimp only at found ⊢
    by_cases last : k < timer.heap.length
    · rw [List.getElem?_append_left last] at found
      have entry := indexed.position k other found
      have different : other.id ≠ node.id := by
        intro same
        rw [same, absent] at entry
        cases entry
      rw [Function.update_of_ne different, entry]
    · obtain ⟨bound, same⟩ := List.getElem?_eq_some_iff.mp found
      have position : k = timer.heap.length := by
        simp at bound
        omega
      subst position
      rw [List.getElem_concat_length rfl] at same
      rw [← same, Function.update_self]
  · intro id k entry
    dsimp only at entry ⊢
    rw [Function.update_apply] at entry
    split at entry
    next same =>
      rw [Option.some_inj] at entry
      exact ⟨node, by simp [← entry], same.symm⟩
    next =>
      obtain ⟨other, found, same⟩ := indexed.node entry
      have bound := (List.getElem?_eq_some_iff.mp found).1
      exact ⟨other, by rw [List.getElem?_append_left bound, found], same⟩

/-- A node with other contents in its place. -/
theorem Indexed.set (indexed : timer.Indexed) {old : TimerNode β} (found : timer.heap[i]? = some old)
    (same : node.id = old.id) : Indexed { timer with heap := timer.heap.set i node } := by
  have bound := (List.getElem?_eq_some_iff.mp found).1
  apply Indexed.of
  · intro k other there
    by_cases here : i = k
    · subst here
      rw [List.getElem?_set_self bound, Option.some_inj] at there
      rw [← there, same]
      exact indexed.position i old found
    · rw [List.getElem?_set_ne here] at there
      exact indexed.position k other there
  · intro id k entry
    obtain ⟨other, there, rfl⟩ := indexed.node entry
    by_cases here : i = k
    · subst here
      rw [found, Option.some_inj] at there
      exact ⟨node, List.getElem?_set_self bound, by rw [same, there]⟩
    · exact ⟨other, (List.getElem?_set_ne here).trans there, rfl⟩

/-- `add` leaves the timers that were there, but for one with the id, and the new one. -/
theorem add_spec (indexed : timer.Indexed) {id : Int} (valid : 0 ≤ id) (timeout : Int) (cb : β) (now : Int) :
    ∃ after, timer.add id timeout cb now = some after ∧ after.Indexed ∧ (timer.Ordered → after.Ordered) ∧
      after.heap.Perm ({ id, expires := now + timeout * 1000000, cb } :: without id timer.heap) := by
  let node : TimerNode β := { id, expires := now + timeout * 1000000, cb }
  cases entry : timer.ref id with
  | none =>
    let pushed : Timer β := { heap := timer.heap ++ [node], ref := Function.update timer.ref id (some timer.heap.length) }
    have length : pushed.heap.length = timer.heap.length + 1 := List.length_append
    obtain ⟨after, sifted, swaps, ordered⟩ := @siftup_spec _ pushed timer.heap.length (by omega)
    have added : timer.add id timeout cb now = some after := by
      simpa [add, not_lt.mpr valid, entry] using sifted
    refine ⟨after, added, swaps.indexed (Indexed.push indexed entry), ?_, ?_⟩
    · intro before
      have same : ∀ k, k < timer.heap.length → pushed.key k = timer.key k := by
        intro k bound
        simp only [key, pushed, List.getElem?_append_left bound]
      obtain ⟨almost, below⟩ := Heap.Ordered.push before same
      rw [length] at ordered
      rw [Ordered, swaps.length, length]
      exact ordered almost below
    · have absent : id ∉ timer.heap.map TimerNode.id := by
        intro member
        have found := (indexed.entries id).mpr member
        rw [entry] at found
        cases found
      rw [without_of_absent absent]
      exact swaps.perm.trans (List.perm_append_singleton _ _)
  | some i =>
    obtain ⟨old, found, rfl⟩ := indexed.node entry
    have bound := (List.getElem?_eq_some_iff.mp found).1
    let changed : Timer β := { timer with heap := timer.heap.set i node }
    have length : changed.heap.length = timer.heap.length := List.length_set
    obtain ⟨after, adjusted, swaps, ordered⟩ := @adjust_spec _ changed i (by omega)
    have added : timer.add old.id timeout cb now = some after := by
      simpa [add, not_lt.mpr valid, entry, found] using adjusted
    refine ⟨after, added, swaps.indexed (indexed.set found rfl), ?_, ?_⟩
    · intro before
      have same : ∀ k, k < timer.heap.length → k ≠ i → changed.key k = timer.key k := by
        intro k _ apart
        simp only [key, changed, List.getElem?_set_ne apart.symm]
      rw [length] at ordered
      rw [Ordered, swaps.length, length]
      exact ordered ((Heap.Ordered.almost before i).congr (Nat.le_refl _) same)
    · refine swaps.perm.trans ((List.set_perm_cons_eraseIdx bound node).trans ?_)
      exact (eraseIdx_perm_without indexed.distinct found).cons node

/-- An id that is in the index but not in the heap. -/
structure Stale (id : Int) (timer : Timer β) : Prop where
  entry : (timer.ref id).isSome
  absent : id ∉ timer.heap.map TimerNode.id

theorem Stale.not_indexed {id : Int} (stale : timer.Stale id) : ¬ timer.Indexed :=
  fun indexed => stale.absent ((indexed.entries id).mp stale.entry)

theorem Stale.swapNode {id : Int} {j : Nat} (stale : timer.Stale id) (swapped : timer.swapNode i j = some after) :
    after.Stale id := by
  obtain ⟨first, second, here, there, _, ref⟩ := swapNode_cases swapped
  have apart : ∀ {other}, other ∈ timer.heap → id ≠ other.id := by
    rintro other member rfl
    exact stale.absent (List.mem_map_of_mem member)
  constructor
  · rw [ref, Function.update_of_ne (apart (List.mem_of_getElem? here)), Function.update_of_ne (apart (List.mem_of_getElem? there))]
    exact stale.entry
  · intro member
    exact stale.absent (((swapNode_perm swapped).map _).mem_iff.mp member)

theorem Stale.swaps {id : Int} (stale : timer.Stale id) (swaps : Swaps timer after) : after.Stale id :=
  swaps.keeps (Stale id) (fun _ _ _ _ => Stale.swapNode) stale

/-- The last node goes. -/
theorem del_last (bound : i + 1 = timer.heap.length) :
    ∃ last, timer.heap[i]? = some last ∧ timer.heap = timer.heap.dropLast ++ [last] ∧
      timer.del i = some { heap := timer.heap.dropLast, ref := Function.update timer.ref last.id none } := by
  have nonempty : timer.heap ≠ [] := by
    rintro none
    rw [none] at bound
    cases bound
  obtain ⟨front, last, split⟩ : ∃ front last, timer.heap = front ++ [last] :=
    ⟨_, _, (List.dropLast_concat_getLast nonempty).symm⟩
  have position : i = front.length := by
    rw [split, List.length_append, List.length_singleton] at bound
    omega
  refine ⟨last, by simp [split, position], by simp [split], ?_⟩
  simp [del, split, position]

/-- Another node goes: the last one takes its place, and its id leaves the index with it. -/
theorem del_inner (bound : i + 1 < timer.heap.length) :
    ∃ victim last middle after, timer.heap[i]? = some victim ∧ timer.heap[timer.heap.length - 1]? = some last ∧
      middle.heap = timer.heap.dropLast.set i last ∧
      middle.ref = Function.update (Function.update (Function.update timer.ref last.id (some i)) victim.id
        (some (timer.heap.length - 1))) last.id none ∧
      timer.del i = some after ∧ Swaps middle after ∧
      (Heap.Almost middle.heap.length middle.key i → after.Ordered) := by
  obtain ⟨victim, here⟩ : ∃ victim, timer.heap[i]? = some victim := ⟨_, List.getElem?_eq_getElem (by omega)⟩
  obtain ⟨last, there⟩ : ∃ last, timer.heap[timer.heap.length - 1]? = some last := ⟨_, List.getElem?_eq_getElem (by omega)⟩
  have swapped := swapNode_of_get here there
  have heap : ((timer.heap.set i last).set (timer.heap.length - 1) victim).dropLast = timer.heap.dropLast.set i last := by
    rw [List.dropLast_eq_take, List.dropLast_eq_take, List.length_set, List.length_set, List.take_set_of_le (Nat.le_refl _),
      List.take_set]
  let middle : Timer β := {
    heap := timer.heap.dropLast.set i last
    ref := Function.update (Function.update (Function.update timer.ref last.id (some i)) victim.id
      (some (timer.heap.length - 1))) last.id none }
  have length : middle.heap.length = timer.heap.length - 1 := by simp [middle]
  have moved : middle.heap[i]? = some last := List.getElem?_set_self (by simp; omega)
  obtain ⟨after, adjusted, swaps, ordered⟩ := @adjust_spec _ middle i (by omega)
  have deleted : timer.del i = some after := by
    have inner : i < timer.heap.length - 1 := by omega
    simp only [del, if_pos (show i < timer.heap.length by omega), if_pos inner, swapped, heap, Option.bind_eq_bind,
      Option.bind_some]
    rw [show (timer.heap.dropLast.set i last)[i]? = some last from moved]
    exact adjusted
  refine ⟨victim, last, middle, after, here, there, rfl, rfl, deleted, swaps, ?_⟩
  intro almost
  rw [Ordered, swaps.length]
  exact ordered almost

theorem del_spec (bound : i < timer.heap.length) :
    ∃ victim after, timer.heap[i]? = some victim ∧ timer.del i = some after ∧ timer.heap.Perm (victim :: after.heap) ∧
      (timer.Ordered → after.Ordered) := by
  rcases Nat.eq_or_lt_of_le (Nat.succ_le_of_lt bound) with last | inner
  · obtain ⟨victim, found, split, deleted⟩ := del_last last
    refine ⟨victim, _, found, deleted, ?_, ?_⟩
    · conv => lhs; rw [split]
      exact List.perm_append_singleton _ _
    · intro ordered k positive below
      rw [List.length_dropLast] at below
      have above := Heap.parent_lt positive
      have kept := ordered k positive (by omega)
      simpa only [key, List.getElem?_dropLast, if_pos below, if_pos (show Heap.parent k < timer.heap.length - 1 by omega)] using kept
  · obtain ⟨victim, last, middle, after, here, there, heap, _, deleted, swaps, ordered⟩ := del_inner inner
    have inside : i < timer.heap.dropLast.length := by
      rw [List.length_dropLast]
      omega
    have front : timer.heap.dropLast[i] = victim := by
      rw [List.getElem_dropLast]
      exact (List.getElem?_eq_some_iff.mp here).2
    refine ⟨victim, after, here, deleted, ?_, ?_⟩
    · have split : timer.heap = timer.heap.dropLast ++ [last] := by
        have nonempty : timer.heap ≠ [] := List.ne_nil_of_length_pos (by omega)
        obtain ⟨_, same⟩ := List.getElem?_eq_some_iff.mp there
        rw [← same, ← List.getLast_eq_getElem nonempty, List.dropLast_concat_getLast]
      calc timer.heap
        _ = timer.heap.dropLast ++ [last] := split
        _ ~ (last :: timer.heap.dropLast) := List.perm_append_singleton _ _
        _ ~ (last :: victim :: timer.heap.dropLast.eraseIdx i) :=
          (front ▸ (List.getElem_cons_eraseIdx_perm inside).symm).cons _
        _ ~ (victim :: last :: timer.heap.dropLast.eraseIdx i) := .swap _ _ _
        _ ~ (victim :: middle.heap) := (heap ▸ (List.set_perm_cons_eraseIdx inside last).symm).cons _
        _ ~ (victim :: after.heap) := swaps.perm.symm.cons _
    · intro before
      apply ordered
      have length : middle.heap.length = timer.heap.length - 1 := by rw [heap, List.length_set, List.length_dropLast]
      refine (Heap.Ordered.almost before i).congr (by omega) ?_
      intro k below apart
      simp only [key, heap, List.getElem?_set_ne apart.symm, List.getElem?_dropLast, if_pos (length ▸ below)]

theorem Indexed.del_last (indexed : timer.Indexed) (last : i + 1 = timer.heap.length)
    (deleted : timer.del i = some after) : after.Indexed := by
  obtain ⟨victim, found, _, deleted'⟩ := Timer.del_last last
  cases deleted'.symm.trans deleted
  apply Indexed.of
  · intro k node there
    dsimp only at there ⊢
    rw [List.getElem?_dropLast] at there
    split at there
    next below =>
      have apart : node.id ≠ victim.id := by
        intro same
        have position := indexed.eq_of_id there found same
        omega
      rw [Function.update_of_ne apart]
      exact indexed.position k node there
    next => cases there
  · intro id k entry
    dsimp only at entry ⊢
    rw [Function.update_apply] at entry
    split at entry
    next => cases entry
    next apart =>
      obtain ⟨node, there, rfl⟩ := indexed.node entry
      have bound := (List.getElem?_eq_some_iff.mp there).1
      have below : k < timer.heap.length - 1 := by
        rcases Nat.eq_or_lt_of_le (Nat.succ_le_of_lt bound) with same | less
        · have position : k = i := by omega
          rw [position, found, Option.some_inj] at there
          exact absurd (congrArg _ there.symm) apart
        · omega
      exact ⟨node, by rw [List.getElem?_dropLast, if_pos below, there], rfl⟩

/-- The node that goes is still in the index afterwards. -/
theorem Indexed.del_inner (indexed : timer.Indexed) (inner : i + 1 < timer.heap.length)
    (deleted : timer.del i = some after) : ∃ id, after.Stale id := by
  obtain ⟨victim, after', here, deleted', perm, _⟩ := @del_spec _ timer i (by omega)
  obtain ⟨victim', last, middle, _, here', there, _, ref, deleted'', swaps, _⟩ := Timer.del_inner inner
  cases deleted'.symm.trans deleted
  cases deleted''.symm.trans deleted
  cases here.symm.trans here'
  have gone : victim.id ∉ after.heap.map TimerNode.id :=
    (List.nodup_cons.mp ((perm.map TimerNode.id).nodup_iff.mp indexed.distinct)).1
  have apart : victim.id ≠ last.id := by
    intro same
    have position := indexed.eq_of_id here there same
    omega
  have stale : middle.Stale victim.id := by
    refine ⟨?_, fun member => gone ((swaps.perm.map _).mem_iff.mpr member)⟩
    rw [ref, Function.update_of_ne apart, Function.update_self]
    rfl
  exact ⟨victim.id, stale.swaps swaps⟩

theorem Stale.del {id : Int} (stale : timer.Stale id) (deleted : timer.del i = some after) : after.Stale id := by
  have bound : i < timer.heap.length := by
    by_contra outside
    simp [Timer.del, outside] at deleted
  have apart : ∀ {other}, other ∈ timer.heap → id ≠ other.id := by
    rintro other member rfl
    exact stale.absent (List.mem_map_of_mem member)
  rcases Nat.eq_or_lt_of_le (Nat.succ_le_of_lt bound) with last | inner
  · obtain ⟨victim, found, split, deleted'⟩ := Timer.del_last last
    cases deleted'.symm.trans deleted
    constructor
    · dsimp only
      rw [Function.update_of_ne (apart (List.mem_of_getElem? found))]
      exact stale.entry
    · intro member
      exact stale.absent (List.map_subset _ (List.dropLast_subset _) member)
  · obtain ⟨victim, last, middle, _, here, there, heap, ref, deleted', swaps, _⟩ := Timer.del_inner inner
    cases deleted'.symm.trans deleted
    have stale' : middle.Stale id := by
      constructor
      · have apart' := apart (List.mem_of_getElem? there)
        rw [ref, Function.update_of_ne apart', Function.update_of_ne (apart (List.mem_of_getElem? here)),
          Function.update_of_ne apart']
        exact stale.entry
      · intro member
        obtain ⟨node, there', rfl⟩ := List.mem_map.mp member
        rw [heap] at there'
        rcases List.mem_or_eq_of_mem_set there' with earlier | rfl
        · exact apart (List.dropLast_subset _ earlier) rfl
        · exact apart (List.mem_of_getElem? there) rfl
    exact stale'.swaps swaps

theorem tickLoop_cases {now : Nat → Int} {passes reading : Nat} {fired : List (TimerNode β)}
    (ticked : tickLoop now passes reading timer = some (fired, after)) :
    (fired = [] ∧ after = timer ∧ ∀ node, timer.heap.head? = some node → 0 < node.remaining (now reading)) ∨
      ∃ node popped fewer later, timer.heap.head? = some node ∧ node.remaining (now reading) ≤ 0 ∧
        timer.pop = some popped ∧ passes = fewer + 1 ∧
        tickLoop now fewer (reading + 1) popped = some (later, after) ∧ fired = node :: later := by
  cases passes with
  | zero =>
    rw [tickLoop] at ticked
    split at ticked
    next empty =>
      cases ticked
      exact .inl ⟨rfl, rfl, by simp [empty]⟩
    next node rest heap =>
      split at ticked
      next left =>
        cases ticked
        exact .inl ⟨rfl, rfl, by simpa [heap] using left⟩
      next => cases ticked
  | succ fewer =>
    rw [tickLoop] at ticked
    split at ticked
    next empty =>
      cases ticked
      exact .inl ⟨rfl, rfl, by simp [empty]⟩
    next node rest heap =>
      split at ticked
      next left =>
        cases ticked
        exact .inl ⟨rfl, rfl, by simpa [heap] using left⟩
      next expired =>
        simp only [Option.bind_eq_bind, Option.bind_eq_some_iff] at ticked
        obtain ⟨popped, deleted, ⟨later, final⟩, rest, result⟩ := ticked
        cases result
        exact .inr ⟨node, popped, fewer, later, by rw [heap]; rfl, not_lt.mp expired, deleted, rfl, rest, rfl⟩

theorem Stale.tickLoop {id : Int} {now : Nat → Int} {passes reading : Nat} {fired : List (TimerNode β)}
    (stale : timer.Stale id) (ticked : tickLoop now passes reading timer = some (fired, after)) : after.Stale id := by
  induction passes generalizing reading timer fired with
  | zero =>
    rcases tickLoop_cases ticked with ⟨_, rfl, _⟩ | ⟨_, _, _, _, _, _, _, none, _⟩
    · exact stale
    · cases none
  | succ passes ih =>
    rcases tickLoop_cases ticked with ⟨_, rfl, _⟩ | ⟨_, popped, fewer, later, _, _, deleted, same, rest, _⟩
    · exact stale
    · cases same
      exact ih (stale.del deleted) rest

/-- A call of the timer's interface. -/
inductive Call (β : Type) where
  | add (id timeout : Int) (cb : β) (now : Int)
  | doWork (id : Int)
  | tick (now : Nat → Int)
  | pop
  | clear

def step (timer : Timer β) : Call β → Option (Timer β)
  | .add id timeout cb now => timer.add id timeout cb now
  | .doWork id => (timer.doWork id).map Prod.snd
  | .tick now => (timer.tick now).map Prod.snd
  | .pop => timer.pop
  | .clear => some timer.clear

/-- The node that the call removes first, if any, is the last one of the heap. -/
def RemovesLast (timer : Timer β) : Call β → Prop
  | .add .. | .clear => True
  | .doWork id => ∀ i, timer.ref id = some i → i + 1 = timer.heap.length
  | .tick now => ∀ node, timer.heap.head? = some node → node.remaining (now 0) ≤ 0 → timer.heap.length = 1
  | .pop => timer.heap.length = 1

/-- No call on a valid id leaves the heap. -/
def Serves (timer : Timer β) : Prop :=
  (∀ id timeout cb now, 0 ≤ id → (timer.add id timeout cb now).isSome) ∧ ∀ id, (timer.doWork id).isSome

theorem Indexed.serves (indexed : timer.Indexed) : timer.Serves := by
  constructor
  · intro id timeout cb now valid
    obtain ⟨after, added, _⟩ := add_spec indexed valid timeout cb now
    rw [added]
    rfl
  · intro id
    rw [doWork]
    split
    · rfl
    · cases entry : timer.ref id with
      | none => rfl
      | some i =>
        obtain ⟨node, found, _⟩ := indexed.node entry
        obtain ⟨victim, after, _, deleted, _⟩ := del_spec (List.getElem?_eq_some_iff.mp found).1
        simp [found, deleted]

/-- One deletion keeps the index exactly when the last node goes. -/
theorem Indexed.del_iff (indexed : timer.Indexed) (deleted : timer.del i = some after) :
    after.Indexed ↔ i + 1 = timer.heap.length := by
  have bound : i < timer.heap.length := by
    by_contra outside
    simp [Timer.del, outside] at deleted
  refine ⟨fun kept => ?_, fun last => indexed.del_last last deleted⟩
  rcases Nat.eq_or_lt_of_le (Nat.succ_le_of_lt bound) with last | inner
  · exact last
  · obtain ⟨id, stale⟩ := indexed.del_inner inner deleted
    exact absurd kept stale.not_indexed

theorem Indexed.tick_iff (indexed : timer.Indexed) {now : Nat → Int} {fired : List (TimerNode β)}
    (ticked : timer.tick now = some (fired, after)) : after.Indexed ↔ timer.RemovesLast (.tick now) := by
  rcases tickLoop_cases ticked with ⟨_, rfl, left⟩ | ⟨node, popped, fewer, later, front, expired, deleted, _, rest, _⟩
  · refine iff_of_true indexed ?_
    intro node front expired
    have remaining := left node front
    omega
  · have length : timer.RemovesLast (.tick now) ↔ 0 + 1 = timer.heap.length :=
      ⟨fun removes => (removes node front expired).symm, fun one _ _ _ => one.symm⟩
    rw [length]
    have bound : 0 < timer.heap.length := List.length_pos_of_ne_nil (by rintro none; rw [none] at front; cases front)
    rcases Nat.eq_or_lt_of_le (Nat.succ_le_of_lt bound) with one | more
    · -- Nothing is left for a second pass.
      have kept := indexed.del_last one deleted
      obtain ⟨_, _, _, deleted', perm, _⟩ := del_spec bound
      cases deleted'.symm.trans deleted
      have none : popped.heap = [] := by
        have size := perm.length_eq
        rw [List.length_cons] at size
        exact List.eq_nil_of_length_eq_zero (by omega)
      rcases tickLoop_cases rest with ⟨_, rfl, _⟩ | ⟨_, _, _, _, front', _⟩
      · exact iff_of_true kept one
      · rw [none] at front'
        cases front'
    · obtain ⟨id, stale⟩ := indexed.del_inner more deleted
      exact iff_of_false (stale.tickLoop rest).not_indexed (by omega)

theorem indexed_new : Indexed ({} : Timer β) where
  distinct := List.nodup_nil
  entries id := by simp
  position k node found := by simp at found

theorem step_indexed_iff (indexed : timer.Indexed) {call : Call β} (taken : timer.step call = some after) :
    after.Indexed ↔ timer.RemovesLast call := by
  cases call with
  | add id timeout cb now =>
    have valid : 0 ≤ id := by
      by_contra negative
      simp [step, add, not_le.mp negative] at taken
    obtain ⟨after', added, kept, _⟩ := add_spec indexed valid timeout cb now
    cases added.symm.trans taken
    exact iff_of_true kept trivial
  | doWork id =>
    obtain ⟨⟨fired, left⟩, worked, rfl⟩ := Option.map_eq_some_iff.mp taken
    rw [doWork] at worked
    cases entry : timer.ref id with
    | none =>
      have same : (fired, left) = ([], timer) := by
        split at worked
        · exact (Option.some_inj.mp worked).symm
        · rw [entry] at worked
          exact (Option.some_inj.mp worked).symm
      cases same
      refine iff_of_true indexed ?_
      intro i found
      rw [entry] at found
      cases found
    | some i =>
      obtain ⟨node, found, _⟩ := indexed.node entry
      have nonempty : timer.heap ≠ [] := by
        rintro none
        rw [none] at found
        cases found
      rw [if_neg nonempty, entry] at worked
      simp only [found, Option.bind_eq_bind, Option.bind_some, Option.bind_eq_some_iff] at worked
      obtain ⟨deleted, removed, result⟩ := worked
      cases result
      rw [indexed.del_iff removed]
      refine ⟨fun last j there => ?_, fun removes => removes i entry⟩
      rw [entry, Option.some_inj] at there
      rw [← there, last]
  | tick now =>
    obtain ⟨⟨fired, _⟩, ticked, rfl⟩ := Option.map_eq_some_iff.mp taken
    exact indexed.tick_iff ticked
  | pop =>
    rw [indexed.del_iff taken, RemovesLast]
    exact eq_comm
  | clear =>
    cases taken
    exact iff_of_true indexed_new trivial

/-- In any run, the index is the exact inverse of the heap in every state, and no call on a
valid id leaves the heap, exactly when every deletion hits the last node. -/
theorem indexed_throughout_iff (calls : List (Call β)) :
    Throughout step (fun _ _ next => next.Indexed ∧ next.Serves) ({} : Timer β) calls ↔
      Throughout step (fun timer call _ => timer.RemovesLast call) ({} : Timer β) calls := by
  apply throughout_iff Indexed
  · intro timer call next indexed taken removes
    exact (step_indexed_iff indexed taken).mpr removes
  · intro timer call next indexed taken
    rw [← step_indexed_iff indexed taken]
    exact ⟨fun kept => kept.1, fun kept => ⟨kept, kept.serves⟩⟩
  · exact indexed_new

/-- The timer with the later expiry stands in front of the other. When it is gone, the index has
its id and not that of the other, and to add it again would leave the heap. -/
theorem doWork_corrupts_index :
    ∃ final, Run step ({} : Timer Unit) [.add 1 10 () 0, .add 2 20 () 0, .doWork 2] final ∧
      final.heap.map TimerNode.id = [1] ∧ final.ref 1 = none ∧ final.ref 2 = some 1 ∧ ¬ final.Indexed ∧
      final.step (.add 2 30 () 0) = none := by
  refine ⟨_, .cons (by rfl) (.cons (by rfl) (.cons (by rfl) (.nil _))), by rfl, by rfl, by rfl, fun indexed => ?_, by rfl⟩
  obtain ⟨_, found, _⟩ := @Indexed.node _ _ indexed 2 1 (by rfl)
  cases found

end Timer

end HttpFramework.Code
