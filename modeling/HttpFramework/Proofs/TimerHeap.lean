import HttpFramework.Code.Timer
import HttpFramework.Library.Heap
import Mathlib.Data.Int.Order.Basic
import Mathlib.Data.List.Nodup
import Mathlib.Logic.Relation

/-! The heap of the timers and the index into it. Nodes move only by `swapNode_`, which keeps the
index right. Because `operator<` is the other way round, the order that the sifts restore puts
the latest expiry in front. -/

namespace HttpFramework.Code

namespace Timer

variable {β : Type} {timer after : Timer β} {i j n : Nat} {first second : TimerNode β}

/-- The index is the exact inverse of the heap. -/
structure Indexed (timer : Timer β) : Prop where
  distinct : (timer.heap.map TimerNode.id).Nodup
  entries : ∀ id, (timer.ref id).isSome ↔ id ∈ timer.heap.map TimerNode.id
  position : ∀ k node, timer.heap[k]? = some node → timer.ref node.id = some k

theorem Indexed.node (indexed : timer.Indexed) {id : Int} {k : Nat} (entry : timer.ref id = some k) :
    ∃ node, timer.heap[k]? = some node ∧ node.id = id := by
  obtain ⟨node, member, rfl⟩ := List.mem_map.mp ((indexed.entries id).mp (by rw [entry]; rfl))
  obtain ⟨position, bound, rfl⟩ := List.getElem_of_mem member
  have found := List.getElem?_eq_getElem bound
  have same := indexed.position position _ found
  rw [entry, Option.some_inj] at same
  exact ⟨_, same ▸ found, rfl⟩

theorem Indexed.of (position : ∀ k node, timer.heap[k]? = some node → timer.ref node.id = some k)
    (node : ∀ id k, timer.ref id = some k → ∃ node, timer.heap[k]? = some node ∧ node.id = id) : timer.Indexed where
  distinct := by
    rw [List.nodup_iff_getElem?_ne_getElem?]
    intro k l less bound same
    rw [List.length_map] at bound
    rw [List.getElem?_map, List.getElem?_map, List.getElem?_eq_getElem bound,
      List.getElem?_eq_getElem (by omega), Option.map_some, Option.map_some, Option.some_inj] at same
    have here := position k _ (List.getElem?_eq_getElem (by omega))
    rw [same, position l _ (List.getElem?_eq_getElem bound), Option.some_inj] at here
    omega
  entries id := by
    constructor
    · intro entry
      obtain ⟨k, found⟩ := Option.isSome_iff_exists.mp entry
      obtain ⟨node, there, rfl⟩ := node id k found
      exact List.mem_map_of_mem (List.mem_of_getElem? there)
    · intro member
      obtain ⟨node, there, rfl⟩ := List.mem_map.mp member
      obtain ⟨k, bound, rfl⟩ := List.getElem_of_mem there
      rw [position k _ (List.getElem?_eq_getElem bound)]
      rfl
  position := position

/-- Two positions with one id are one position. -/
theorem Indexed.eq_of_id (indexed : timer.Indexed) (here : timer.heap[i]? = some first) (there : timer.heap[j]? = some second)
    (same : first.id = second.id) : i = j := by
  have entry := indexed.position i first here
  rw [same, indexed.position j second there, Option.some_inj] at entry
  exact entry.symm

/-! The exchange of two nodes. -/

theorem swapNode_of_get (here : timer.heap[i]? = some first) (there : timer.heap[j]? = some second) :
    timer.swapNode i j = some {
      heap := (timer.heap.set i second).set j first
      ref := Function.update (Function.update timer.ref second.id (some i)) first.id (some j) } := by
  simp [swapNode, here, there]

theorem swapNode_cases (swapped : timer.swapNode i j = some after) :
    ∃ first second, timer.heap[i]? = some first ∧ timer.heap[j]? = some second ∧
      after.heap = (timer.heap.set i second).set j first ∧
      after.ref = Function.update (Function.update timer.ref second.id (some i)) first.id (some j) := by
  simp only [swapNode, Option.bind_eq_bind, Option.bind_eq_some_iff] at swapped
  obtain ⟨first, here, second, there, result⟩ := swapped
  cases result
  exact ⟨first, second, here, there, rfl, rfl⟩

theorem swapNode_perm (swapped : timer.swapNode i j = some after) : after.heap.Perm timer.heap := by
  obtain ⟨first, second, here, there, heap, _⟩ := swapNode_cases swapped
  obtain ⟨bound, rfl⟩ := List.getElem?_eq_some_iff.mp here
  obtain ⟨bound', rfl⟩ := List.getElem?_eq_some_iff.mp there
  rw [heap]
  exact List.set_set_perm bound bound'

theorem swapNode_get (swapped : timer.swapNode i j = some after) (k : Nat) :
    after.heap[k]? = if k = i then timer.heap[j]? else if k = j then timer.heap[i]? else timer.heap[k]? := by
  obtain ⟨first, second, here, there, heap, _⟩ := swapNode_cases swapped
  have bound := (List.getElem?_eq_some_iff.mp here).1
  have bound' := (List.getElem?_eq_some_iff.mp there).1
  rw [heap, List.getElem?_set, List.getElem?_set, List.length_set, here, there]
  by_cases right : j = k
  · subst right
    by_cases left : j = i
    · subst left
      have same : first = second := Option.some_inj.mp (here.symm.trans there)
      simp [bound, same]
    · simp [left, bound']
  · have right' : k ≠ j := fun same => right same.symm
    by_cases left : i = k
    · subst left
      simp [right, bound]
    · have left' : k ≠ i := fun same => left same.symm
      simp [left, right, left', right']

theorem Indexed.swapNode (indexed : timer.Indexed) (swapped : timer.swapNode i j = some after) : after.Indexed := by
  obtain ⟨first, second, here, there, _, ref⟩ := swapNode_cases swapped
  have get := swapNode_get swapped
  apply Indexed.of
  · intro k node found
    rw [get] at found
    rw [ref]
    by_cases left : k = i
    · rw [if_pos left, there, Option.some_inj] at found
      subst left found
      by_cases same : second.id = first.id
      · rw [same, Function.update_self, indexed.eq_of_id here there same.symm]
      · rw [Function.update_of_ne same, Function.update_self]
    · rw [if_neg left] at found
      by_cases right : k = j
      · rw [if_pos right, here, Option.some_inj] at found
        rw [← found, right, Function.update_self]
      · rw [if_neg right] at found
        have apart : node.id ≠ first.id := fun same => left (indexed.eq_of_id found here same)
        have apart' : node.id ≠ second.id := fun same => right (indexed.eq_of_id found there same)
        rw [Function.update_of_ne apart, Function.update_of_ne apart']
        exact indexed.position k node found
  · intro id k entry
    rw [ref, Function.update_apply, Function.update_apply] at entry
    rw [get]
    split at entry
    next same =>
      rw [Option.some_inj] at entry
      subst entry same
      by_cases left : j = i
      · rw [if_pos left]
        exact ⟨second, there, by rw [left, here] at there; cases there; rfl⟩
      · rw [if_neg left, if_pos rfl]
        exact ⟨first, here, rfl⟩
    next other =>
      split at entry
      next same =>
        rw [Option.some_inj] at entry
        rw [if_pos entry.symm]
        exact ⟨second, there, same.symm⟩
      next other' =>
        obtain ⟨node, found, rfl⟩ := indexed.node entry
        have left : k ≠ i := by
          rintro rfl
          rw [here, Option.some_inj] at found
          exact other (congrArg _ found.symm)
        have right : k ≠ j := by
          rintro rfl
          rw [there, Option.some_inj] at found
          exact other' (congrArg _ found.symm)
        rw [if_neg left, if_neg right]
        exact ⟨node, found, rfl⟩

/-- Any number of exchanges. -/
def Swaps : Timer β → Timer β → Prop :=
  Relation.ReflTransGen fun timer after => ∃ i j, timer.swapNode i j = some after

theorem Swaps.keeps (property : Timer β → Prop) (each : ∀ (timer after : Timer β) i j, property timer →
    timer.swapNode i j = some after → property after) (swaps : Swaps timer after) (holds : property timer) :
    property after := by
  induction swaps with
  | refl => exact holds
  | tail _ swapped ih =>
    obtain ⟨i, j, swapped⟩ := swapped
    exact each _ _ i j ih swapped

theorem Swaps.perm (swaps : Swaps timer after) : after.heap.Perm timer.heap :=
  swaps.keeps (fun next => next.heap.Perm timer.heap)
    (fun _ _ _ _ same swapped => (swapNode_perm swapped).trans same) (List.Perm.refl _)

theorem Swaps.indexed (swaps : Swaps timer after) (indexed : timer.Indexed) : after.Indexed :=
  swaps.keeps Indexed (fun _ _ _ _ => Indexed.swapNode) indexed

theorem Swaps.length (swaps : Swaps timer after) : after.heap.length = timer.heap.length := swaps.perm.length_eq

theorem Swaps.one (swapped : timer.swapNode i j = some after) : Swaps timer after := .single ⟨i, j, swapped⟩

/-! The order that the sifts restore. -/

def key (timer : Timer β) (k : Nat) : Int := (timer.heap[k]?.map TimerNode.expires).getD 0

theorem key_of_get {k : Nat} {node : TimerNode β} (found : timer.heap[k]? = some node) : timer.key k = node.expires := by
  simp [key, found]

theorem key_swapNode (swapped : timer.swapNode i j = some after) : after.key = Heap.exchange timer.key i j := by
  funext k
  simp only [key, Heap.exchange, swapNode_get swapped]
  split
  · rfl
  · split <;> rfl

theorem siftupLoop_spec {passes : Nat} (enough : i ≤ passes) (bound : i < timer.heap.length) :
    ∃ after, siftupLoop passes i timer = some after ∧ Swaps timer after ∧
      (Heap.Almost timer.heap.length timer.key i → Heap.Below timer.heap.length timer.key i →
        Heap.Ordered timer.heap.length after.key) := by
  induction passes generalizing i timer with
  | zero =>
    have root : i = 0 := Nat.le_zero.mp enough
    subst root
    exact ⟨timer, by simp [siftupLoop], .refl, fun almost below => almost.ordered (fun positive => by omega) below⟩
  | succ passes ih =>
    rcases Nat.eq_zero_or_pos i with rfl | positive
    · exact ⟨timer, by simp [siftupLoop], .refl, fun almost below => almost.ordered (fun positive => by omega) below⟩
    · have less : (i - 1) / 2 < i := Heap.parent_lt positive
      have above := List.getElem?_eq_getElem (show (i - 1) / 2 < timer.heap.length by omega)
      have here := List.getElem?_eq_getElem bound
      cases stops : timer.heap[(i - 1) / 2].less timer.heap[i] with
      | true =>
        have left : siftupLoop (passes + 1) i timer = some timer := by
          rw [siftupLoop, if_pos positive]
          simp [above, here, stops]
        refine ⟨timer, left, .refl, fun almost below => almost.ordered ?_ below⟩
        intro _
        rw [Heap.parent, key_of_get above, key_of_get here]
        exact le_of_lt (of_decide_eq_true stops)
      | false =>
        have swapped := swapNode_of_get here above
        have length := (Swaps.one swapped).length
        obtain ⟨after, sifted, swaps, ordered⟩ := ih (i := (i - 1) / 2) (by omega) (by rw [length]; omega)
        have repeated : siftupLoop (passes + 1) i timer = some after := by
          rw [siftupLoop, if_pos positive]
          simp [above, here, stops, swapped, sifted]
        refine ⟨after, repeated, swaps.head ⟨_, _, swapped⟩, ?_⟩
        intro almost below
        rw [length, key_swapNode swapped] at ordered
        have greater : timer.key (Heap.parent i) ≤ timer.key i := by
          rw [Heap.parent, key_of_get above, key_of_get here]
          exact not_lt.mp (of_decide_eq_false stops)
        obtain ⟨almost', below'⟩ := almost.up below positive bound greater
        exact ordered almost' below'

theorem siftup_spec (bound : i < timer.heap.length) :
    ∃ after, timer.siftup i = some after ∧ Swaps timer after ∧
      (Heap.Almost timer.heap.length timer.key i → Heap.Below timer.heap.length timer.key i →
        Heap.Ordered timer.heap.length after.key) := by
  rw [siftup, if_pos bound]
  exact siftupLoop_spec (Nat.le_refl i) bound

theorem lesserChild_spec (left : i * 2 + 1 < timer.heap.length) :
    ∃ child, timer.lesserChild (i * 2 + 1) timer.heap.length = some child ∧ Heap.Child timer.heap.length i child ∧
      ∀ k, Heap.Child timer.heap.length i k → timer.key k ≤ timer.key child := by
  have here := List.getElem?_eq_getElem left
  by_cases right : i * 2 + 1 + 1 < timer.heap.length
  · have there := List.getElem?_eq_getElem right
    cases chosen : timer.heap[i * 2 + 1 + 1].less timer.heap[i * 2 + 1] with
    | true =>
      refine ⟨i * 2 + 1 + 1, by simp [lesserChild, right, here, chosen], Heap.child_iff.mpr (by omega), ?_⟩
      intro k child
      rcases (Heap.child_iff.mp child).2 with rfl | rfl
      · rw [key_of_get here, key_of_get there]
        exact le_of_lt (of_decide_eq_true chosen)
      · exact le_refl _
    | false =>
      refine ⟨i * 2 + 1, by simp [lesserChild, right, here, chosen], Heap.child_iff.mpr (by omega), ?_⟩
      intro k child
      rcases (Heap.child_iff.mp child).2 with rfl | rfl
      · exact le_refl _
      · rw [key_of_get here, key_of_get there]
        exact not_lt.mp (of_decide_eq_false chosen)
  · refine ⟨i * 2 + 1, by simp [lesserChild, right], Heap.child_iff.mpr (by omega), ?_⟩
    intro k child
    rcases Heap.child_iff.mp child with ⟨bound, rfl | rfl⟩
    · exact le_refl _
    · omega

/-- Where the node ends it is no less than those below it, and once it has moved the one above
it is no less. -/
theorem siftdownLoop_spec {passes : Nat} (enough : timer.heap.length ≤ i + passes) (bound : i < timer.heap.length) :
    ∃ j after, siftdownLoop timer.heap.length passes i timer = some (j, after) ∧ Swaps timer after ∧
      i ≤ j ∧ j < timer.heap.length ∧ (j = i → after = timer) ∧
      (Heap.Almost timer.heap.length timer.key i →
        Heap.Almost timer.heap.length after.key j ∧ Heap.Below timer.heap.length after.key j ∧
          (i < j → Heap.Above after.key j)) := by
  induction passes generalizing i timer with
  | zero => omega
  | succ passes ih =>
    by_cases left : i * 2 + 1 < timer.heap.length
    · obtain ⟨child, chosen, below, most⟩ := lesserChild_spec left
      have low := Heap.child_iff.mp below
      have here := List.getElem?_eq_getElem bound
      have there := List.getElem?_eq_getElem low.1
      cases stops : timer.heap[i].less timer.heap[child] with
      | true =>
        have left : siftdownLoop timer.heap.length (passes + 1) i timer = some (i, timer) := by
          rw [siftdownLoop, if_pos left]
          simp [chosen, here, there, stops]
        refine ⟨i, timer, left, .refl, Nat.le_refl i, bound, fun _ => rfl, fun almost => ⟨almost, ?_, fun less => by omega⟩⟩
        intro k child
        refine le_trans (most k child) ?_
        rw [key_of_get here, key_of_get there]
        exact le_of_lt (of_decide_eq_true stops)
      | false =>
        have swapped := swapNode_of_get here there
        have length := (Swaps.one swapped).length
        obtain ⟨j, after, sifted, swaps, later, bound', same, kept⟩ := ih (i := child) (by rw [length]; omega) (by rw [length]; omega)
        rw [length] at sifted bound'
        have repeated : siftdownLoop timer.heap.length (passes + 1) i timer = some (j, after) := by
          rw [siftdownLoop, if_pos left]
          simp [chosen, here, there, stops, swapped, sifted]
        refine ⟨j, after, repeated, swaps.head ⟨_, _, swapped⟩, by omega, bound', by omega, ?_⟩
        intro almost
        have less : timer.key i ≤ timer.key child := by
          rw [key_of_get here, key_of_get there]
          exact not_lt.mp (of_decide_eq_false stops)
        obtain ⟨almost', above'⟩ := almost.down below most less
        rw [length, key_swapNode swapped] at kept
        obtain ⟨almost'', below'', above''⟩ := kept almost'
        refine ⟨almost'', below'', fun _ => ?_⟩
        rcases Nat.eq_or_lt_of_le later with stayed | moved
        · subst stayed
          rw [same rfl, key_swapNode swapped]
          exact above'
        · exact above'' moved
    · have left' : siftdownLoop timer.heap.length (passes + 1) i timer = some (i, timer) := by
        rw [siftdownLoop, if_neg left]
      refine ⟨i, timer, left', .refl, Nat.le_refl i, bound, fun _ => rfl, fun almost => ⟨almost, ?_, fun less => by omega⟩⟩
      intro k child
      have := Heap.child_iff.mp child
      omega

theorem adjust_spec (bound : i < timer.heap.length) :
    ∃ after, timer.adjust i = some after ∧ Swaps timer after ∧
      (Heap.Almost timer.heap.length timer.key i → Heap.Ordered timer.heap.length after.key) := by
  obtain ⟨j, down, sifted, swaps, later, bound', same, kept⟩ :=
    @siftdownLoop_spec _ timer i timer.heap.length (Nat.le_add_left _ i) bound
  rcases Nat.eq_or_lt_of_le later with stayed | moved
  · subst stayed
    cases same rfl
    obtain ⟨up, raised, swaps', ordered⟩ := siftup_spec bound
    refine ⟨up, by simp [adjust, siftdown, bound, sifted, raised], swaps', ?_⟩
    intro almost
    exact ordered almost (kept almost).2.1
  · refine ⟨down, by simp [adjust, siftdown, bound, sifted, moved], swaps, ?_⟩
    intro almost
    obtain ⟨almost', below, above⟩ := kept almost
    exact almost'.ordered (above moved) below

end Timer

end HttpFramework.Code
