import HttpFramework.Proofs.TimerCalls
import Mathlib.Data.List.Pairwise

/-! What `tick` fires after any calls of `add`. The latest expiry stands in front: as long as one
timer has time left none is fired, and when all have expired they are fired the last one
first. -/

namespace HttpFramework.Code
open scoped List

/-- The arguments of a call of `add`, and what the clock shows in it. -/
structure Add (β : Type) where
  id : Int
  timeout : Int
  cb : β
  now : Int

def Add.node {β : Type} (call : Add β) : TimerNode β :=
  { id := call.id, expires := call.now + call.timeout * 1000000, cb := call.cb }

namespace Timer

variable {β : Type} {timer after : Timer β} {fired : List (TimerNode β)} {now : Int}

def addAll (calls : List (Add β)) : Option (Timer β) :=
  calls.foldlM (fun timer call => timer.add call.id call.timeout call.cb call.now) {}

/-- What is to be timed: for each id what its latest call says. -/
def armed (calls : List (Add β)) : List (TimerNode β) :=
  calls.foldl (fun timers call =>
    without call.id timers ++ [{ id := call.id, expires := call.now + call.timeout * 1000000, cb := call.cb }]) []

/-- Exactly the expired timers are fired, each once and in order of expiry, and the others are
left. -/
structure Fires (timers : List (TimerNode β)) (now : Int) (fired left : List (TimerNode β)) : Prop where
  expired : fired ~ timers.filter fun node => node.remaining now ≤ 0
  sorted : fired.Pairwise fun node next => node.expires ≤ next.expires
  left : left ~ timers.filter fun node => 0 < node.remaining now

theorem addAll_spec (calls : List (Add β)) (valid : ∀ call ∈ calls, 0 ≤ call.id) :
    ∃ timer, addAll calls = some timer ∧ timer.Indexed ∧ timer.Ordered ∧ timer.heap ~ armed calls := by
  suffices general : ∀ (timer : Timer β) timers, timer.Indexed → timer.Ordered → timer.heap ~ timers →
      ∃ final, calls.foldlM (fun timer call => timer.add call.id call.timeout call.cb call.now) timer = some final ∧
        final.Indexed ∧ final.Ordered ∧ final.heap ~ calls.foldl (fun timers call =>
          without call.id timers ++ [{ id := call.id, expires := call.now + call.timeout * 1000000, cb := call.cb }]) timers from
    general {} [] indexed_new (fun k _ bound => absurd bound (Nat.not_lt_zero k)) (List.Perm.refl _)
  induction calls with
  | nil => exact fun timer timers indexed ordered perm => ⟨timer, rfl, indexed, ordered, perm⟩
  | cons call calls ih =>
    intro timer timers indexed ordered perm
    obtain ⟨next, added, indexed', ordered', perm'⟩ :=
      add_spec indexed (valid call List.mem_cons_self) call.timeout call.cb call.now
    have same := perm'.trans ((perm.filter _).cons _ |>.trans (List.perm_append_singleton _ _).symm)
    obtain ⟨final, rest, result⟩ :=
      ih (fun other member => valid other (List.mem_cons_of_mem _ member)) next _ indexed' (ordered' ordered) same
    exact ⟨final, by rw [List.foldlM_cons, added]; exact rest, result⟩

theorem armed_append (calls : List (Add β)) (call : Add β) :
    armed (calls ++ [call]) = without call.id (armed calls) ++ [call.node] := by
  rw [armed, List.foldl_append]
  rfl

/-- Each id is armed once, as its latest call says. -/
theorem armed_latest (calls : List (Add β)) (id : Int) :
    (armed calls).filter (fun node => node.id = id) = ((calls.reverse.find? fun call => call.id = id).map Add.node).toList := by
  induction calls using List.reverseRecOn with
  | nil => rfl
  | append_singleton calls call ih =>
    rw [armed_append, List.reverse_append, List.reverse_singleton, List.singleton_append, List.filter_append, without,
      List.filter_filter]
    by_cases same : call.id = id
    · have replaced : (armed calls).filter (fun node => decide (node.id = id) && decide (node.id ≠ call.id)) = [] := by
        rw [List.filter_eq_nil_iff]
        intro node _
        simp [same]
      rw [replaced]
      simp [Add.node, same]
    · have kept : (armed calls).filter (fun node => decide (node.id = id) && decide (node.id ≠ call.id)) =
          (armed calls).filter fun node => node.id = id := by
        apply List.filter_congr
        intro node _
        grind
      rw [kept, ih]
      simp [Add.node, same]

theorem perm_toList {nodes : List (TimerNode β)} {latest : Option (TimerNode β)} (perm : nodes ~ latest.toList) :
    nodes = latest.toList := by
  cases latest with
  | none => exact perm.eq_nil
  | some node => exact List.perm_singleton.mp perm

theorem Ordered.not_less (ordered : timer.Ordered) {k : Nat} {node above : TimerNode β} (here : timer.heap[k]? = some node)
    (parent : timer.heap[(k - 1) / 2]? = some above) (positive : 0 < k) : node.less above = false := by
  have below := ordered k positive (List.getElem?_eq_some_iff.mp here).1
  rw [key_of_get here] at below
  have same : timer.key (Heap.parent k) = above.expires := key_of_get parent
  rw [same] at below
  exact decide_eq_false (not_lt.mpr below)

theorem Indexed.ref_iff (indexed : timer.Indexed) (id : Int) (k : Nat) :
    timer.ref id = some k ↔ ∃ node, timer.heap[k]? = some node ∧ node.id = id := by
  constructor
  · intro entry
    obtain ⟨node, found, same⟩ := indexed.node entry
    exact ⟨node, found, same⟩
  · rintro ⟨node, found, rfl⟩
    exact indexed.position k node found

/-- After any calls of `add` the nodes are a heap, the index is their exact inverse, and each id
added is there once, with the expiry and the callback of its latest call. -/
theorem addAll_keeps_heap (calls : List (Add β)) (valid : ∀ call ∈ calls, 0 ≤ call.id) :
    ∃ timer, addAll calls = some timer ∧
      (∀ k node above, 0 < k → timer.heap[k]? = some node → timer.heap[(k - 1) / 2]? = some above → node.less above = false) ∧
      (∀ id k, timer.ref id = some k ↔ ∃ node, timer.heap[k]? = some node ∧ node.id = id) ∧
      ∀ id, timer.heap.filter (fun node => node.id = id) = ((calls.reverse.find? fun call => call.id = id).map Add.node).toList := by
  obtain ⟨timer, added, indexed, ordered, perm⟩ := addAll_spec calls valid
  refine ⟨timer, added, fun k node above positive here parent => ordered.not_less here parent positive, indexed.ref_iff, ?_⟩
  intro id
  apply perm_toList
  rw [← armed_latest]
  exact perm.filter _

theorem addAll_keeps_heap_again :
    ∃ timer, addAll [⟨1, 30, "a", 0⟩, ⟨2, 20, "b", 0⟩, ⟨1, 10, "c", 5⟩] = some timer ∧
      (∀ k node above, 0 < k → timer.heap[k]? = some node → timer.heap[(k - 1) / 2]? = some above → node.less above = false) ∧
      (∀ id k, timer.ref id = some k ↔ ∃ node, timer.heap[k]? = some node ∧ node.id = id) ∧
      timer.heap.filter (fun node => node.id = 1) = [⟨1, 10000005, "c"⟩] := by
  obtain ⟨timer, added, heap, inverse, latest⟩ :=
    addAll_keeps_heap [⟨1, 30, "a", 0⟩, ⟨2, 20, "b", 0⟩, ⟨1, 10, "c", 5⟩] (by decide)
  exact ⟨timer, added, heap, inverse, latest 1⟩

theorem Ordered.le_front (ordered : timer.Ordered) {node other : TimerNode β} (front : timer.heap.head? = some node)
    (member : other ∈ timer.heap) : other.expires ≤ node.expires := by
  obtain ⟨k, bound, rfl⟩ := List.getElem_of_mem member
  have root : timer.heap[0]? = some node := by rw [← List.head?_eq_getElem?, front]
  have less := Heap.Ordered.le_root ordered bound
  rwa [key_of_get (List.getElem?_eq_getElem bound), key_of_get root] at less

theorem remaining_mono {node other : TimerNode β} (earlier : other.expires ≤ node.expires) :
    other.remaining now ≤ node.remaining now := by
  simp only [TimerNode.remaining]
  exact Int.tdiv_le_tdiv (by omega) (by omega)

theorem tick_of_front (left : ∀ node, timer.heap.head? = some node → 0 < node.remaining now) :
    timer.tick (fun _ => now) = some ([], timer) := by
  rw [tick, tickLoop.eq_def]
  cases heap : timer.heap with
  | nil => simp [heap]
  | cons node rest => simp [heap, left node (by rw [heap]; rfl)]

/-- When all have expired, all are fired, the latest first. -/
theorem tickLoop_all {passes reading : Nat} (enough : timer.heap.length ≤ passes) (ordered : timer.Ordered)
    (expired : ∀ node ∈ timer.heap, node.remaining now ≤ 0) :
    ∃ fired after, tickLoop (fun _ => now) passes reading timer = some (fired, after) ∧ fired ~ timer.heap ∧
      after.heap = [] ∧ fired.Pairwise fun node next => next.expires ≤ node.expires := by
  induction passes generalizing timer reading with
  | zero =>
    have empty : timer.heap = [] := List.eq_nil_of_length_eq_zero (Nat.le_zero.mp enough)
    exact ⟨[], timer, by rw [tickLoop.eq_def]; simp [empty], by rw [empty], empty, .nil⟩
  | succ passes ih =>
    cases heap : timer.heap with
    | nil => exact ⟨[], timer, by rw [tickLoop.eq_def]; simp [heap], .refl _, heap, .nil⟩
    | cons node rest =>
      have front : timer.heap.head? = some node := by rw [heap]; rfl
      have late : node.remaining now ≤ 0 := expired node (by rw [heap]; exact List.mem_cons_self)
      obtain ⟨victim, popped, found, deleted, perm, kept⟩ := @del_spec _ timer 0 (by rw [heap]; exact Nat.succ_pos _)
      have same : victim = node := by
        rw [heap] at found
        exact (Option.some_inj.mp found).symm
      subst same
      have length := perm.length_eq
      rw [List.length_cons] at length
      obtain ⟨fired, after, rest', all, empty, sorted⟩ := @ih popped (reading + 1) (by omega) (kept ordered)
        fun other member => expired other (perm.mem_iff.mpr (List.mem_cons_of_mem _ member))
      refine ⟨victim :: fired, after, ?_, ?_, empty, ?_⟩
      · rw [tickLoop.eq_def]
        simp [heap, not_lt.mpr late, pop, deleted, rest']
      · rw [← heap]
        exact (all.cons victim).trans perm.symm
      · refine List.pairwise_cons.mpr ⟨?_, sorted⟩
        intro other member
        exact ordered.le_front front (perm.mem_iff.mpr (List.mem_cons_of_mem _ (all.mem_iff.mp member)))

/-- `tick` does what it should after the calls of `add`. -/
def TickExact (calls : List (Add β)) (now : Int) : Prop :=
  ∃ timer fired after, addAll calls = some timer ∧ timer.tick (fun _ => now) = some (fired, after) ∧
    Fires (armed calls) now fired after.heap

theorem fires_none {timers left : List (TimerNode β)} (perm : left ~ timers) (waiting : ∀ node ∈ timers, 0 < node.remaining now) :
    Fires timers now [] left where
  expired := by
    rw [List.filter_eq_nil_iff.mpr]
    intro node member
    have remaining := waiting node member
    simpa using remaining
  sorted := .nil
  left := by
    rw [List.filter_eq_self.mpr]
    · exact perm
    · intro node member
      exact decide_eq_true (waiting node member)

theorem fires_all {timers : List (TimerNode β)} (perm : fired ~ timers) (late : ∀ node ∈ timers, node.remaining now ≤ 0)
    (sorted : fired.Pairwise fun node next => node.expires ≤ next.expires) : Fires timers now fired [] where
  expired := by
    rw [List.filter_eq_self.mpr]
    · exact perm
    · intro node member
      exact decide_eq_true (late node member)
  sorted := sorted
  left := by
    rw [List.filter_eq_nil_iff.mpr]
    intro node member
    have remaining := late node member
    simpa using remaining

/-- After any calls of `add`, `tick` fires exactly the expired timers in order of expiry if and
only if none has expired yet or all expire at the same time. -/
theorem tick_exact_iff (calls : List (Add β)) (valid : ∀ call ∈ calls, 0 ≤ call.id) (now : Int) :
    TickExact calls now ↔
      (∀ node ∈ armed calls, 0 < node.remaining now) ∨
        ∀ node ∈ armed calls, ∀ other ∈ armed calls, node.expires = other.expires := by
  obtain ⟨timer, added, _, ordered, perm⟩ := addAll_spec calls valid
  constructor
  · intro ⟨_, fired, after, added', ticked, fires⟩
    cases added.symm.trans added'
    by_cases waiting : ∀ node ∈ armed calls, 0 < node.remaining now
    · exact .inl waiting
    · right
      -- One has expired, so `tick` did not stop at once, and then the latest has expired too.
      simp only [not_forall, not_lt] at waiting
      obtain ⟨first, present, late⟩ := waiting
      have member : first ∈ fired := fires.expired.mem_iff.mpr (List.mem_filter.mpr ⟨present, decide_eq_true late⟩)
      have expired : ∀ node ∈ timer.heap, node.remaining now ≤ 0 := by
        rcases tickLoop_cases ticked with ⟨rfl, _⟩ | ⟨node, _, _, _, front, late', _⟩
        · cases member
        · intro other there
          exact le_trans (remaining_mono (ordered.le_front front there)) late'
      obtain ⟨_, _, ticked', all, _, sorted⟩ := @tickLoop_all _ timer now _ 0 (Nat.le_refl _) ordered expired
      cases ticked'.symm.trans ticked
      have equal : fired.Pairwise fun node next => node.expires = next.expires :=
        (sorted.and fires.sorted).imp fun both => le_antisymm both.2 both.1
      have among : ∀ {node}, node ∈ armed calls → node ∈ fired :=
        fun member => all.mem_iff.mpr (perm.mem_iff.mpr member)
      intro node here other there
      by_cases same : node = other
      · rw [same]
      · have symmetric : Std.Symm fun (node next : TimerNode β) => node.expires = next.expires := ⟨fun _ _ => Eq.symm⟩
        exact equal.forall (among here) (among there) same
  · intro condition
    by_cases waiting : ∀ node ∈ armed calls, 0 < node.remaining now
    · refine ⟨timer, [], timer, added, tick_of_front ?_, fires_none perm waiting⟩
      intro node front
      exact waiting node (perm.mem_iff.mp (List.mem_of_mem_head? front))
    · have equal := condition.resolve_left waiting
      simp only [not_forall, not_lt] at waiting
      obtain ⟨first, member, late⟩ := waiting
      have expired : ∀ node ∈ armed calls, node.remaining now ≤ 0 := by
        intro node there
        exact le_trans (remaining_mono (le_of_eq (equal node there first member))) late
      obtain ⟨fired, after, ticked, all, empty, _⟩ := @tickLoop_all _ timer now _ 0 (Nat.le_refl _) ordered
        fun node there => expired node (perm.mem_iff.mp there)
      refine ⟨timer, fired, after, added, ticked, ?_⟩
      rw [empty]
      refine fires_all (all.trans perm) expired (List.pairwise_of_forall_mem_list ?_)
      intro node here other there
      exact le_of_eq (equal node ((all.trans perm).mem_iff.mp here) other ((all.trans perm).mem_iff.mp there))

theorem tick_exact_two_together : TickExact [⟨1, 10, "a", 0⟩, ⟨2, 10, "b", 0⟩] 15000000 := by
  refine (tick_exact_iff _ (by decide) _).mpr (.inr ?_)
  decide

/-- A timer of 10 ms and one of 20 ms: after 15 ms neither is fired. -/
theorem tick_misses_expired :
    ∃ timer fired after, addAll [⟨1, 10, "a", 0⟩, ⟨2, 20, "b", 0⟩] = some timer ∧
      timer.tick (fun _ => 15000000) = some (fired, after) ∧ fired = [] ∧
      ¬ TickExact [⟨1, 10, "a", 0⟩, ⟨2, 20, "b", 0⟩] 15000000 := by
  refine ⟨_, _, _, by rfl, by rfl, by rfl, ?_⟩
  intro ⟨timer, fired, after, added, ticked, fires⟩
  cases added.symm.trans (by rfl)
  cases ticked.symm.trans (by rfl)
  have missed := fires.expired.length_eq
  revert missed
  decide

end Timer

end HttpFramework.Code
