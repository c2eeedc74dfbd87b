import Mathlib.Data.Multiset.AddSub
import Mathlib.Data.Multiset.Filter
import Mathlib.Data.Multiset.UnionInter

/-! Keys that are each in one place of many: on a list, in a queue, in a thread's hands. The places of
a system are added up, and a step is described by what it takes away and what it puts in its
stead. -/

namespace Custody

universe u v

variable {κ : Type u} {σ : Type v} {keys : Multiset κ} {held held' : Multiset (κ × σ)} {key : κ} {stage stage' : σ}

/-- Every key is held once, at one stage, and nothing else is held. -/
structure Complete (keys : Multiset κ) (held : Multiset (κ × σ)) : Prop where
  distinct : keys.Nodup
  exact : held.map Prod.fst = keys

theorem Complete.mem (complete : Complete keys held) (there : (key, stage) ∈ held) : key ∈ keys :=
  complete.exact ▸ Multiset.mem_map_of_mem Prod.fst there

theorem Complete.has (complete : Complete keys held) (member : key ∈ keys) : ∃ stage, (key, stage) ∈ held := by
  rw [← complete.exact] at member
  obtain ⟨⟨_, stage⟩, there, rfl⟩ := Multiset.mem_map.mp member
  exact ⟨stage, there⟩

theorem Complete.distinct_held (complete : Complete keys held) : (held.map Prod.fst).Nodup := by
  rw [complete.exact]
  exact complete.distinct

theorem Complete.unique (complete : Complete keys held) (there : (key, stage) ∈ held) (there' : (key, stage') ∈ held) :
    stage = stage' := by
  have same := Multiset.inj_on_of_nodup_map complete.distinct_held _ there _ there' rfl
  exact (Prod.mk.inj same).2

/-- Nothing is in two parts at once. -/
theorem Complete.apart {first second : Multiset (κ × σ)} (complete : Complete keys (first + second))
    (there : (key, stage) ∈ first) : (key, stage') ∉ second := by
  intro there'
  have distinct := complete.distinct_held
  rw [Multiset.map_add, Multiset.nodup_add] at distinct
  exact Multiset.disjoint_left.mp distinct.2.2 (Multiset.mem_map.mpr ⟨_, there, rfl⟩) (Multiset.mem_map.mpr ⟨_, there', rfl⟩)

/-- A key comes to another stage. -/
theorem Complete.exchange (complete : Complete keys held) (balance : held' + {(key, stage)} = held + {(key, stage')}) :
    Complete keys held' := by
  refine ⟨complete.distinct, ?_⟩
  have balance := congrArg (Multiset.map Prod.fst) balance
  rw [Multiset.map_add, Multiset.map_add, Multiset.map_singleton, Multiset.map_singleton] at balance
  exact (Multiset.add_left_inj.mp balance).trans complete.exact

theorem Complete.insert (complete : Complete keys held) (new : key ∉ keys) (balance : held' = held + {(key, stage)}) :
    Complete (key ::ₘ keys) held' := by
  refine ⟨Multiset.nodup_cons.mpr ⟨new, complete.distinct⟩, ?_⟩
  rw [balance, Multiset.map_add, Multiset.map_singleton, complete.exact, Multiset.add_comm, Multiset.singleton_add]

theorem Complete.remove [DecidableEq κ] (complete : Complete keys held) (balance : held' + {(key, stage)} = held) :
    Complete (keys.erase key) held' := by
  refine ⟨complete.distinct.erase key, ?_⟩
  rw [← complete.exact, ← balance, Multiset.map_add, Multiset.map_singleton, Multiset.add_comm, Multiset.singleton_add,
    Multiset.erase_cons_head]

/-- How many are at a stage of some kind. -/
theorem count_add (p : κ × σ → Bool) (held : Multiset (κ × σ)) (place : κ × σ) :
    ((held + {place}).countP fun place => p place = true) =
      (held.countP fun place => p place = true) + if p place then 1 else 0 := by
  rw [Multiset.countP_add, ← Multiset.cons_zero, Multiset.countP_cons, Multiset.countP_zero, Nat.zero_add]

theorem count_exchange (p : κ × σ → Bool) (balance : held' + {(key, stage)} = held + {(key, stage')}) :
    (held'.countP fun place => p place = true) + (if p (key, stage) then 1 else 0) =
      (held.countP fun place => p place = true) + if p (key, stage') then 1 else 0 := by
  have counts := congrArg (Multiset.countP fun place => p place = true) balance
  rwa [count_add, count_add] at counts

/-- Where everything is after a key has come to another stage. -/
theorem Complete.mem_exchange (complete : Complete keys held) (there : (key, stage) ∈ held)
    (balance : held' + {(key, stage)} = held + {(key, stage')}) {place : κ × σ} :
    place ∈ held' ↔ place = (key, stage') ∨ place.1 ≠ key ∧ place ∈ held := by
  obtain ⟨rest, rfl⟩ := Multiset.exists_cons_of_mem there
  have distinct := complete.distinct_held
  rw [Multiset.map_cons, Multiset.nodup_cons] at distinct
  have after : held' = (key, stage') ::ₘ rest := by
    rw [← Multiset.singleton_add (key, stage), Multiset.add_assoc, Multiset.add_comm {(key, stage)}] at balance
    rw [Multiset.add_left_inj.mp balance, Multiset.add_comm, Multiset.singleton_add]
  have elsewhere : place ∈ rest → place.1 ≠ key :=
    fun member same => distinct.1 (Multiset.mem_map.mpr ⟨place, member, same⟩)
  rw [after, Multiset.mem_cons, Multiset.mem_cons]
  constructor
  · rintro (now | kept)
    · exact .inl now
    · exact .inr ⟨elsewhere kept, .inr kept⟩
  · rintro (now | ⟨different, before | kept⟩)
    · exact .inl now
    · exact absurd (congrArg Prod.fst before) different
    · exact .inr kept

/-- What is left when a key is given up. -/
theorem Complete.mem_remove (complete : Complete keys held) (balance : held' + {(key, stage)} = held) {place : κ × σ} :
    place ∈ held' ↔ place.1 ≠ key ∧ place ∈ held := by
  subst balance
  rw [Multiset.mem_add, Multiset.mem_singleton]
  constructor
  · intro kept
    refine ⟨?_, .inl kept⟩
    rintro rfl
    exact complete.apart kept (Multiset.mem_singleton_self _)
  · rintro ⟨different, kept | gone⟩
    · exact kept
    · exact absurd (congrArg Prod.fst gone) different

end Custody
