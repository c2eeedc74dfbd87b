import Mathlib.Data.List.Perm.Basic
import Mathlib.Data.List.Nodup
import Mathlib.Tactic.Common

/-! A queue with two ends that keeps account of its items. They are numbered as they are put in;
an item is in the queue, has been taken from its front, or has been dropped with all the others. -/

universe u

structure Ledger (α : Type u) where
  queue : List (Nat × α) := []
  puts : Nat := 0
  taken : List (Nat × α) := []
  dropped : List (Nat × α) := []
deriving DecidableEq, Repr

namespace Ledger

variable {α : Type u} {ledger : Ledger α} {number : Nat} {item : α} {rest : List (Nat × α)}

def items (ledger : Ledger α) : List α := ledger.queue.map Prod.snd

def put (front : Bool) (item : α) (ledger : Ledger α) : Ledger α :=
  { ledger with
    queue := if front then (ledger.puts, item) :: ledger.queue else ledger.queue ++ [(ledger.puts, item)]
    puts := ledger.puts + 1 }

def take (ledger : Ledger α) : Ledger α :=
  match ledger.queue with
  | [] => ledger
  | first :: rest => { ledger with queue := rest, taken := ledger.taken ++ [first] }

def drop (ledger : Ledger α) : Ledger α := { ledger with queue := [], dropped := ledger.dropped ++ ledger.queue }

/-- Every number that has been given out is in one place. -/
def Accounted (ledger : Ledger α) : Prop :=
  ((ledger.taken ++ ledger.dropped ++ ledger.queue).map Prod.fst).Perm (List.range ledger.puts)

theorem accounted_empty : ({ } : Ledger α).Accounted := List.Perm.refl _

@[simp] theorem items_put_front (item : α) (ledger : Ledger α) : (ledger.put true item).items = item :: ledger.items := rfl

@[simp] theorem items_put_back (item : α) (ledger : Ledger α) : (ledger.put false item).items = ledger.items ++ [item] :=
  List.map_append

@[simp] theorem items_drop (ledger : Ledger α) : ledger.drop.items = [] := rfl

theorem take_eq (front : ledger.queue = (number, item) :: rest) :
    ledger.take = { ledger with queue := rest, taken := ledger.taken ++ [(number, item)] } := by
  rw [take, front]

theorem Accounted.put (accounted : ledger.Accounted) (front : Bool) (item : α) : (ledger.put front item).Accounted := by
  have added : ((ledger.put front item).queue).Perm (ledger.queue ++ [(ledger.puts, item)]) := by
    cases front with
    | true => exact (List.perm_append_singleton _ _).symm
    | false => exact List.Perm.refl _
  have all : ((ledger.taken ++ ledger.dropped ++ (ledger.put front item).queue).map Prod.fst).Perm
      ((ledger.taken ++ ledger.dropped ++ ledger.queue).map Prod.fst ++ [ledger.puts]) := by
    have moved := (added.append_left (ledger.taken ++ ledger.dropped)).map Prod.fst
    simpa only [List.map_append, List.append_assoc, List.map_cons, List.map_nil] using moved
  refine all.trans ?_
  rw [show (ledger.put front item).puts = ledger.puts + 1 from rfl, List.range_succ]
  exact accounted.append_right _

theorem Accounted.take (accounted : ledger.Accounted) : ledger.take.Accounted := by
  cases front : ledger.queue with
  | nil =>
    rw [Ledger.take, front]
    exact accounted
  | cons first rest =>
    have moved : (ledger.taken ++ [first] ++ ledger.dropped ++ rest).Perm (ledger.taken ++ ledger.dropped ++ first :: rest) := by
      rw [List.append_assoc, List.append_assoc, List.append_assoc]
      apply List.Perm.append_left
      show (first :: (ledger.dropped ++ rest)).Perm (ledger.dropped ++ first :: rest)
      exact List.perm_middle.symm
    rw [take_eq front]
    rw [Accounted, front] at accounted
    exact (moved.map Prod.fst).trans accounted

theorem Accounted.drop (accounted : ledger.Accounted) : ledger.drop.Accounted := by
  rw [Accounted, Ledger.drop, List.append_nil, ← List.append_assoc]
  exact accounted

/-- What has been taken was put in, and no item has been taken twice. -/
theorem Accounted.taken_once (accounted : ledger.Accounted) : (ledger.taken.map Prod.fst).Nodup := by
  have distinct := accounted.nodup_iff.mpr List.nodup_range
  rw [List.map_append, List.map_append] at distinct
  exact distinct.of_append_left.of_append_left

end Ledger
