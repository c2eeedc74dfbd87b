import Mathlib.Algebra.GroupWithZero.Nat
import Mathlib.Data.List.Induction
import Mathlib.Tactic.Common

/-! A sequence that is cut into parts as it comes. An item joins the last part, unless that has
reached a limit; then it begins the next. -/

namespace Rolling

universe u

variable {α : Type u} (weight : α → Nat) (limit : Nat)

def total (part : List α) : Nat := (part.map weight).sum

def roll (parts : List (List α)) (item : α) : List (List α) :=
  match parts.getLast? with
  | none => [[item]]
  | some last => if limit ≤ total weight last then parts ++ [[item]] else parts.dropLast ++ [last ++ [item]]

/-- Every part but the last has reached the limit, and no part had reached it before its last item. -/
structure Cut (parts : List (List α)) : Prop where
  full : ∀ part ∈ parts.dropLast, limit ≤ total weight part
  tight : ∀ part ∈ parts, part ≠ [] ∧ total weight part.dropLast < limit

variable {weight limit} {parts : List (List α)} {last : List α}

@[simp] theorem roll_nil (item : α) : roll weight limit [] item = [[item]] := rfl

/-- There is no last part, or it has reached the limit. -/
theorem roll_fresh (full : ∀ last, parts.getLast? = some last → limit ≤ total weight last) (item : α) :
    roll weight limit parts item = parts ++ [[item]] := by
  rw [roll]
  cases found : parts.getLast? with
  | none => rw [List.getLast?_eq_none_iff.mp found]; rfl
  | some last => exact if_pos (full last found)

theorem roll_full (full : limit ≤ total weight last) (item : α) :
    roll weight limit (parts ++ [last]) item = parts ++ [last] ++ [[item]] := by
  apply roll_fresh
  intro other there
  rw [List.getLast?_concat] at there
  cases there
  exact full

theorem roll_light (light : total weight last < limit) (item : α) :
    roll weight limit (parts ++ [last]) item = parts ++ [last ++ [item]] := by
  rw [roll, List.getLast?_concat, List.dropLast_concat]
  exact if_neg (Nat.not_le.mpr light)

/-- Nothing is lost or cut apart. -/
theorem flatten_roll (parts : List (List α)) (item : α) : (roll weight limit parts item).flatten = parts.flatten ++ [item] := by
  cases parts using List.reverseRecOn with
  | nil => rfl
  | append_singleton parts last =>
    by_cases full : limit ≤ total weight last
    · rw [roll_full full]
      simp
    · rw [roll_light (Nat.not_le.mp full)]
      simp

theorem cut_nil : Cut weight limit [] := by
  constructor
  · intro part member
    cases member
  · intro part member
    cases member

theorem Cut.roll (cut : Cut weight limit parts) (positive : 0 < limit) (item : α) : Cut weight limit (roll weight limit parts item) := by
  have single : total weight [item].dropLast < limit := positive
  cases parts using List.reverseRecOn with
  | nil =>
    refine ⟨fun part member => ?_, fun part member => ?_⟩
    · cases member
    · cases List.mem_singleton.mp member
      exact ⟨List.cons_ne_nil _ _, single⟩
  | append_singleton parts last =>
    obtain ⟨full, tight⟩ := cut
    rw [List.dropLast_concat] at full
    by_cases reached : limit ≤ total weight last
    · rw [roll_full reached]
      refine ⟨fun part member => ?_, fun part member => ?_⟩
      · rw [List.dropLast_concat] at member
        rcases List.mem_append.mp member with earlier | own
        · exact full part earlier
        · cases List.mem_singleton.mp own
          exact reached
      · rcases List.mem_append.mp member with earlier | own
        · exact tight part earlier
        · cases List.mem_singleton.mp own
          exact ⟨List.cons_ne_nil _ _, single⟩
    · have light := Nat.not_le.mp reached
      rw [roll_light light]
      refine ⟨fun part member => ?_, fun part member => ?_⟩
      · rw [List.dropLast_concat] at member
        exact full part member
      · rcases List.mem_append.mp member with earlier | own
        · exact tight part (List.mem_append_left _ earlier)
        · cases List.mem_singleton.mp own
          exact ⟨List.append_ne_nil_of_right_ne_nil _ (List.cons_ne_nil _ _), by rwa [List.dropLast_concat]⟩

/-- The parts of a sequence. -/
def rolled (weight : α → Nat) (limit : Nat) (items : List α) : List (List α) := items.foldl (Rolling.roll weight limit) []

theorem rolled_concat (items : List α) (item : α) :
    rolled weight limit (items ++ [item]) = Rolling.roll weight limit (rolled weight limit items) item := by
  rw [rolled, List.foldl_append]
  rfl

/-- Items that stand for others are cut as these are. -/
theorem rolled_map {β : Type u} (f : β → α) (items : List β) :
    rolled weight limit (items.map f) = (rolled (fun item => weight (f item)) limit items).map (List.map f) := by
  have totals : ∀ part : List β, total weight (part.map f) = total (fun item => weight (f item)) part := by
    intro part
    rw [total, total, List.map_map]
    rfl
  induction items using List.reverseRecOn with
  | nil => rfl
  | append_singleton items item ih =>
    rw [List.map_append, List.map_singleton, rolled_concat, rolled_concat, ih]
    cases rolled (fun item => weight (f item)) limit items using List.reverseRecOn with
    | nil => rfl
    | append_singleton parts last =>
      rw [List.map_append, List.map_singleton]
      by_cases full : limit ≤ total weight (last.map f)
      · rw [roll_full full, roll_full (totals last ▸ full)]
        simp
      · rw [roll_light (Nat.not_le.mp full), roll_light (totals last ▸ Nat.not_le.mp full)]
        simp

theorem flatten_rolled (items : List α) : (rolled weight limit items).flatten = items := by
  induction items using List.reverseRecOn with
  | nil => rfl
  | append_singleton items item ih => rw [rolled_concat, flatten_roll, ih]

theorem cut_rolled (positive : 0 < limit) (items : List α) : Cut weight limit (rolled weight limit items) := by
  induction items using List.reverseRecOn with
  | nil => exact cut_nil
  | append_singleton items item ih =>
    rw [rolled_concat]
    exact ih.roll positive item

end Rolling
