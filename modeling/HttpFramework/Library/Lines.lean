import Mathlib.Data.List.Basic
import Mathlib.Tactic.Common

/-! A sequence that is broken into lines of one length, with a mark between each two of them. -/

namespace Lines

universe u

variable {α : Type u} {width : { n : Nat // 0 < n }} {mark : α} {items : List α}

/-- Only the last line may be shorter. -/
def cut (width : { n : Nat // 0 < n }) (items : List α) : List (List α) :=
  if width < items.length then items.take width :: cut width (items.drop width) else [items]
termination_by items.length
decreasing_by
  have := width.2
  rw [List.length_drop]
  omega

theorem cut_nonempty (width : { n : Nat // 0 < n }) (items : List α) : cut width items ≠ [] := by
  rw [cut]
  split <;> exact List.cons_ne_nil _ _

theorem cut_long (long : width < items.length) : cut width items = items.take width :: cut width (items.drop width) := by
  rw [cut, if_pos long]

theorem cut_short (short : items.length ≤ width) : cut width items = [items] := by
  rw [cut, if_neg (Nat.not_lt.mpr short)]

theorem flatten_cut (width : { n : Nat // 0 < n }) (items : List α) : (cut width items).flatten = items := by
  fun_induction cut width items with
  | case1 items long ih => rw [List.flatten_cons, ih, List.take_append_drop]
  | case2 items short => exact List.flatten_singleton

theorem length_cut_le (width : { n : Nat // 0 < n }) (items : List α) : ∀ line ∈ cut width items, line.length ≤ width := by
  fun_induction cut width items with
  | case1 items long ih =>
    intro line member
    rcases List.mem_cons.mp member with rfl | later
    · exact List.length_take_le _ _
    · exact ih line later
  | case2 items short =>
    intro line member
    rw [List.mem_singleton.mp member]
    exact Nat.not_lt.mp short

theorem length_cut_eq (width : { n : Nat // 0 < n }) (items : List α) : ∀ line ∈ (cut width items).dropLast, line.length = width := by
  fun_induction cut width items with
  | case1 items long ih =>
    intro line member
    rw [List.dropLast_cons_of_ne_nil (cut_nonempty _ _)] at member
    rcases List.mem_cons.mp member with rfl | later
    · rw [List.length_take, Nat.min_eq_left (Nat.le_of_lt long)]
    · exact ih line later
  | case2 items short => exact nofun

/-- The lines one after the other. -/
def joined (mark : α) (lines : List (List α)) : List α := [mark].intercalate lines

theorem joined_cons {lines : List (List α)} (more : lines ≠ []) (line : List α) :
    joined mark (line :: lines) = line ++ mark :: joined mark lines := by
  rw [joined, List.intercalate_cons_of_ne_nil more, List.append_assoc]
  rfl

/-- The first line begins as the sequence does. -/
theorem joined_cut_cons (width : { n : Nat // 0 < n }) (mark item : α) (items : List α) :
    ∃ rest, joined mark (cut width (item :: items)) = item :: rest := by
  obtain ⟨width, positive⟩ := width
  obtain ⟨less, rfl⟩ := Nat.exists_eq_succ_of_ne_zero (Nat.ne_of_gt positive)
  by_cases long : less + 1 < (item :: items).length
  · rw [cut_long long, joined_cons (cut_nonempty _ _), List.take_succ_cons, List.cons_append]
    exact ⟨_, rfl⟩
  · rw [cut_short (Nat.not_lt.mp long), joined, List.intercalate_singleton]
    exact ⟨items, rfl⟩

theorem filter_joined [DecidableEq α] {lines : List (List α)} (absent : ∀ line ∈ lines, mark ∉ line) :
    (joined mark lines).filter (· ≠ mark) = lines.flatten := by
  induction lines with
  | nil => rfl
  | cons line lines ih =>
    have own : line.filter (· ≠ mark) = line := by
      apply List.filter_eq_self.mpr
      intro item member
      apply decide_eq_true
      rintro rfl
      exact absent line List.mem_cons_self member
    rcases eq_or_ne lines [] with rfl | more
    · rw [joined, List.intercalate_singleton, own, List.flatten_singleton]
    · rw [joined_cons more, List.filter_append, own, List.filter_cons_of_neg (by simp),
        ih fun line member => absent line (List.mem_cons_of_mem _ member), List.flatten_cons]

/-- Without the marks the lines are what they were made of. -/
theorem filter_joined_cut [DecidableEq α] (width : { n : Nat // 0 < n }) (absent : mark ∉ items) :
    (joined mark (cut width items)).filter (· ≠ mark) = items := by
  rw [filter_joined, flatten_cut]
  intro line member there
  apply absent
  rw [← flatten_cut width items]
  exact List.mem_flatten.mpr ⟨line, member, there⟩

end Lines
