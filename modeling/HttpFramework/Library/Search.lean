import Mathlib.Data.List.Infix
import Mathlib.Data.List.TakeWhile

/-! The first place at which two given elements stand next to each other. What
is found in a sequence stays the first such place when the sequence grows. Then
the first place of a marker, in a sequence that is put together from parts. -/

namespace Search

universe u

variable {α : Type u} {a b : α}

def firstPair [DecidableEq α] (a b : α) : List α → Option Nat
  | x :: y :: rest => if x = a ∧ y = b then some 0 else (firstPair a b (y :: rest)).map (· + 1)
  | _ => none

/-- The sequence cut at each place where the pair stands, from the left. -/
def splitPair [DecidableEq α] (a b : α) : List α → List (List α)
  | x :: y :: rest =>
    if x = a ∧ y = b then [] :: splitPair a b rest else (splitPair a b (y :: rest)).modifyHead (x :: ·)
  | rest => [rest]

/-- The pair does not occur in the sequence. -/
def Unbroken (a b : α) (items : List α) : Prop := ¬ [a, b] <:+: items

section
variable [DecidableEq α]

instance (items : List α) : Decidable (Unbroken a b items) := inferInstanceAs (Decidable (¬ _))

theorem take_idxOf (item : α) (items : List α) : items.take (items.idxOf item) = items.takeWhile (· != item) := by
  rw [List.takeWhile_eq_take_findIdx_not]
  simp [List.idxOf, bne]

theorem idxOf_join {item : α} {before : List α} (absent : item ∉ before) (rest : List α) :
    (before ++ item :: rest).idxOf item = before.length := by
  rw [List.idxOf_append, if_neg absent, List.idxOf_cons_self, Nat.zero_add]

theorem idxOf_cut {item : α} {items : List α} (present : items.idxOf item ≠ items.length) :
    items = items.take (items.idxOf item) ++ item :: items.drop (items.idxOf item + 1) ∧
      item ∉ items.take (items.idxOf item) := by
  have inside : items.idxOf item < items.length := lt_of_le_of_ne List.idxOf_le_length present
  constructor
  · have here : items[items.idxOf item] = item := List.getElem_idxOf inside
    conv_lhs => rw [← List.take_append_drop (items.idxOf item) items, List.drop_eq_getElem_cons inside, here]
  · rw [take_idxOf]
    intro member
    have different := List.mem_takeWhile_imp member
    simp at different

theorem firstPair_here (a b : α) (rest : List α) : firstPair a b (a :: b :: rest) = some 0 := if_pos ⟨rfl, rfl⟩

theorem firstPair_elsewhere {x y : α} (elsewhere : ¬ (x = a ∧ y = b)) (rest : List α) :
    firstPair a b (x :: y :: rest) = (firstPair a b (y :: rest)).map (· + 1) :=
  if_neg elsewhere

theorem firstPair_short {items : List α} (short : ∀ x y rest, items = x :: y :: rest → False) :
    firstPair a b items = none := by
  cases items with
  | nil => rfl
  | cons x items =>
    cases items with
    | nil => rfl
    | cons y rest => exact (short x y rest rfl).elim

theorem firstPair_bound {items : List α} {place : Nat} (found : firstPair a b items = some place) :
    place + 2 ≤ items.length := by
  induction items using firstPair.induct a b generalizing place with
  | case1 x y rest here =>
    obtain ⟨rfl, rfl⟩ := here
    cases (firstPair_here x y rest).symm.trans found
    simp
  | case2 x y rest elsewhere ih =>
    simp only [firstPair_elsewhere elsewhere, Option.map_eq_some_iff] at found
    obtain ⟨later, found, rfl⟩ := found
    have inside := ih found
    simp only [List.length_cons] at inside ⊢
    omega
  | case3 items short =>
    cases (firstPair_short short).symm.trans found

theorem firstPair_cut {items : List α} {place : Nat} (found : firstPair a b items = some place) :
    items = items.take place ++ a :: b :: items.drop (place + 2) ∧ Unbroken a b (items.take place) := by
  induction items using firstPair.induct a b generalizing place with
  | case1 x y rest here =>
    obtain ⟨rfl, rfl⟩ := here
    cases (firstPair_here x y rest).symm.trans found
    exact ⟨rfl, fun occurs => by cases List.infix_nil.mp occurs⟩
  | case2 x y rest elsewhere ih =>
    simp only [firstPair_elsewhere elsewhere, Option.map_eq_some_iff] at found
    obtain ⟨later, found, rfl⟩ := found
    obtain ⟨cut, unbroken⟩ := ih found
    constructor
    · rw [List.take_succ_cons, List.cons_append, Nat.add_right_comm, List.drop_succ_cons]
      exact congrArg (x :: ·) cut
    · intro occurs
      rw [List.take_succ_cons] at occurs
      rcases List.infix_cons_iff.mp occurs with starts | inside
      · obtain ⟨rfl, next⟩ := List.cons_prefix_cons.mp starts
        have second : b = y := by
          cases later with
          | zero => simp at next
          | succ later =>
            rw [List.take_succ_cons] at next
            exact (List.cons_prefix_cons.mp next).1
        exact elsewhere ⟨rfl, second.symm⟩
      · exact unbroken inside
  | case3 items short =>
    cases (firstPair_short short).symm.trans found

theorem firstPair_append {items : List α} {place : Nat} (found : firstPair a b items = some place)
    (more : List α) : firstPair a b (items ++ more) = some place := by
  induction items using firstPair.induct a b generalizing place with
  | case1 x y rest here =>
    obtain ⟨rfl, rfl⟩ := here
    exact (firstPair_here x y (rest ++ more)).trans ((firstPair_here x y rest).symm.trans found)
  | case2 x y rest elsewhere ih =>
    simp only [firstPair_elsewhere elsewhere, Option.map_eq_some_iff] at found
    obtain ⟨later, found, rfl⟩ := found
    have kept := ih found
    rw [List.cons_append] at kept
    rw [List.cons_append, List.cons_append, firstPair_elsewhere elsewhere, kept, Option.map_some]
  | case3 items short =>
    cases (firstPair_short short).symm.trans found

/-- In front of the pair, a sequence in which it does not occur is cut off whole.
The two elements differ, so no occurrence can straddle the cut. -/
theorem firstPair_line (different : a ≠ b) {line : List α} (unbroken : Unbroken a b line) (rest : List α) :
    firstPair a b (line ++ a :: b :: rest) = some line.length := by
  induction line with
  | nil => exact firstPair_here a b rest
  | cons x line ih =>
    have tail : Unbroken a b line := fun occurs => unbroken (occurs.trans (List.suffix_cons x line).isInfix)
    have found := ih tail
    cases line with
    | nil =>
      have elsewhere : ¬ (x = a ∧ a = b) := fun both => different both.2
      rw [List.nil_append] at found
      rw [List.cons_append, List.nil_append, firstPair_elsewhere elsewhere, found]
      rfl
    | cons y line =>
      have elsewhere : ¬ (x = a ∧ y = b) := by
        rintro ⟨rfl, rfl⟩
        exact unbroken (List.prefix_append [x, y] line).isInfix
      rw [List.cons_append] at found
      rw [List.cons_append, List.cons_append, firstPair_elsewhere elsewhere, found]
      rfl

theorem splitPair_line (different : a ≠ b) {line : List α} (unbroken : Unbroken a b line) (rest : List α) :
    splitPair a b (line ++ a :: b :: rest) = line :: splitPair a b rest := by
  induction line with
  | nil => simp [splitPair]
  | cons x line ih =>
    have tail : Unbroken a b line := fun occurs => unbroken (occurs.trans (List.suffix_cons x line).isInfix)
    have cut := ih tail
    cases line with
    | nil =>
      have elsewhere : ¬ (x = a ∧ a = b) := fun both => different both.2
      rw [List.nil_append] at cut
      rw [List.cons_append, List.nil_append, splitPair, if_neg elsewhere, cut]
      rfl
    | cons y line =>
      have elsewhere : ¬ (x = a ∧ y = b) := by
        rintro ⟨rfl, rfl⟩
        exact unbroken (List.prefix_append [x, y] line).isInfix
      rw [List.cons_append] at cut
      rw [List.cons_append, List.cons_append, splitPair, if_neg elsewhere, cut]
      rfl

/-- Lines that are ended by the pair are cut apart again. -/
theorem splitPair_lines (different : a ≠ b) {lines : List (List α)} (unbroken : ∀ line ∈ lines, Unbroken a b line)
    (rest : List α) :
    splitPair a b ((lines.flatMap fun line => line ++ [a, b]) ++ rest) = lines ++ splitPair a b rest := by
  induction lines with
  | nil => rfl
  | cons line lines ih =>
    have first := splitPair_line different (unbroken line List.mem_cons_self)
      ((lines.flatMap fun line => line ++ [a, b]) ++ rest)
    rw [List.flatMap_cons, List.append_assoc, List.append_assoc]
    exact first.trans (congrArg (line :: ·) (ih fun line member => unbroken line (List.mem_cons_of_mem _ member)))

end

/-- What is cut out of a sequence without the pair has none. -/
theorem Unbroken.part {items part : List α} (unbroken : Unbroken a b items) (inside : part <:+: items) :
    Unbroken a b part :=
  fun occurs => unbroken (occurs.trans inside)

theorem Unbroken.nil : Unbroken a b ([] : List α) := by
  intro occurs
  cases List.infix_nil.mp occurs

theorem Unbroken.join {first second : List α} {joint : α} (left : Unbroken a b first)
    (right : Unbroken a b second) (notFirst : joint ≠ a) (notSecond : joint ≠ b) :
    Unbroken a b (first ++ joint :: second) := by
  induction first with
  | nil =>
    intro occurs
    rw [List.nil_append] at occurs
    rcases List.infix_cons_iff.mp occurs with starts | later
    · exact notFirst (List.cons_prefix_cons.mp starts).1.symm
    · exact right later
  | cons x first ih =>
    have tail : Unbroken a b first := fun occurs => left (occurs.trans (List.suffix_cons x first).isInfix)
    intro occurs
    rw [List.cons_append] at occurs
    rcases List.infix_cons_iff.mp occurs with starts | later
    · obtain ⟨rfl, follows⟩ := List.cons_prefix_cons.mp starts
      cases first with
      | nil =>
        rw [List.nil_append] at follows
        exact notSecond (List.cons_prefix_cons.mp follows).1.symm
      | cons y first =>
        rw [List.cons_append] at follows
        obtain ⟨rfl, -⟩ := List.cons_prefix_cons.mp follows
        exact left (List.prefix_append [a, b] first).isInfix
    · exact ih tail later

theorem prefix_join_iff {marker : List α} {joint : α} (apart : joint ∉ marker) (first rest : List α) :
    marker <+: first ++ joint :: rest ↔ marker <+: first := by
  refine ⟨fun starts => ?_, fun starts => starts.trans (List.prefix_append _ _)⟩
  apply List.prefix_of_prefix_length_le starts (List.prefix_append _ _)
  by_contra longer
  have inside : first ++ [joint] <+: marker := by
    apply List.prefix_of_prefix_length_le _ starts
    · rw [List.length_append, List.length_singleton]
      omega
    · exact ⟨rest, by rw [List.append_assoc, List.singleton_append]⟩
  exact apart (inside.subset (List.mem_append_right _ List.mem_cons_self))

section
variable [DecidableEq α]

/-- What follows the first occurrence of the marker. -/
def behind (marker : List α) : List α → Option (List α)
  | [] => if marker = [] then some [] else none
  | x :: rest => if marker.isPrefixOf (x :: rest) then some ((x :: rest).drop marker.length) else behind marker rest

theorem behind_suffix {marker text rest : List α} (found : behind marker text = some rest) : rest <:+ text := by
  induction text with
  | nil =>
    rw [behind] at found
    split at found
    · cases found
      exact List.suffix_refl []
    · cases found
  | cons x text ih =>
    rw [behind] at found
    split at found
    · cases found
      exact List.drop_suffix _ _
    · exact (ih found).trans (List.suffix_cons x text)

theorem behind_cons_of_ne {marker : List α} {x : α} (apart : marker.head? ≠ some x) (nonempty : marker ≠ []) (rest : List α) :
    behind marker (x :: rest) = behind marker rest := by
  cases marker with
  | nil => cases nonempty rfl
  | cons first marker =>
    have different : first ≠ x := by simpa using apart
    simp [behind, different]

/-- An element that the marker has not parts a text into two that are searched in turn. -/
theorem behind_join {marker : List α} {joint : α} (apart : joint ∉ marker) (nonempty : marker ≠ []) (first rest : List α) :
    behind marker (first ++ joint :: rest) = ((behind marker first).map (· ++ joint :: rest)).or (behind marker rest) := by
  induction first with
  | nil =>
    have different : marker.head? ≠ some joint := fun same => apart (List.mem_of_head? same)
    rw [List.nil_append, behind_cons_of_ne different nonempty, behind, if_neg nonempty]
    rfl
  | cons x first ih =>
    have same := prefix_join_iff apart (x :: first) rest
    rw [← List.isPrefixOf_iff_prefix, ← List.isPrefixOf_iff_prefix, List.cons_append] at same
    rw [List.cons_append, behind, behind]
    by_cases starts : marker.isPrefixOf (x :: first)
    · have within := (List.isPrefixOf_iff_prefix.mp starts).length_le
      have cut : (x :: first ++ joint :: rest).drop marker.length = (x :: first).drop marker.length ++ joint :: rest :=
        List.drop_append_of_le_length within
      rw [if_pos (same.mpr starts), if_pos starts, Option.map_some, Option.some_or, ← cut]
      rfl
    · rw [if_neg fun here => starts (same.mp here), if_neg starts, ih]

/-- The last element of the marker stands behind the first text for the first time. -/
theorem prefix_last_iff {marker first : List α} {last : α} (apart : last ∉ marker) (absent : last ∉ first) (rest : List α) :
    marker ++ [last] <+: first ++ last :: rest ↔ marker = first := by
  refine ⟨fun starts => ?_, fun same => ⟨rest, by rw [same, List.append_assoc, List.singleton_append]⟩⟩
  obtain ⟨tail, same⟩ := starts
  rw [List.append_assoc, List.singleton_append] at same
  have place := congrArg (List.idxOf last) same
  rw [idxOf_join apart, idxOf_join absent] at place
  exact (List.append_inj same place).1

theorem behind_last {marker first : List α} {last : α} (apart : last ∉ marker) (absent : last ∉ first) (rest : List α) :
    behind (marker ++ [last]) (first ++ last :: rest) =
      if marker.isSuffixOf first then some rest else behind (marker ++ [last]) rest := by
  induction first with
  | nil =>
    have same := prefix_last_iff apart absent rest
    rw [← List.isPrefixOf_iff_prefix, List.nil_append] at same
    rw [List.nil_append, behind]
    by_cases empty : marker = []
    · subst empty
      simp
    · rw [if_neg fun here => empty (same.mp here), if_neg]
      intro ends
      exact empty (List.suffix_nil.mp (List.isSuffixOf_iff_suffix.mp ends))
  | cons x first ih =>
    have same := prefix_last_iff apart absent rest
    rw [← List.isPrefixOf_iff_prefix, List.cons_append] at same
    have ends : marker.isSuffixOf (x :: first) ↔ marker = x :: first ∨ marker.isSuffixOf first := by
      rw [List.isSuffixOf_iff_suffix, List.isSuffixOf_iff_suffix, List.suffix_cons_iff]
    rw [List.cons_append, behind]
    by_cases here : marker = x :: first
    · rw [if_pos (same.mpr here), if_pos (ends.mpr (.inl here)), here, List.length_append, List.length_singleton]
      simp
    · rw [if_neg fun starts => here (same.mp starts), ih fun member => absent (List.mem_cons_of_mem _ member)]
      by_cases later : marker.isSuffixOf first
      · rw [if_pos later, if_pos (ends.mpr (.inr later))]
      · rw [if_neg later, if_neg fun both => (ends.mp both).elim here later]

end

end Search
