import Mathlib.Data.List.TakeWhile
import Mathlib.Logic.Function.Basic

/-! Regular expressions with groups, as backtracking tries them: the ways to match from a place, the
preferred first. Repetition is greedy. -/

universe u

inductive Regex (α : Type u) where
  | empty
  | one (negated : Bool) (items : List α)
  | start
  | finish
  | seq (first second : Regex α)
  | alt (first second : Regex α)
  | star (body : Regex α)
  | group (number : Nat) (body : Regex α)
deriving DecidableEq, Repr

namespace Regex

variable {α : Type u}

/-- A place in a sequence, and what the groups have captured on the way to it. -/
structure Place (α : Type u) where
  before : List α := []
  rest : List α
  captures : Nat → Option (List α) := fun _ => none

namespace Place

def advance (count : Nat) (place : Place α) : Place α :=
  { place with before := place.before ++ place.rest.take count, rest := place.rest.drop count }

def capture (number : Nat) (captured : List α) (place : Place α) : Place α :=
  { place with captures := Function.update place.captures number (some captured) }

def forget (numbers : List Nat) (place : Place α) : Place α :=
  { place with captures := fun number => if number ∈ numbers then none else place.captures number }

/-- Something was read on the way from one place to the other. -/
def Further (place next : Place α) : Prop := next.rest.length < place.rest.length

instance : DecidableRel (Further (α := α)) := fun _ _ => inferInstanceAs (Decidable (_ < _))

end Place

def char (item : α) : Regex α := .one false [item]

def plus (body : Regex α) : Regex α := .seq body (.star body)

def all (parts : List (Regex α)) : Regex α := parts.foldr .seq .empty

def numbers : Regex α → List Nat
  | .empty | .one _ _ | .start | .finish => []
  | .seq first second | .alt first second => first.numbers ++ second.numbers
  | .star body => body.numbers
  | .group number body => number :: body.numbers

/-- As often as possible first. Each round reads something. -/
def repeated (round : Place α → List (Place α)) : Nat → Place α → List (Place α)
  | 0, place => [place]
  | fuel + 1, place => ((round place).filter (place.Further ·)).flatMap (repeated round fuel) ++ [place]

variable [DecidableEq α]

def accepts (negated : Bool) (items : List α) (item : α) : Bool := decide (item ∈ items) != negated

def ways : Regex α → Place α → List (Place α)
  | .empty, place => [place]
  | .one negated items, place => if place.rest.head?.any (accepts negated items) then [place.advance 1] else []
  | .start, place => if place.before = [] then [place] else []
  | .finish, place => if place.rest = [] then [place] else []
  | .seq first second, place => (first.ways place).flatMap second.ways
  | .alt first second, place => first.ways place ++ second.ways place
  | .star body, place => repeated (fun place => body.ways (place.forget body.numbers)) place.rest.length place
  | .group number body, place =>
    (body.ways place).map fun after => after.capture number (after.before.drop place.before.length)

/-- The whole sequence is matched. -/
def fullMatch (regex : Regex α) (items : List α) : Option (Place α) :=
  (regex.ways { rest := items }).find? (·.rest = [])

/-- All matches exchanged from the left. At a place where nothing was matched, something is tried for
before the search goes on behind it. -/
def replaceFrom (regex : Regex α) (new : List α) : Nat → Place α → List α
  | 0, place => place.rest
  | fuel + 1, place =>
    let found := regex.ways { place with captures := fun _ => none }
    (if found.head?.any (fun next => ¬ place.Further next) then new else []) ++
      match found.find? (place.Further ·) with
      | some next => new ++ replaceFrom regex new fuel next
      | none => place.rest.take 1 ++ if place.rest = [] then [] else replaceFrom regex new fuel (place.advance 1)

def replaceAll (regex : Regex α) (new items : List α) : List α :=
  regex.replaceFrom new (items.length + 1) { rest := items }

section
variable {negated : Bool} {items : List α} {item : α} {before part rest : List α} {captures : Nat → Option (List α)}
  {place after : Place α}

theorem accepts_char {c item : α} : accepts false [c] item ↔ item = c := by simp [accepts]

theorem accepts_except {c item : α} : accepts true [c] item ↔ item ≠ c := by simp [accepts]

theorem ways_one (accepted : accepts negated items item) :
    (one negated items).ways ⟨before, item :: rest, captures⟩ = [⟨before ++ [item], rest, captures⟩] :=
  if_pos accepted

theorem ways_one_refused (refused : rest.head?.any (accepts negated items) = false) :
    (one negated items).ways ⟨before, rest, captures⟩ = [] :=
  if_neg (Bool.eq_false_iff.mp refused)

theorem ways_star (body : Regex α) (place : Place α) : body.star.ways place =
    repeated (fun place => body.ways (place.forget body.numbers)) place.rest.length place := rfl

theorem ways_finish (place : Place α) : finish.ways place = if place.rest = [] then [place] else [] := rfl

theorem ways_plus (body : Regex α) (place : Place α) :
    body.plus.ways place = (body.ways place).flatMap body.star.ways := rfl

theorem ways_group (number : Nat) (body : Regex α) (place : Place α) : (group number body).ways place =
    (body.ways place).map fun after => after.capture number (after.before.drop place.before.length) := rfl

/-- Nothing is captured by one item, so nothing is forgotten. -/
theorem round_one (place : Place α) :
    (one negated items).ways (place.forget (one negated items).numbers) = (one negated items).ways place := by
  simp [numbers, Place.forget]

theorem ways_star_one (accepted : accepts negated items item) :
    (star (one negated items)).ways ⟨before, item :: rest, captures⟩ =
      (star (one negated items)).ways ⟨before ++ [item], rest, captures⟩ ++ [⟨before, item :: rest, captures⟩] := by
  simp only [ways_star, round_one, List.length_cons, repeated, ways_one accepted]
  simp [Place.Further]

theorem ways_star_one_refused (refused : rest.head?.any (accepts negated items) = false) :
    (star (one negated items)).ways ⟨before, rest, captures⟩ = [⟨before, rest, captures⟩] := by
  cases rest with
  | nil => rfl
  | cons item rest => simp [ways_star, round_one, repeated, ways_one_refused refused]

/-- Any part that is accepted may be read. -/
theorem mem_star_one : after ∈ (star (one negated items)).ways place ↔ ∃ part rest, place.rest = part ++ rest ∧
    (∀ item ∈ part, accepts negated items item) ∧ after = ⟨place.before ++ part, rest, place.captures⟩ := by
  obtain ⟨before, rest, captures⟩ := place
  induction rest generalizing before with
  | nil =>
    rw [ways_star_one_refused rfl, List.mem_singleton]
    constructor
    · rintro rfl
      exact ⟨[], [], rfl, by simp, by simp⟩
    · rintro ⟨part, rest, cut, -, rfl⟩
      obtain ⟨rfl, rfl⟩ := List.append_eq_nil_iff.mp cut.symm
      simp
  | cons item rest ih =>
    by_cases accepted : accepts negated items item
    · rw [ways_star_one accepted, List.mem_append, ih, List.mem_singleton]
      constructor
      · rintro (⟨part, left, cut, all, rfl⟩ | rfl)
        · exact ⟨item :: part, left, by simpa using cut, by simpa using ⟨accepted, all⟩, by simp⟩
        · exact ⟨[], item :: rest, rfl, by simp, by simp⟩
      · rintro ⟨part, left, cut, all, rfl⟩
        cases part with
        | nil =>
          obtain rfl : item :: rest = left := cut
          exact .inr (by simp)
        | cons first part =>
          obtain ⟨rfl, cut'⟩ := List.cons.inj cut
          exact .inl ⟨part, left, cut', fun item member => all item (by simp [member]), by simp⟩
    · rw [ways_star_one_refused (by simpa using accepted), List.mem_singleton]
      constructor
      · rintro rfl
        exact ⟨[], item :: rest, rfl, by simp, by simp⟩
      · rintro ⟨part, left, cut, all, rfl⟩
        cases part with
        | nil =>
          obtain rfl : item :: rest = left := cut
          simp
        | cons first part =>
          obtain ⟨rfl, -⟩ := List.cons.inj cut
          exact absurd (all item (by simp)) accepted

theorem mem_plus_one : after ∈ (plus (one negated items)).ways place ↔ ∃ part rest, place.rest = part ++ rest ∧ part ≠ [] ∧
    (∀ item ∈ part, accepts negated items item) ∧ after = ⟨place.before ++ part, rest, place.captures⟩ := by
  obtain ⟨before, rest, captures⟩ := place
  rw [ways_plus, List.mem_flatMap]
  cases rest with
  | nil =>
    rw [ways_one_refused rfl]
    constructor
    · simp
    · rintro ⟨part, left, cut, nonempty, -⟩
      exact absurd (List.append_eq_nil_iff.mp cut.symm).1 nonempty
  | cons item rest =>
    by_cases accepted : accepts negated items item
    · simp only [ways_one accepted, List.mem_singleton, exists_eq_left, mem_star_one]
      constructor
      · rintro ⟨part, left, cut, all, rfl⟩
        exact ⟨item :: part, left, by simpa using cut, by simp, by simpa using ⟨accepted, all⟩, by simp⟩
      · rintro ⟨part, left, cut, nonempty, all, rfl⟩
        obtain ⟨first, part, rfl⟩ := List.exists_cons_of_ne_nil nonempty
        obtain ⟨rfl, cut'⟩ := List.cons.inj cut
        exact ⟨part, left, cut', fun item member => all item (by simp [member]), by simp⟩
    · rw [ways_one_refused (by simpa using accepted)]
      constructor
      · simp
      · rintro ⟨part, left, cut, nonempty, all, rfl⟩
        obtain ⟨first, part, rfl⟩ := List.exists_cons_of_ne_nil nonempty
        obtain ⟨rfl, -⟩ := List.cons.inj cut
        exact absurd (all item (by simp)) accepted

/-- The longest is preferred. -/
theorem head_star_one (accepted : ∀ item ∈ part, accepts negated items item)
    (refused : rest.head?.any (accepts negated items) = false) :
    ((star (one negated items)).ways ⟨before, part ++ rest, captures⟩).head? = some ⟨before ++ part, rest, captures⟩ := by
  induction part generalizing before with
  | nil => simp [ways_star_one_refused refused]
  | cons item part ih =>
    rw [List.cons_append, ways_star_one (accepted item (by simp)), List.head?_append,
      ih fun item member => accepted item (by simp [member])]
    simp

theorem head_plus_one (nonempty : part ≠ []) (accepted : ∀ item ∈ part, accepts negated items item)
    (refused : rest.head?.any (accepts negated items) = false) :
    ((plus (one negated items)).ways ⟨before, part ++ rest, captures⟩).head? = some ⟨before ++ part, rest, captures⟩ := by
  obtain ⟨item, part, rfl⟩ := List.exists_cons_of_ne_nil nonempty
  rw [ways_plus, List.cons_append, ways_one (accepted item (by simp)), List.flatMap_singleton,
    head_star_one (fun item member => accepted item (by simp [member])) refused]
  simp

theorem mem_group {number : Nat} {body : Regex α} : after ∈ (group number body).ways place ↔
    ∃ inner ∈ body.ways place, after = inner.capture number (inner.before.drop place.before.length) := by
  simp only [ways_group, List.mem_map, eq_comm]

theorem head_group (number : Nat) (body : Regex α) (place : Place α) : ((group number body).ways place).head? =
    (body.ways place).head?.map fun inner => inner.capture number (inner.before.drop place.before.length) := by
  rw [ways_group, List.head?_map]

theorem ways_all_cons (part : Regex α) (parts : List (Regex α)) (place : Place α) :
    (all (part :: parts)).ways place = (part.ways place).flatMap (all parts).ways := rfl

theorem ways_all_singleton (part : Regex α) (place : Place α) : (all [part]).ways place = part.ways place := by
  rw [ways_all_cons]
  exact List.flatMap_singleton' _

theorem ways_all_append (first second : List (Regex α)) (place : Place α) :
    (all (first ++ second)).ways place = ((all first).ways place).flatMap (all second).ways := by
  induction first generalizing place with
  | nil => exact (List.flatMap_singleton _ place).symm
  | cons part first ih =>
    rw [List.cons_append, ways_all_cons, ways_all_cons, List.flatMap_assoc]
    exact congrArg (List.flatMap · _) (funext ih)

/-- A word is matched by itself. -/
theorem ways_word (word : List α) (parts : List (Regex α)) :
    (all (word.map char ++ parts)).ways ⟨before, word ++ rest, captures⟩ =
      (all parts).ways ⟨before ++ word, rest, captures⟩ := by
  induction word generalizing before with
  | nil => simp
  | cons item word ih =>
    rw [List.map_cons, List.cons_append, ways_all_cons, List.cons_append, char, ways_one (accepts_char.mpr rfl),
      List.flatMap_singleton, ih, List.append_assoc, List.singleton_append]

theorem ways_word_refused {word : List α} (parts : List (Regex α)) (refused : ¬ word <+: rest) :
    (all (word.map char ++ parts)).ways ⟨before, rest, captures⟩ = [] := by
  induction word generalizing before rest with
  | nil => exact absurd List.nil_prefix refused
  | cons item word ih =>
    rw [List.map_cons, List.cons_append, ways_all_cons, char]
    cases rest with
    | nil => rw [ways_one_refused rfl, List.flatMap_nil]
    | cons first rest =>
      by_cases same : first = item
      · subst same
        rw [List.prefix_cons_inj] at refused
        rw [ways_one (accepts_char.mpr rfl), List.flatMap_singleton, ih refused]
      · rw [ways_one_refused (by simpa [accepts] using same), List.flatMap_nil]

theorem mem_word {word : List α} {parts : List (Regex α)} : after ∈ (all (word.map char ++ parts)).ways place ↔
    ∃ rest, place.rest = word ++ rest ∧ after ∈ (all parts).ways ⟨place.before ++ word, rest, place.captures⟩ := by
  obtain ⟨before, rest, captures⟩ := place
  by_cases refused : word <+: rest
  · obtain ⟨left, rfl⟩ := refused
    simp [ways_word]
  · rw [ways_word_refused parts refused]
    constructor
    · simp
    · rintro ⟨left, cut, -⟩
      exact absurd ⟨left, cut.symm⟩ refused

theorem replaceFrom_next {regex : Regex α} {new : List α} {fuel : Nat}
    (missed : regex.ways ⟨before, item :: rest, fun _ => none⟩ = []) :
    regex.replaceFrom new (fuel + 1) ⟨before, item :: rest, captures⟩ =
      item :: regex.replaceFrom new fuel ⟨before ++ [item], rest, captures⟩ := by
  simp [replaceFrom, missed, Place.advance]

theorem replaceFrom_match {regex : Regex α} {new : List α} {fuel : Nat} {next : Place α}
    (found : (regex.ways { place with captures := fun _ => none }).head? = some next) (further : place.Further next) :
    regex.replaceFrom new (fuel + 1) place = new ++ regex.replaceFrom new fuel next := by
  obtain ⟨others, listed⟩ := List.head?_eq_some_iff.mp found
  simp [replaceFrom, listed, further]

end

end Regex
