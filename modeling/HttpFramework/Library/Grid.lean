import Mathlib

/-! Rows of cells, indexed by pairs of integers. An index outside the grid has no cell, so a
computation that succeeds has indexed inside only. -/

namespace Grid

universe u

variable {α : Type u}

def get? (grid : List (List α)) (place : Int × Int) : Option α :=
  if place.1 < 0 ∨ place.2 < 0 then none else grid[place.1.toNat]?.bind fun row => row[place.2.toNat]?

def set? (grid : List (List α)) (place : Int × Int) (value : α) : Option (List (List α)) :=
  (get? grid place).map fun _ => grid.modify place.1.toNat fun row => row.set place.2.toNat value

def places (rows columns : Nat) : List (Int × Int) :=
  ((List.range rows).product (List.range columns)).map fun place => (place.1, place.2)

structure Shape (rows columns : Nat) (grid : List (List α)) : Prop where
  rows : grid.length = rows
  columns : ∀ row ∈ grid, row.length = columns

def Inside (rows columns : Nat) (place : Int × Int) : Prop :=
  0 ≤ place.1 ∧ place.1 < rows ∧ 0 ≤ place.2 ∧ place.2 < columns

instance {rows columns : Nat} {place : Int × Int} : Decidable (Inside rows columns place) :=
  inferInstanceAs (Decidable (_ ∧ _ ∧ _ ∧ _))

variable {grid changed : List (List α)} {place other : Int × Int} {value old : α} {rows columns : Nat}

theorem mem_places : place ∈ places rows columns ↔ Inside rows columns place := by
  simp only [places, List.mem_map, Prod.exists, List.pair_mem_product, List.mem_range, Inside]
  constructor
  · rintro ⟨row, column, inside, rfl⟩
    simp only
    omega
  · intro inside
    refine ⟨place.1.toNat, place.2.toNat, by omega, ?_⟩
    apply Prod.ext <;> simp only <;> omega

theorem nodup_places : (places rows columns).Nodup := by
  apply List.Nodup.map _ (List.Nodup.product List.nodup_range List.nodup_range)
  intro first second same
  simp only [Prod.mk.injEq, Int.natCast_inj] at same
  exact Prod.ext same.1 same.2

/-- Row by row. -/
def Before (place other : Int × Int) : Prop := place.1 < other.1 ∨ place.1 = other.1 ∧ place.2 < other.2

theorem places_sorted (rows columns : Nat) : (places rows columns).Pairwise Before := by
  have product : ((List.range rows).product (List.range columns)).Pairwise fun place other =>
      place.1 < other.1 ∨ place.1 = other.1 ∧ place.2 < other.2 := by
    rw [List.product, List.pairwise_flatMap]
    constructor
    · intro row _
      rw [List.pairwise_map]
      exact List.pairwise_lt_range.imp fun less => .inr ⟨rfl, less⟩
    · apply List.pairwise_lt_range.imp
      intro row later less place member other member'
      obtain ⟨_, _, rfl⟩ := List.mem_map.mp member
      obtain ⟨_, _, rfl⟩ := List.mem_map.mp member'
      exact .inl less
  rw [places, List.pairwise_map]
  apply product.imp
  intro place other ordered
  simp only [Before]
  omega

/-- Where the places are cut at one of them, those before it come first. -/
theorem mem_of_before {done rest : List (Int × Int)} (cut : places rows columns = done ++ place :: rest)
    (inside : Inside rows columns other) (before : Before other place) : other ∈ done := by
  have sorted := places_sorted rows columns
  rw [cut, List.pairwise_append] at sorted
  rw [← mem_places, cut] at inside
  rcases List.mem_append.mp inside with found | later
  · exact found
  · exfalso
    simp only [Before] at before
    rcases List.mem_cons.mp later with rfl | after
    · omega
    · have ordered := (List.pairwise_cons.mp sorted.2.1).1 other after
      simp only [Before] at ordered
      omega

theorem replicate_shape (rows columns : Nat) (value : α) :
    Shape rows columns (List.replicate rows (List.replicate columns value)) where
  rows := List.length_replicate
  columns row member := by rw [(List.mem_replicate.mp member).2, List.length_replicate]

theorem get?_of_inside (shape : Shape rows columns grid) (inside : Inside rows columns place) :
    ∃ value, get? grid place = some value := by
  obtain ⟨top, bottom, left, right⟩ := inside
  have row : place.1.toNat < grid.length := by
    rw [shape.rows]
    omega
  have column : place.2.toNat < grid[place.1.toNat].length := by
    rw [shape.columns _ (List.getElem_mem row)]
    omega
  refine ⟨grid[place.1.toNat][place.2.toNat], ?_⟩
  rw [get?, if_neg (by omega)]
  simp [row, column]

theorem get?_eq_some_iff : get? grid place = some value ↔
    0 ≤ place.1 ∧ 0 ≤ place.2 ∧ ∃ row, grid[place.1.toNat]? = some row ∧ row[place.2.toNat]? = some value := by
  rw [get?]
  split
  next outside => simp; omega
  next inside =>
    simp only [Option.bind_eq_some_iff]
    exact ⟨fun found => ⟨by omega, by omega, found⟩, fun found => found.2.2⟩

theorem inside_of_get? (shape : Shape rows columns grid) (found : get? grid place = some value) :
    Inside rows columns place := by
  rw [get?_eq_some_iff] at found
  obtain ⟨top, left, row, here, there⟩ := found
  obtain ⟨bottom, rfl⟩ := List.getElem?_eq_some_iff.mp here
  obtain ⟨right, _⟩ := List.getElem?_eq_some_iff.mp there
  rw [shape.columns _ (List.getElem_mem bottom)] at right
  rw [shape.rows] at bottom
  exact ⟨top, by omega, left, by omega⟩

theorem set?_of_get? (found : get? grid place = some old) (value : α) : ∃ changed, set? grid place value = some changed := by
  rw [set?, found]
  exact ⟨_, rfl⟩

theorem set?_eq_some_iff : set? grid place value = some changed ↔
    (∃ old, get? grid place = some old) ∧
      changed = grid.modify place.1.toNat fun row => row.set place.2.toNat value := by
  rw [set?]
  cases get? grid place with
  | none => simp
  | some old => simp [eq_comm]

theorem get?_set? (done : set? grid place value = some changed) (other : Int × Int) :
    get? changed other = if other = place then some value else get? grid other := by
  rw [set?_eq_some_iff] at done
  obtain ⟨⟨old, found⟩, rfl⟩ := done
  rw [get?_eq_some_iff] at found
  obtain ⟨top, left, row, here, there⟩ := found
  have column : place.2.toNat < row.length := (List.getElem?_eq_some_iff.mp there).1
  rw [get?, get?]
  by_cases outside : other.1 < 0 ∨ other.2 < 0
  · rw [if_pos outside, if_pos outside, if_neg]
    rintro rfl
    omega
  · rw [if_neg outside, if_neg outside, List.getElem?_modify]
    by_cases same : other = place
    · subst same
      simp [here, column]
    · rw [if_neg same]
      by_cases row : place.1.toNat = other.1.toNat
      · have apart : place.2.toNat ≠ other.2.toNat := fun column => same (Prod.ext (by omega) (by omega))
        rw [← row, here]
        simp [apart]
      · simp [row]

theorem get?_set?_self (done : set? grid place value = some changed) : get? changed place = some value := by
  rw [get?_set? done, if_pos rfl]

theorem Shape.set? (shape : Shape rows columns grid) (done : set? grid place value = some changed) :
    Shape rows columns changed := by
  rw [set?_eq_some_iff] at done
  obtain ⟨_, rfl⟩ := done
  refine ⟨(List.length_modify _ _ _).trans shape.rows, ?_⟩
  intro row member
  obtain ⟨index, bound, rfl⟩ := List.mem_iff_getElem.mp member
  rw [List.getElem_modify]
  split
  next => rw [List.length_set, shape.columns _ (List.getElem_mem _)]
  next => exact shape.columns _ (List.getElem_mem _)

theorem set?_set? (done : set? grid place value = some changed) (next : α) :
    set? changed place next = set? grid place next := by
  have self := get?_set?_self done
  rw [set?_eq_some_iff] at done
  obtain ⟨⟨old, found⟩, rfl⟩ := done
  rw [set?, set?, self, found]
  simp [List.modify_modify_eq, Function.comp_def]

theorem set?_get? (found : get? grid place = some value) : set? grid place value = some grid := by
  have inner := found
  rw [get?_eq_some_iff] at inner
  obtain ⟨top, left, row, here, there⟩ := inner
  obtain ⟨bottom, rfl⟩ := List.getElem?_eq_some_iff.mp here
  obtain ⟨right, rfl⟩ := List.getElem?_eq_some_iff.mp there
  rw [set?, found, Option.map_some, Option.some_inj, List.modify_eq_take_cons_drop bottom, List.set_getElem_self,
    ← List.drop_eq_getElem_cons, List.take_append_drop]

def count (property : α → Bool) (grid : List (List α)) : Nat := grid.flatten.countP property

theorem countP_set_add {property : α → Bool} {items : List α} {index : Nat} (bound : index < items.length) (value : α) :
    (items.set index value).countP property + (if property items[index] then 1 else 0) =
      items.countP property + (if property value then 1 else 0) := by
  have counted : (if property items[index] then 1 else 0) ≤ items.countP property := by
    split
    next holds => exact List.countP_pos_iff.mpr ⟨_, List.getElem_mem bound, holds⟩
    next => exact Nat.zero_le _
  rw [List.countP_set bound]
  omega

/-- The count of the one row that changes decides. -/
theorem count_set?_add {property : α → Bool} (found : get? grid place = some old)
    (done : set? grid place value = some changed) :
    count property changed + (if property old then 1 else 0) = count property grid + (if property value then 1 else 0) := by
  rw [set?_eq_some_iff] at done
  obtain ⟨_, rfl⟩ := done
  rw [get?_eq_some_iff] at found
  obtain ⟨top, left, row, here, there⟩ := found
  obtain ⟨bottom, rfl⟩ := List.getElem?_eq_some_iff.mp here
  obtain ⟨right, rfl⟩ := List.getElem?_eq_some_iff.mp there
  have split : grid = grid.take place.1.toNat ++ grid[place.1.toNat] :: grid.drop (place.1.toNat + 1) := by
    rw [← List.drop_eq_getElem_cons, List.take_append_drop]
  have row := @countP_set_add _ property _ _ right value
  rw [List.modify_eq_take_cons_drop bottom]
  conv => rhs; rw [split]
  simp only [count, List.flatten_append, List.flatten_cons, List.countP_append]
  omega

theorem count_set? {property : α → Bool} (found : get? grid place = some old) (done : set? grid place value = some changed)
    (before : property old = false) (after : property value = true) :
    count property changed = count property grid + 1 := by
  simpa [before, after] using @count_set?_add _ _ _ _ _ _ property found done

theorem exists_of_count_lt {property : α → Bool} (shape : Shape rows columns grid) (less : count property grid < rows * columns) :
    ∃ place value, get? grid place = some value ∧ property value = false := by
  have size : grid.flatten.length = rows * columns := by
    rw [List.length_flatten, List.sum_eq_card_nsmul _ columns, List.length_map, shape.rows, smul_eq_mul]
    intro length member
    obtain ⟨row, there, rfl⟩ := List.mem_map.mp member
    exact shape.columns row there
  rw [← size] at less
  obtain ⟨value, member, without⟩ := List.countP_lt_length_iff.mp less
  obtain ⟨row, there, inside⟩ := List.mem_flatten.mp member
  obtain ⟨r, bottom, rfl⟩ := List.getElem_of_mem there
  obtain ⟨c, right, rfl⟩ := List.getElem_of_mem inside
  refine ⟨(r, c), grid[r][c], ?_, without⟩
  rw [get?_eq_some_iff]
  simp [bottom, right]

/-- The cells in which two grids differ, row by row. -/
def differences [DecidableEq α] (rows columns : Nat) (before after : List (List α)) : List (Int × Int) :=
  (places rows columns).filter fun place => get? before place ≠ get? after place

theorem differences_self [DecidableEq α] : differences rows columns grid grid = [] := by
  simp [differences]

theorem differences_set? [DecidableEq α] (shape : Shape rows columns grid) (found : get? grid place = some old)
    (different : old ≠ value) (done : set? grid place value = some changed) :
    differences rows columns grid changed = [place] := by
  have only : ∀ other ∈ places rows columns,
      decide (get? grid other ≠ get? changed other) = decide (other = place) := by
    intro other _
    rw [get?_set? done]
    by_cases same : other = place
    · simp [same, found, different]
    · simp [same]
  have inside := inside_of_get? shape found
  rw [← mem_places] at inside
  rw [differences, List.filter_congr only, List.filter_eq, List.count_eq_one_of_mem nodup_places inside]
  rfl

end Grid
