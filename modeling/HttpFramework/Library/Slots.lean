import Mathlib.Data.List.Perm.Basic

/-! What the items of a list hold. When one item is replaced, what it held is exchanged for what
the new one holds, and a thing that is held once is held in one place. -/

namespace Slots

universe u v

variable {α : Type u} {β : Type v} {f : α → Option β} {items : List α} {place other : Nat} {item item' : α}

theorem filterMap_set_perm (f : α → Option β) (new : α) (there : items[place]? = some item) :
    ((items.set place new).filterMap f ++ (f item).toList).Perm (items.filterMap f ++ (f new).toList) := by
  induction items generalizing place with
  | nil => cases there
  | cons first rest ih =>
    cases place with
    | zero =>
      obtain rfl : first = item := by simpa using there
      have contribution : ∀ item : α, (item :: rest).filterMap f = (f item).toList ++ rest.filterMap f := by
        intro item
        cases value : f item <;> simp [value]
      rw [List.set_cons_zero, contribution, contribution]
      calc (((f new).toList ++ rest.filterMap f) ++ (f first).toList).Perm
              ((f first).toList ++ ((f new).toList ++ rest.filterMap f)) := List.perm_append_comm
        _ |>.Perm ((f first).toList ++ (rest.filterMap f ++ (f new).toList)) := List.perm_append_comm.append_left _
        _ = (f first).toList ++ rest.filterMap f ++ (f new).toList := (List.append_assoc _ _ _).symm
    | succ place =>
      have moved := ih there
      cases front : f first with
      | none => simpa [front] using moved
      | some value => simpa [front] using moved

/-- The same where an item holds any number of things. -/
theorem flatMap_set_perm (g : α → List β) (new : α) (there : items[place]? = some item) :
    ((items.set place new).flatMap g ++ g item).Perm (items.flatMap g ++ g new) := by
  induction items generalizing place with
  | nil => cases there
  | cons first rest ih =>
    cases place with
    | zero =>
      obtain rfl : first = item := by simpa using there
      rw [List.set_cons_zero, List.flatMap_cons, List.flatMap_cons]
      calc ((g new ++ rest.flatMap g) ++ g first).Perm (g first ++ (g new ++ rest.flatMap g)) := List.perm_append_comm
        _ |>.Perm (g first ++ (rest.flatMap g ++ g new)) := List.perm_append_comm.append_left _
        _ = (g first ++ rest.flatMap g) ++ g new := (List.append_assoc _ _ _).symm
    | succ place =>
      rw [List.set_cons_succ, List.flatMap_cons, List.flatMap_cons, List.append_assoc, List.append_assoc]
      exact (ih there).append_left _

theorem place_unique {value : β} (distinct : (items.filterMap f).Nodup) (there : items[place]? = some item)
    (there' : items[other]? = some item') (has : f item = some value) (has' : f item' = some value) : place = other := by
  induction items generalizing place other with
  | nil => cases there
  | cons first rest ih =>
    -- The value of the first item is not among those of the rest.
    have absent : ∀ {later : Nat} {item' : α}, rest[later]? = some item' → f first = some value → f item' ≠ some value := by
      intro later item' there' front back
      rw [List.filterMap_cons_some front, List.nodup_cons] at distinct
      exact distinct.1 (List.mem_filterMap.mpr ⟨item', List.mem_of_getElem? there', back⟩)
    have distinct' : (rest.filterMap f).Nodup := by
      cases front : f first with
      | none => rwa [List.filterMap_cons_none front] at distinct
      | some value =>
        rw [List.filterMap_cons_some front] at distinct
        exact distinct.of_cons
    cases place with
    | zero =>
      obtain rfl : first = item := by simpa using there
      cases other with
      | zero => rfl
      | succ other => exact absurd has' (absent there' has)
    | succ place =>
      cases other with
      | zero =>
        obtain rfl : first = item' := by simpa using there'
        exact absurd has (absent there has')
      | succ other => rw [ih distinct' there there']

end Slots
