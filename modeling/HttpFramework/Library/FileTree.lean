import Mathlib

/-! A tree of directories and files with permissions, and walks through it. A place is
the list of the names from the root. Walking a path changes nothing, and a write or a
removal touches the node at one place only. -/

namespace FileTree

universe u v

inductive Component (ν : Type u) where
  | here
  | up
  | child (name : ν)

inductive Node (φ : Type v) where
  | directory (search write : Bool)
  | file (read write : Bool) (data : φ)

inductive Failure where
  | missing | notDirectory | denied | isDirectory | notEmpty
deriving DecidableEq, Repr

def Component.apply {ν : Type u} (place : List ν) : Component ν → List ν
  | .here => place
  | .up => place.dropLast
  | .child name => place ++ [name]

/-- Where a path leads from a place, whatever stands there. -/
def resolve {ν : Type u} (place : List ν) (path : List (Component ν)) : List ν := path.foldl Component.apply place

/-- One piece more at the end of a path that goes up a number of directories and then down
along names. -/
def Component.compose {ν : Type u} (reached : Nat × List ν) : Component ν → Nat × List ν
  | .here => reached
  | .up => if reached.2.isEmpty then (reached.1 + 1, reached.2) else (reached.1, reached.2.dropLast)
  | .child name => (reached.1, reached.2 ++ [name])

/-- A path by itself: how many directories it goes up at first, and the names it then goes
down along. -/
def normal {ν : Type u} (path : List (Component ν)) : Nat × List ν := path.foldl Component.compose (0, [])

abbrev Tree (ν : Type u) (φ : Type v) [Ord ν] := Std.ExtTreeMap (List ν) (Node φ) compare

section
variable {ν : Type u} {φ : Type v} [Ord ν] [Std.TransOrd ν]

namespace Tree

/-- Every piece is looked up in a directory that may be searched. What the last piece
leads to need not exist. -/
def walk (tree : Tree ν φ) : List ν → List (Component ν) → Except Failure (List ν)
  | place, [] => .ok place
  | place, component :: rest =>
    match tree[place]? with
    | none => .error .missing
    | some (.file _ _ _) => .error .notDirectory
    | some (.directory search _) => if search then walk tree (component.apply place) rest else .error .denied

/-- Names may be added to and removed from the directory around a place. -/
def parentWritable (tree : Tree ν φ) (place : List ν) : Bool :=
  match tree[place.dropLast]? with
  | some (.directory _ write) => write
  | _ => false

/-- What a file is opened with for writing: a file that is there keeps its permissions. -/
def put (tree : Tree ν φ) (place : List ν) (data : Option φ → φ) : Except Failure (Tree ν φ) :=
  match tree[place]? with
  | some (.directory _ _) => .error .isDirectory
  | some (.file read write old) =>
    if write then .ok (tree.insert place (.file read write (data (some old)))) else .error .denied
  | none =>
    if tree.parentWritable place then .ok (tree.insert place (.file true true (data none))) else .error .denied

def hasChildren (tree : Tree ν φ) (place : List ν) [DecidableEq ν] : Bool :=
  tree.keys.any fun other => other ≠ [] ∧ other.dropLast = place

/-- A file, or a directory with nothing in it. -/
def remove (tree : Tree ν φ) (place : List ν) [DecidableEq ν] : Except Failure (Tree ν φ) :=
  match tree[place]? with
  | none => .error .missing
  | some (.directory _ _) =>
    if tree.hasChildren place then .error .notEmpty
    else if tree.parentWritable place then .ok (tree.erase place) else .error .denied
  | some (.file _ _ _) => if tree.parentWritable place then .ok (tree.erase place) else .error .denied

/-- The directories on a path that are missing are made one after the other. The tree is
returned with those that were made before a failure. -/
def makeDirectories : Tree ν φ → List ν → List (Component ν) → Option Failure × Tree ν φ
  | tree, _, [] => (none, tree)
  | tree, place, component :: rest =>
    match tree[place]? with
    | none => (some .missing, tree)
    | some (.file _ _ _) => (some .notDirectory, tree)
    | some (.directory search write) =>
      if search then
        if tree[component.apply place]?.isNone then
          if write then
            makeDirectories (tree.insert (component.apply place) (.directory true true)) (component.apply place) rest
          else
            (some .denied, tree)
        else
          makeDirectories tree (component.apply place) rest
      else
        (some .denied, tree)

end Tree
end

theorem resolve_append {ν : Type u} (place : List ν) (first second : List (Component ν)) :
    resolve place (first ++ second) = resolve (resolve place first) second := List.foldl_append

theorem resolve_eq_normal {ν : Type u} (place : List ν) (path : List (Component ν)) :
    resolve place path = place.take (place.length - (normal path).1) ++ (normal path).2 := by
  induction path using List.reverseRecOn with
  | nil => simp [resolve, normal]
  | append_singleton path component ih =>
    have before : resolve place (path ++ [component]) = component.apply (resolve place path) := by
      simp [resolve]
    rw [before, ih]
    simp only [normal, List.foldl_append, List.foldl_cons, List.foldl_nil]
    generalize path.foldl _ (0, []) = reached
    obtain ⟨ups, names⟩ := reached
    cases component with
    | here => rfl
    | up =>
      cases names using List.reverseRecOn with
      | nil =>
        simp only [Component.apply, Component.compose, List.append_nil, List.isEmpty_nil, if_true, Nat.sub_add_eq]
        rw [List.dropLast_eq_take, List.take_take, List.length_take]
        congr 1
        omega
      | append_singleton names name => simp [Component.apply, Component.compose, ← List.append_assoc]
    | child name => simp [Component.apply, Component.compose]

/-- A path from one directory leads into the directory of a given name beside it when it
does not go up at all and the two are the same, or when it comes down to it again along the
names it went up. -/
theorem prefix_resolve_iff {ν : Type u} (around : List ν) (own name : ν) (path : List (Component ν)) :
    around ++ [name] <+: resolve (around ++ [own]) path ↔
      (normal path).1 = 0 ∧ name = own ∨
      0 < (normal path).1 ∧ around.drop (around.length + 1 - (normal path).1) ++ [name] <+: (normal path).2 := by
  rw [resolve_eq_normal]
  generalize normal path = reached
  obtain ⟨ups, names⟩ := reached
  simp only [List.length_append, List.length_singleton]
  rcases Nat.eq_zero_or_pos ups with rfl | climbs
  · rw [Nat.sub_zero, List.take_of_length_le (by simp), List.append_assoc, List.prefix_append_right_inj]
    simp [List.cons_prefix_cons]
  · have short : around.length + 1 - ups ≤ around.length := by omega
    have cut : around ++ [name] = around.take (around.length + 1 - ups) ++
        (around.drop (around.length + 1 - ups) ++ [name]) := by
      rw [← List.append_assoc, List.take_append_drop]
    rw [List.take_append_of_le_length short, cut, List.prefix_append_right_inj]
    simp [climbs, Nat.ne_of_gt climbs]

section
variable {ν : Type u} {φ : Type v} [Ord ν] [Std.TransOrd ν] {tree changed : Tree ν φ} {place : List ν}

namespace Tree

/-- Every directory of a tree is in the other with the same permissions. -/
def Extends (tree changed : Tree ν φ) : Prop :=
  ∀ (place : List ν) (search write : Bool), tree[place]? = some (.directory search write) →
    changed[place]? = some (.directory search write)

/-- The walk enters directories only, so a tree in which they are all still there is walked
in the same way. -/
theorem Extends.walk (extends' : tree.Extends changed) {path : List (Component ν)} {target : List ν}
    (walked : tree.walk place path = .ok target) : changed.walk place path = .ok target := by
  induction path generalizing place with
  | nil => exact walked
  | cons component rest ih =>
    rw [Tree.walk] at walked ⊢
    split at walked
    next => cases walked
    next => cases walked
    next search write found =>
      rw [extends' _ _ _ found]
      split at walked
      next searchable => simpa only [searchable, if_true] using ih walked
      next => cases walked

theorem parentWritable_iff : tree.parentWritable place = true ↔ ∃ search, tree[place.dropLast]? = some (.directory search true) := by
  rw [parentWritable]
  split
  next search write found => simp [found]
  next other => simpa using fun search found => other search true found

/-- Directories that stay allow the same names to be added. -/
theorem Extends.parentWritable (extends' : tree.Extends changed) (writable : tree.parentWritable place = true) :
    changed.parentWritable place = true := by
  obtain ⟨search, found⟩ := parentWritable_iff.mp writable
  exact parentWritable_iff.mpr ⟨search, extends' _ _ _ found⟩

theorem walk_eq_resolve {path : List (Component ν)} {target : List ν} (walked : tree.walk place path = .ok target) :
    target = resolve place path := by
  induction path generalizing place with
  | nil => cases walked; rfl
  | cons component rest ih =>
    rw [Tree.walk] at walked
    split at walked
    next => cases walked
    next => cases walked
    next =>
      split at walked
      next => exact ih walked
      next => cases walked

/-- Everything that a write can do. -/
theorem put_cases {data : Option φ → φ} (done : tree.put place data = .ok changed) :
    (∃ read old, tree[place]? = some (.file read true old) ∧
      changed = tree.insert place (.file read true (data (some old)))) ∨
    (tree[place]? = none ∧ tree.parentWritable place ∧
      changed = tree.insert place (.file true true (data none))) := by
  rw [put] at done
  split at done
  next => cases done
  next read write old found =>
    split at done
    next writable => cases done; cases writable; exact .inl ⟨read, old, found, rfl⟩
    next => cases done
  next missing =>
    split at done
    next writable => cases done; exact .inr ⟨missing, writable, rfl⟩
    next => cases done

section
variable [Std.LawfulEqOrd ν]

@[simp] theorem getElem?_insert_of_ne {other : List ν} {node : Node φ} (different : place ≠ other) :
    (tree.insert place node)[other]? = tree[other]? := by
  rw [Std.ExtTreeMap.getElem?_insert, if_neg]
  exact fun same => different (Std.LawfulEqCmp.eq_of_compare same)

@[simp] theorem getElem?_erase_of_ne {other : List ν} (different : place ≠ other) :
    (tree.erase place)[other]? = tree[other]? := by
  rw [Std.ExtTreeMap.getElem?_erase, if_neg]
  exact fun same => different (Std.LawfulEqCmp.eq_of_compare same)

theorem put_spec {data : Option φ → φ} (done : tree.put place data = .ok changed) :
    (∃ read stored, changed[place]? = some (.file read true stored)) ∧
      ∀ other, place ≠ other → changed[other]? = tree[other]? := by
  rcases put_cases done with ⟨read, old, _, rfl⟩ | ⟨_, _, rfl⟩
  · exact ⟨⟨read, _, Std.ExtTreeMap.getElem?_insert_self⟩, fun other different => getElem?_insert_of_ne different⟩
  · exact ⟨⟨true, _, Std.ExtTreeMap.getElem?_insert_self⟩, fun other different => getElem?_insert_of_ne different⟩

theorem put_extends {data : Option φ → φ} (done : tree.put place data = .ok changed) : tree.Extends changed := by
  intro other search write found
  have different : place ≠ other := by
    rintro rfl
    rcases put_cases done with ⟨_, _, file, _⟩ | ⟨missing, _, _⟩
    · cases file.symm.trans found
    · cases missing.symm.trans found
  rw [(put_spec done).2 other different]
  exact found

/-- A write makes no directory either. -/
theorem extends_put {data : Option φ → φ} (done : tree.put place data = .ok changed) : changed.Extends tree := by
  intro other search write found
  have different : place ≠ other := by
    rintro rfl
    obtain ⟨⟨read, stored, file⟩, _⟩ := put_spec done
    cases file.symm.trans found
  rw [← (put_spec done).2 other different]
  exact found

theorem makeDirectories_spec (tree : Tree ν φ) (place : List ν) (path : List (Component ν)) (other : List ν) :
    (tree.makeDirectories place path).2[other]? = tree[other]? ∨
      tree[other]? = none ∧ (tree.makeDirectories place path).2[other]? = some (.directory true true) ∧
        ∃ front, front <+: path ∧ other = resolve place front := by
  induction path generalizing tree place with
  | nil => exact .inl rfl
  | cons component rest ih =>
    have further {front : List (Component ν)} (within : front <+: rest) :
        component :: front <+: component :: rest := List.cons_prefix_cons.mpr ⟨rfl, within⟩
    rw [makeDirectories]
    split
    next => exact .inl rfl
    next => exact .inl rfl
    next search write found =>
      split
      next =>
        split
        next absent =>
          split
          next =>
            have missing : tree[component.apply place]? = none := Option.isNone_iff_eq_none.mp absent
            by_cases same : component.apply place = other
            · subst same
              have made : (tree.insert (component.apply place) (.directory true true))[component.apply place]? =
                  some (.directory true true) := Std.ExtTreeMap.getElem?_insert_self
              refine .inr ⟨missing, ?_, [component], further List.nil_prefix, rfl⟩
              rcases ih (tree.insert (component.apply place) (.directory true true)) (component.apply place) with
                kept | ⟨none, _⟩
              · exact kept.trans made
              · cases none.symm.trans made
            · rcases ih (tree.insert (component.apply place) (.directory true true)) (component.apply place) with
                kept | ⟨none, added, front, within, there⟩
              · exact .inl (kept.trans (getElem?_insert_of_ne same))
              · exact .inr ⟨(getElem?_insert_of_ne same).symm.trans none, added, _, further within, there⟩
          next => exact .inl rfl
        next =>
          rcases ih tree (component.apply place) with kept | ⟨none, added, front, within, there⟩
          · exact .inl kept
          · exact .inr ⟨none, added, _, further within, there⟩
      next => exact .inl rfl

theorem makeDirectories_extends (tree : Tree ν φ) (place : List ν) (path : List (Component ν)) :
    tree.Extends (tree.makeDirectories place path).2 := by
  intro other search write found
  rcases makeDirectories_spec tree place path other with kept | ⟨missing, _⟩
  · exact kept.trans found
  · cases missing.symm.trans found

/-- Where nothing is missing any more, the path can be walked. -/
theorem makeDirectories_walk {path : List (Component ν)} (made : (tree.makeDirectories place path).1 = none) :
    ∃ target, (tree.makeDirectories place path).2.walk place path = .ok target := by
  induction path generalizing tree place with
  | nil => exact ⟨place, rfl⟩
  | cons component rest ih =>
    rw [makeDirectories] at made ⊢
    cases found : tree[place]? with
    | none => simp [found] at made
    | some node =>
      cases node with
      | file _ _ _ => simp [found] at made
      | directory search write =>
        cases search with
        | false => simp [found] at made
        | true =>
          cases missing : tree[component.apply place]? with
          | some other =>
            simp only [found, missing, if_true, Option.isNone_some, Bool.false_eq_true, if_false] at made ⊢
            obtain ⟨target, walked⟩ := ih made
            have stays := makeDirectories_extends tree (component.apply place) rest place true write found
            exact ⟨target, by simp [walk, stays, walked]⟩
          | none =>
            cases write with
            | false => simp [found, missing] at made
            | true =>
              simp only [found, missing, if_true, Option.isNone_none] at made ⊢
              obtain ⟨target, walked⟩ := ih made
              have different : component.apply place ≠ place := by
                intro same
                rw [same, found] at missing
                cases missing
              have stays := makeDirectories_extends (tree.insert (component.apply place) (.directory true true))
                (component.apply place) rest place true true ((getElem?_insert_of_ne different).trans found)
              exact ⟨target, by simp [walk, stays, walked]⟩

/-- A removal takes one node away, and a directory only when nothing stands in it. -/
theorem remove_spec [DecidableEq ν] (done : tree.remove place = .ok changed) :
    changed[place]? = none ∧ (∀ other, place ≠ other → changed[other]? = tree[other]?) ∧
      ∀ search write, tree[place]? = some (.directory search write) → ∀ name, tree[place ++ [name]]? = none := by
  have erased : changed = tree.erase place ∧
      ((∃ search write, tree[place]? = some (.directory search write)) → tree.hasChildren place = false) := by
    rw [remove] at done
    split at done
    next => cases done
    next =>
      split at done
      next => cases done
      next childless =>
        split at done
        next => cases done; exact ⟨rfl, fun _ => Bool.eq_false_of_not_eq_true childless⟩
        next => cases done
    next file =>
      split at done
      next => cases done; exact ⟨rfl, fun ⟨_, _, directory⟩ => by cases file.symm.trans directory⟩
      next => cases done
  obtain ⟨rfl, childless⟩ := erased
  refine ⟨Std.ExtTreeMap.getElem?_erase_self, fun other different => getElem?_erase_of_ne different, ?_⟩
  intro search write directory name
  by_contra present
  obtain ⟨node, found⟩ := Option.ne_none_iff_exists'.mp present
  have key : place ++ [name] ∈ tree.keys := by
    apply Std.ExtTreeMap.mem_keys.mpr
    apply Std.ExtTreeMap.mem_iff_isSome_getElem?.mpr
    rw [found]
    rfl
  have none := List.any_eq_false.mp (childless ⟨search, write, directory⟩) _ key
  simp at none

end

end Tree
end

end FileTree
