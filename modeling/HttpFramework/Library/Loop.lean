import Mathlib.Tactic.Common

/-! Loops whose body may be repeated without bound. A run with fuel is the
executable view; the exit relation is the view proofs use. The two agree, so a
loop that exits needs only some finite amount of fuel. -/

namespace Loop

universe u v

/-- One pass through a loop body either goes round again or leaves. -/
inductive Pass (σ : Type u) (ρ : Type v) where
  | again (state : σ)
  | leave (result : ρ)
deriving DecidableEq, Repr

variable {σ : Type u} {ρ : Type v} {body : σ → Pass σ ρ}

def Pass.map {σ' : Type u} {ρ' : Type v} (state : σ → σ') (result : ρ → ρ') : Pass σ ρ → Pass σ' ρ'
  | .again next => .again (state next)
  | .leave left => .leave (result left)

/-- `none` says that the fuel was used up before the loop left. -/
def run (body : σ → Pass σ ρ) : Nat → σ → Option ρ
  | 0, _ => none
  | fuel + 1, state =>
    match body state with
    | .again next => run body fuel next
    | .leave result => some result

inductive Exits (body : σ → Pass σ ρ) : σ → ρ → Prop where
  | leave {state result} (left : body state = .leave result) : Exits body state result
  | again {state next result} (repeated : body state = .again next)
      (rest : Exits body next result) : Exits body state result

def Halts (body : σ → Pass σ ρ) (state : σ) : Prop := ∃ fuel, (run body fuel state).isSome

theorem exits_of_run {fuel : Nat} {state : σ} {result : ρ} (ran : run body fuel state = some result) :
    Exits body state result := by
  induction fuel generalizing state with
  | zero => cases ran
  | succ fuel ih =>
    rw [run] at ran
    split at ran
    next next repeated => exact .again repeated (ih ran)
    next left => cases ran; exact .leave left

theorem Exits.run {state : σ} {result : ρ} (exits : Exits body state result) :
    ∃ bound, ∀ fuel, bound ≤ fuel → Loop.run body fuel state = some result := by
  induction exits with
  | leave left =>
    refine ⟨1, fun fuel enough => ?_⟩
    cases fuel with
    | zero => omega
    | succ fuel => simp only [Loop.run, left]
  | again repeated _ ih =>
    obtain ⟨bound, ran⟩ := ih
    refine ⟨bound + 1, fun fuel enough => ?_⟩
    cases fuel with
    | zero => omega
    | succ fuel =>
      simp only [Loop.run, repeated]
      exact ran fuel (by omega)

theorem Exits.unique {state : σ} {first second : ρ} (one : Exits body state first)
    (other : Exits body state second) : first = second := by
  induction one with
  | leave left =>
    cases other with
    | leave left' => rw [left] at left'; cases left'; rfl
    | again repeated _ => rw [left] at repeated; cases repeated
  | again repeated _ ih =>
    cases other with
    | leave left => rw [left] at repeated; cases repeated
    | again repeated' rest =>
      rw [repeated] at repeated'
      cases repeated'
      exact ih rest

/-- A view of the states that the body respects is respected by the loop. -/
theorem Exits.map {σ' : Type u} {ρ' : Type v} {image : σ' → Pass σ' ρ'} {view : σ → σ'} {shown : ρ → ρ'}
    (respects : ∀ state, image (view state) = (body state).map view shown) {state : σ} {result : ρ}
    (exits : Exits body state result) : Exits image (view state) (shown result) := by
  induction exits with
  | leave left => exact .leave (by rw [respects, left]; rfl)
  | again repeated _ ih => exact .again (by rw [respects, repeated]; rfl) ih

/-- The rule for loops that exit: what every pass keeps, and what follows from it at the end. -/
theorem Exits.rule (invariant : σ → Prop) {property : ρ → Prop}
    (repeats : ∀ state next, invariant state → body state = .again next → invariant next)
    (leaves : ∀ state result, invariant state → body state = .leave result → property result)
    {state : σ} {result : ρ} (holds : invariant state) (exits : Exits body state result) : property result := by
  induction exits with
  | leave left => exact leaves _ _ holds left
  | again repeated _ ih => exact ih (repeats _ _ holds repeated)

theorem halts_iff {state : σ} : Halts body state ↔ ∃ result, Exits body state result := by
  constructor
  · intro ⟨fuel, finished⟩
    obtain ⟨result, ran⟩ := Option.isSome_iff_exists.mp finished
    exact ⟨result, exits_of_run ran⟩
  · intro ⟨result, exits⟩
    obtain ⟨bound, ran⟩ := exits.run
    exact ⟨bound, by rw [ran bound (Nat.le_refl bound)]; rfl⟩

/-- A measure that every further pass lowers bounds the number of passes. The
invariant says in which states the measure is known to fall. -/
theorem run_isSome_of_measure (invariant : σ → Prop) (measure : σ → Nat)
    (lowers : ∀ state next, invariant state → body state = .again next →
      invariant next ∧ measure next < measure state)
    {fuel : Nat} {state : σ} (holds : invariant state) (enough : measure state < fuel) :
    (run body fuel state).isSome := by
  induction fuel generalizing state with
  | zero => omega
  | succ fuel ih =>
    rw [run]
    split
    next next repeated =>
      obtain ⟨kept, less⟩ := lowers state next holds repeated
      exact ih kept (by omega)
    next => rfl

theorem run_eq_none_of_fixed {state : σ} (fixed : body state = .again state) (fuel : Nat) :
    run body fuel state = none := by
  induction fuel with
  | zero => rfl
  | succ fuel ih => rw [run, fixed]; exact ih

theorem not_halts_of_fixed {state : σ} (fixed : body state = .again state) : ¬ Halts body state := by
  intro ⟨fuel, finished⟩
  rw [run_eq_none_of_fixed fixed] at finished
  cases finished

section
variable {α : Type v}

/-- A loop over a list whose body may fail. The invariant speaks of the items it has been
through. -/
theorem foldlM_rule {step : σ → α → Option σ} {items : List α} (invariant : List α → σ → Prop)
    (each : ∀ done item state, item ∈ items → invariant done state →
      ∃ next, step state item = some next ∧ invariant (done ++ [item]) next)
    {state : σ} (initial : invariant [] state) :
    ∃ final, items.foldlM step state = some final ∧ invariant items final := by
  suffices general : ∀ done rest state, (∀ item ∈ rest, item ∈ items) → invariant done state →
      ∃ final, rest.foldlM step state = some final ∧ invariant (done ++ rest) final from
    general [] items state (fun _ member => member) initial
  intro done rest
  induction rest generalizing done with
  | nil =>
    intro state _ holds
    exact ⟨state, rfl, by rwa [List.append_nil]⟩
  | cons item rest ih =>
    intro state within holds
    obtain ⟨next, stepped, kept⟩ := each done item state (within item List.mem_cons_self) holds
    obtain ⟨final, finished, result⟩ :=
      ih (done ++ [item]) next (fun other member => within other (List.mem_cons_of_mem _ member)) kept
    refine ⟨final, ?_, by rwa [List.append_cons]⟩
    rw [List.foldlM_cons, stepped]
    exact finished

theorem foldlM_total {step : σ → α → Option σ} {items : List α}
    (each : ∀ state item, item ∈ items → ∃ next, step state item = some next) (state : σ) :
    ∃ final, items.foldlM step state = some final := by
  obtain ⟨final, finished, _⟩ := @foldlM_rule σ α step items (fun _ _ => True)
    (fun _ item state member _ => (each state item member).imp fun _ stepped => ⟨stepped, trivial⟩) state trivial
  exact ⟨final, finished⟩

theorem anyM_total {test : α → Option Bool} {items : List α}
    (each : ∀ item ∈ items, ∃ result, test item = some result) : ∃ result, items.anyM test = some result := by
  induction items with
  | nil => exact ⟨false, rfl⟩
  | cons item items ih =>
    obtain ⟨result, tested⟩ := each item List.mem_cons_self
    obtain ⟨later, rest⟩ := ih fun other member => each other (List.mem_cons_of_mem _ member)
    cases result with
    | true => exact ⟨true, by simp [List.anyM, tested]⟩
    | false => exact ⟨later, by simp [List.anyM, tested, rest]⟩

end

end Loop
