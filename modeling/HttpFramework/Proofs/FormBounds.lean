import HttpFramework.Code.HttpRequest

/-! Where `ParseFromUrlencoded_` reads and writes the body. Behind a `%` it looks two characters
ahead, whether they are there or not. -/

namespace HttpFramework

theorem toInt_of_lt {n : Nat} (small : n < 2 ^ 31) : toInt n = n := by
  rw [toInt, Nat.mod_eq_of_lt (by omega), if_pos small]

theorem toInt_neg {n : Nat} (large : 2 ^ 31 ≤ n) (below : n < 2 ^ 32) : toInt n < 0 := by
  rw [toInt, Nat.mod_eq_of_lt below, if_neg (not_lt.mpr large)]
  omega

theorem toInt_lt (n : Nat) : toInt n < 2 ^ 31 := by
  rw [toInt]
  split <;> omega

theorem toInt_large {n : Nat} (large : 2 ^ 31 ≤ n) : toInt n + 2 ^ 32 ≤ n := by
  rw [toInt]
  split <;> omega

theorem toInt_toNat_le (n : Nat) : (toInt n).toNat ≤ n := by
  rw [toInt]
  split <;> omega

namespace Code.HttpRequest

namespace Scan

/-- The positions that a round reads or writes, as an `int` holds them. -/
def touched (scan : Scan) : List Int :=
  if scan.char? scan.i = some (chr '%') then [toInt scan.i, toInt (scan.i + 1), toInt (scan.i + 2)] else [toInt scan.i]

/-- What the variables are in each round of the loop. -/
def rounds (n : Int) : Nat → Scan → List Scan
  | 0, _ => []
  | fuel + 1, scan =>
    if toInt scan.i < n then
      match scan.step with
      | .ok next => scan :: rounds n fuel next
      | .error _ => [scan]
    else []

/-- The `%` that the scan comes to: it passes over the two characters behind each. -/
def escapes (body : Bytes) (n : Nat) : Nat → Nat → List Nat
  | 0, _ => []
  | fuel + 1, i =>
    if i < n then
      if body[i]? = some (chr '%') then i :: escapes body n fuel (i + 3) else escapes body n fuel (i + 1)
    else []

variable {scan next : Scan} {body : Bytes} {ch high low : UInt8} {n : Int} {fuel : Nat}

theorem char?_of_lt {k : Nat} (small : k < 2 ^ 31) : scan.char? k = scan.body[k]? := if_pos small

/-- What is ahead of the scan is as it was in the body. -/
structure Ahead (body : Bytes) (scan : Scan) : Prop where
  length : scan.body.length = body.length
  same : ∀ k, scan.i ≤ k → scan.body[k]? = body[k]?

theorem Ahead.plain (ahead : Ahead body scan) (small : scan.i < 2 ^ 31) (there : body[scan.i]? = some ch)
    (plain : ch ≠ chr '%') : ∃ next, scan.step = .ok next ∧ next.i = scan.i + 1 ∧ Ahead body next := by
  have found : scan.char? scan.i = some ch := by rw [char?_of_lt small, ahead.same _ (Nat.le_refl _), there]
  have later : ∀ k, scan.i + 1 ≤ k → scan.body[k]? = body[k]? := fun k le => ahead.same k (by omega)
  rw [step, found]
  simp only [plain, if_false]
  split
  · exact ⟨_, rfl, rfl, ahead.length, later⟩
  · split
    · refine ⟨_, rfl, rfl, by simpa using ahead.length, ?_⟩
      intro k le
      rw [List.getElem?_set_ne (by simp only at le; omega)]
      exact later k le
    · split <;> exact ⟨_, rfl, rfl, ahead.length, later⟩

theorem Ahead.escape (ahead : Ahead body scan) (small : scan.i + 2 < 2 ^ 31) (there : body[scan.i]? = some (chr '%'))
    (fits : scan.i + 2 < body.length) : ∃ next, scan.step = .ok next ∧ next.i = scan.i + 3 ∧ Ahead body next := by
  have bound : scan.i + 2 < scan.body.length := by rw [ahead.length]; exact fits
  have found : scan.char? scan.i = some (chr '%') := by rw [char?_of_lt (by omega), ahead.same _ (Nat.le_refl _), there]
  rw [step, found, char?_of_lt (by omega), char?_of_lt small, List.getElem?_eq_getElem (show scan.i + 1 < _ by omega),
    List.getElem?_eq_getElem bound]
  refine ⟨_, rfl, rfl, by simpa using ahead.length, ?_⟩
  intro k le
  simp only at le
  rw [List.getElem?_set_ne (by omega), List.getElem?_set_ne (by omega)]
  exact ahead.same k (by omega)

theorem self_mem_rounds (going : toInt scan.i < n) : scan ∈ rounds n (fuel + 1) scan := by
  rw [rounds, if_pos going]
  split <;> exact List.mem_cons_self

/-- A round at an `i` that has overflowed is at a negative position. -/
theorem overflow_out_of_bounds (large : 2 ^ 31 ≤ scan.i) (near : scan.i < 2 ^ 32) (going : toInt scan.i < n) :
    ¬ ∀ round ∈ rounds n (fuel + 1) scan, ∀ index ∈ round.touched, 0 ≤ index ∧ index < body.length := by
  intro holds
  have touches : toInt scan.i ∈ scan.touched := by
    rw [touched]
    split <;> exact List.mem_cons_self
  have within := holds scan (self_mem_rounds going) _ touches
  have negative := toInt_neg large near
  omega

/-- The second character behind a `%` is touched also where there is none. -/
theorem escape_out_of_bounds (found : scan.char? scan.i = some (chr '%')) (small : scan.i < 2 ^ 31) (going : toInt scan.i < n)
    (short : ¬ (scan.i + 2 < body.length ∧ scan.i + 2 < 2 ^ 31)) :
    ¬ ∀ round ∈ rounds n (fuel + 1) scan, ∀ index ∈ round.touched, 0 ≤ index ∧ index < body.length := by
  intro holds
  have touches : toInt (scan.i + 2) ∈ scan.touched := by simp [touched, found]
  have within := holds scan (self_mem_rounds going) _ touches
  by_cases overflows : scan.i + 2 < 2 ^ 31
  · rw [toInt_of_lt overflows] at within
    omega
  · have negative := toInt_neg (not_lt.mp overflows) (by omega)
    omega

/-- The fuel is enough for the positions before `n`, with one round for an `i` that overflows. -/
theorem rounds_in_bounds_iff (most : n < 2 ^ 31) (inside : n.toNat ≤ body.length) (ahead : Ahead body scan)
    (small : scan.i < 2 ^ 31) (enough : n.toNat ≤ scan.i + fuel) :
    (∀ round ∈ rounds n (fuel + 1) scan, ∀ index ∈ round.touched, 0 ≤ index ∧ index < body.length) ↔
      ∀ i ∈ escapes body n.toNat fuel scan.i, i + 2 < body.length ∧ i + 3 < 2 ^ 31 := by
  have here : toInt scan.i = scan.i := toInt_of_lt small
  induction fuel generalizing scan with
  | zero =>
    have ended : ¬ toInt scan.i < n := by omega
    simp [rounds, escapes, ended]
  | succ fuel ih =>
    by_cases more : scan.i < n.toNat
    · have going : toInt scan.i < n := by omega
      have bound : scan.i < body.length := by omega
      have there := List.getElem?_eq_getElem bound
      have found : scan.char? scan.i = some body[scan.i] := by
        rw [char?_of_lt small, ahead.same _ (Nat.le_refl _), there]
      by_cases percent : body[scan.i] = chr '%'
      · rw [percent] at there found
        rw [escapes, if_pos more, if_pos there, List.forall_mem_cons]
        by_cases fits : scan.i + 2 < body.length ∧ scan.i + 2 < 2 ^ 31
        · obtain ⟨next, stepped, moved, ahead'⟩ := ahead.escape fits.2 there fits.1
          rw [rounds, if_pos going, stepped, ← moved]
          simp only [List.forall_mem_cons]
          by_cases last : scan.i + 3 < 2 ^ 31
          · have later := ih ahead' (by omega) (by omega) (toInt_of_lt (by omega))
            refine and_congr ?_ later
            simp only [touched, found, if_true, List.mem_cons, List.not_mem_nil, or_false, forall_eq_or_imp, forall_eq, here,
              toInt_of_lt fits.2, toInt_of_lt (show scan.i + 1 < 2 ^ 31 by omega)]
            omega
          · have negative : toInt next.i < 0 := toInt_neg (by omega) (by omega)
            exact iff_of_false (fun holds => overflow_out_of_bounds (by omega) (by omega) (by omega) holds.2) (by omega)
        · exact iff_of_false (escape_out_of_bounds found small going fits) (by omega)
      · obtain ⟨next, stepped, moved, ahead'⟩ := ahead.plain small there percent
        have plain : body[scan.i]? ≠ some (chr '%') := by
          rw [there]
          exact fun same => percent (Option.some.inj same)
        have touches : scan.touched = [toInt scan.i] := by
          rw [touched, found, if_neg (fun same => percent (Option.some.inj same))]
        have later := ih ahead' (by omega) (by omega) (toInt_of_lt (by omega))
        rw [escapes, if_pos more, if_neg plain, ← moved, rounds, if_pos going, stepped]
        simp only [List.forall_mem_cons, touches]
        exact (and_iff_right ⟨⟨by omega, by omega⟩, by simp⟩).trans later
    · have ended : ¬ toInt scan.i < n := by omega
      simp [rounds, escapes, ended, more]

end Scan

def rounds (request : HttpRequest) : List Scan :=
  if request.body = [] then []
  else
    let n := toInt request.body.length
    Scan.rounds n (n.toNat + 1) { body := request.body, post := request.post }

/-- Two characters stand behind every `%` that the scan comes to, and the position behind them is
an `int`. -/
def EscapesFit (body : Bytes) : Prop :=
  ∀ i ∈ Scan.escapes body (toInt body.length).toNat (toInt body.length).toNat 0, i + 2 < body.length ∧ i + 3 < 2 ^ 31

instance (body : Bytes) : Decidable (EscapesFit body) := inferInstanceAs (Decidable (∀ i ∈ _, _))

/-- Every position that the loop reads or writes is one of the body exactly when the escapes fit. -/
theorem parseFromUrlencoded_in_bounds_iff (request : HttpRequest) :
    (∀ round ∈ request.rounds, ∀ index ∈ round.touched, 0 ≤ index ∧ index < request.body.length) ↔ EscapesFit request.body := by
  rw [rounds, EscapesFit]
  by_cases empty : request.body = []
  · rw [if_pos empty, empty]
    simp [toInt, Scan.escapes]
  · rw [if_neg empty]
    exact Scan.rounds_in_bounds_iff (toInt_lt _) (toInt_toNat_le _) ⟨rfl, fun _ _ => rfl⟩ (by simp) (by simp)

/-- A `%` before the last character. -/
theorem parseFromUrlencoded_reads_past_end :
    ¬ ∀ request : HttpRequest, ∀ round ∈ request.rounds, ∀ index ∈ round.touched, 0 ≤ index ∧ index < request.body.length := by
  intro holds
  have within := holds { body := ascii "a=%4" }
  revert within
  decide

end Code.HttpRequest

end HttpFramework
