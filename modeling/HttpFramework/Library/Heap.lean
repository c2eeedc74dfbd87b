import Mathlib.Order.Lattice
import Mathlib.Tactic.Common

/-! Binary heaps as the keys at their positions. The greatest key is at the root. While one key
is on its way to where it belongs the heap is almost ordered: every pair that does not touch its
position is in order, and so are the keys below and above it. -/

namespace Heap

universe u

variable {κ : Type u} [LinearOrder κ] {n i j : Nat} {key : Nat → κ}

def parent (k : Nat) : Nat := (k - 1) / 2

theorem parent_lt {k : Nat} (positive : 0 < k) : parent k < k := by
  simp only [parent]
  omega

/-- The positions below a position. -/
def Child (n i k : Nat) : Prop := 0 < k ∧ k < n ∧ parent k = i

theorem child_iff {k : Nat} : Child n i k ↔ k < n ∧ (k = i * 2 + 1 ∨ k = i * 2 + 2) := by
  simp only [Child, parent]
  omega

def Ordered (n : Nat) (key : Nat → κ) : Prop := ∀ k, 0 < k → k < n → key k ≤ key (parent k)

def exchange (key : Nat → κ) (i j k : Nat) : κ := if k = i then key j else if k = j then key i else key k

structure Almost (n : Nat) (key : Nat → κ) (i : Nat) : Prop where
  others : ∀ k, 0 < k → k < n → k ≠ i → parent k ≠ i → key k ≤ key (parent k)
  across : 0 < i → ∀ k, Child n i k → key k ≤ key (parent i)

/-- The key is no greater than the one above it. -/
def Above (key : Nat → κ) (i : Nat) : Prop := 0 < i → key i ≤ key (parent i)

/-- The key is no less than those below it. -/
def Below (n : Nat) (key : Nat → κ) (i : Nat) : Prop := ∀ k, Child n i k → key k ≤ key i

theorem Almost.ordered (almost : Almost n key i) (above : Above key i) (below : Below n key i) : Ordered n key := by
  intro k positive bound
  by_cases same : k = i
  · subst same
    exact above positive
  · by_cases child : parent k = i
    · rw [child]
      exact below k ⟨positive, bound, child⟩
    · exact almost.others k positive bound same child

theorem Ordered.almost (ordered : Ordered n key) (i : Nat) : Almost n key i where
  others k positive bound _ _ := ordered k positive bound
  across positive k child := by
    obtain ⟨low, bound, rfl⟩ := child
    have less := parent_lt low
    exact le_trans (ordered k low bound) (ordered _ positive (by omega))

/-- Only the keys away from the position matter. -/
theorem Almost.congr {other : Nat → κ} {m : Nat} (almost : Almost n key i) (fewer : m ≤ n)
    (same : ∀ k, k < m → k ≠ i → other k = key k) : Almost m other i where
  others k positive bound apart child := by
    have less := parent_lt positive
    rw [same k bound apart, same _ (by omega) child]
    exact almost.others k positive (by omega) apart child
  across positive k child := by
    obtain ⟨low, bound, rfl⟩ := child
    have less := parent_lt low
    have less' := parent_lt positive
    rw [same k bound (by omega), same _ (by omega) (by omega)]
    exact almost.across positive k ⟨low, by omega, rfl⟩

/-- A key that comes last has nothing below it. -/
theorem Ordered.push {other : Nat → κ} (ordered : Ordered n key) (same : ∀ k, k < n → other k = key k) :
    Almost (n + 1) other n ∧ Below (n + 1) other n := by
  have childless : ∀ k, ¬ Child (n + 1) n k := by
    intro k ⟨positive, bound, child⟩
    have less := parent_lt positive
    omega
  refine ⟨⟨?_, ?_⟩, ?_⟩
  · intro k positive bound apart _
    have less := parent_lt positive
    rw [same k (by omega), same _ (by omega)]
    exact ordered k positive (by omega)
  · intro _ k child
    exact absurd child (childless k)
  · intro k child
    exact absurd child (childless k)

theorem Almost.up (almost : Almost n key i) (below : Below n key i) (positive : 0 < i) (inside : i < n)
    (greater : key (parent i) ≤ key i) :
    Almost n (exchange key i (parent i)) (parent i) ∧ Below n (exchange key i (parent i)) (parent i) := by
  have less := parent_lt positive
  have siblings : ∀ k, Child n (parent i) k → k ≠ i → key k ≤ key (parent i) := by
    intro k ⟨low, bound, child⟩ apart
    rw [← child]
    exact almost.others k low bound apart (by omega)
  refine ⟨⟨?_, ?_⟩, ?_⟩
  · intro k low bound apart child
    have less' := parent_lt low
    have other : k ≠ i := by
      rintro rfl
      exact child rfl
    by_cases below' : parent k = i
    · simp only [exchange, below', if_neg other, if_neg apart, if_true]
      exact almost.across positive k ⟨low, bound, below'⟩
    · simp only [exchange, if_neg other, if_neg apart, if_neg below', if_neg child]
      exact almost.others k low bound other below'
  · intro high k child
    have less' := parent_lt high
    have top : key (parent i) ≤ key (parent (parent i)) :=
      almost.others _ high (by omega) (by omega) (by omega)
    have apart : parent (parent i) ≠ i := by omega
    have apart' : parent (parent i) ≠ parent i := by omega
    simp only [exchange, if_neg apart, if_neg apart']
    by_cases same : k = i
    · rwa [if_pos same]
    · have apart'' : k ≠ parent i := by
        have less'' := parent_lt child.1
        have := child.2.2
        omega
      rw [if_neg same, if_neg apart'']
      exact le_trans (siblings k child same) top
  · intro k child
    have apart : parent i ≠ i := by omega
    simp only [exchange, if_neg apart, if_true]
    by_cases same : k = i
    · rwa [if_pos same]
    · have apart' : k ≠ parent i := by
        have less' := parent_lt child.1
        have := child.2.2
        omega
      rw [if_neg same, if_neg apart']
      exact le_trans (siblings k child same) greater

theorem Almost.down (almost : Almost n key i) (child : Child n i j) (most : ∀ k, Child n i k → key k ≤ key j)
    (less : key i ≤ key j) : Almost n (exchange key i j) j ∧ Above (exchange key i j) j := by
  obtain ⟨low, bound, rfl⟩ := child
  have shorter := parent_lt low
  refine ⟨⟨?_, ?_⟩, ?_⟩
  · intro k positive within apart child
    have shorter' := parent_lt positive
    by_cases same : k = parent j
    · have top : parent k ≠ parent j := by omega
      simp only [exchange, if_pos same, if_neg top, if_neg child]
      rw [same]
      exact almost.across (by omega) j ⟨low, bound, rfl⟩
    · by_cases sibling : parent k = parent j
      · simp only [exchange, if_neg same, if_neg apart, if_pos sibling]
        exact most k ⟨positive, within, sibling⟩
      · simp only [exchange, if_neg same, if_neg apart, if_neg sibling, if_neg child]
        exact almost.others k positive within same sibling
  · intro _ k ⟨positive, within, child⟩
    have shorter' := parent_lt positive
    have apart : k ≠ parent j := by omega
    have apart' : k ≠ j := by omega
    simp only [exchange, if_neg apart, if_neg apart', if_true]
    have below := almost.others k positive within apart (by omega)
    rwa [child] at below
  · intro _
    have apart : j ≠ parent j := by omega
    simpa only [exchange, if_neg apart, if_true] using less

theorem Ordered.le_root (ordered : Ordered n key) {k : Nat} (bound : k < n) : key k ≤ key 0 := by
  induction k using Nat.strongRecOn with
  | ind k ih =>
    rcases Nat.eq_zero_or_pos k with rfl | positive
    · exact le_refl _
    · have less := parent_lt positive
      exact le_trans (ordered k positive bound) (ih _ less (by omega))

end Heap
