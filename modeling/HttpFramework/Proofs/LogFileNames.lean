import HttpFramework.Library.Search
import HttpFramework.Mylog.LogFlush
import HttpFramework.Proofs.RequestFormat

/-! The names of rolled log files. The numbers of the time stand without anything between them, each
with as many digits as it takes, so that two times may be written alike. -/

namespace HttpFramework.Mylog
open Http

set_option maxRecDepth 4000

theorem digits_decimal {n : Nat} {c : UInt8} (member : c ∈ decimal n) : isdigit c :=
  (isLength_decimal n).digits c member

def allDigits (numbers : List Nat) : Bytes := numbers.flatMap decimal

theorem digits_allDigits {numbers : List Nat} {c : UInt8} (member : c ∈ allDigits numbers) : isdigit c := by
  obtain ⟨n, -, digit⟩ := List.mem_flatMap.mp member
  exact digits_decimal digit

/-- The number that the digits of some numbers make when they are read as one. -/
def joined (numbers : List Nat) : Nat := numbers.foldl (fun value n => value * 10 ^ (decimal n).length + n) 0

def width (numbers : List Nat) : Nat := (numbers.map fun n => (decimal n).length).sum

theorem length_allDigits (numbers : List Nat) : (allDigits numbers).length = width numbers := List.length_flatMap

theorem decimalValue_append (first second : Bytes) :
    decimalValue (first ++ second) = decimalValue first * 10 ^ second.length + decimalValue second := by
  rw [decimalValue, List.map_append, Nat.ofDigitChars_append, Nat.ofDigitChars_eq_ofDigitChars_zero, List.length_map, Nat.mul_comm]
  rfl

theorem decimalValue_allDigits (numbers : List Nat) : decimalValue (allDigits numbers) = joined numbers := by
  induction numbers using List.reverseRecOn with
  | nil => rfl
  | append_singleton numbers n ih =>
    rw [allDigits, List.flatMap_append, List.flatMap_singleton, decimalValue_append, ← allDigits, ih, (isLength_decimal n).value,
      joined, joined, List.foldl_append, List.foldl_cons, List.foldl_nil]

theorem decimalValue_digit {c : UInt8} (digit : isdigit c) : decimalValue [c] = c.toNat - 48 ∧ 48 ≤ c.toNat ∧ c.toNat ≤ 57 := by
  have all : ∀ n < 256, isdigit n.toUInt8 → decimalValue [n.toUInt8] = n.toUInt8.toNat - 48 ∧ 48 ≤ n.toUInt8.toNat ∧
      n.toUInt8.toNat ≤ 57 := by decide
  simpa using all c.toNat c.toNat_lt (by simpa using digit)

theorem decimalValue_lt {digits : Bytes} (all : ∀ c ∈ digits, isdigit c) : decimalValue digits < 10 ^ digits.length := by
  induction digits with
  | nil => exact Nat.one_pos
  | cons c digits ih =>
    have rest := ih fun c member => all c (List.mem_cons_of_mem _ member)
    obtain ⟨value, low, high⟩ := decimalValue_digit (all c List.mem_cons_self)
    have nine : decimalValue [c] * 10 ^ digits.length ≤ 9 * 10 ^ digits.length := Nat.mul_le_mul_right _ (by omega)
    rw [← List.singleton_append, decimalValue_append, List.length_append, List.length_singleton, Nat.pow_add]
    omega

theorem place_injective {a b x y p : Nat} (small : x < p) (small' : y < p) (same : a * p + x = b * p + y) : a = b ∧ x = y := by
  have positive : 0 < p := Nat.zero_lt_of_lt small
  have quotient (a x : Nat) (small : x < p) : (a * p + x) / p = a := by
    rw [Nat.mul_comm, Nat.mul_add_div positive, Nat.div_eq_of_lt small, Nat.add_zero]
  have high : a = b := by rw [← quotient a x small, same, quotient b y small']
  subst high
  exact ⟨rfl, Nat.add_left_cancel same⟩

/-- As many digits of the same value are the same. -/
theorem digits_injective {first second : Bytes} (digits : ∀ c ∈ first, isdigit c) (digits' : ∀ c ∈ second, isdigit c)
    (length : first.length = second.length) (value : decimalValue first = decimalValue second) : first = second := by
  induction first generalizing second with
  | nil => exact (List.length_eq_zero_iff.mp length.symm).symm
  | cons c first ih =>
    cases second with
    | nil => cases length
    | cons d second =>
      have later := fun c member => digits c (List.mem_cons_of_mem _ member)
      have later' := fun c member => digits' c (List.mem_cons_of_mem _ member)
      have shorter : first.length = second.length := Nat.succ.inj length
      obtain ⟨own, low, -⟩ := decimalValue_digit (digits c List.mem_cons_self)
      obtain ⟨own', low', -⟩ := decimalValue_digit (digits' d List.mem_cons_self)
      rw [← List.singleton_append, ← @List.singleton_append _ d, decimalValue_append, decimalValue_append, shorter] at value
      obtain ⟨high, rest⟩ := place_injective (shorter ▸ decimalValue_lt later) (decimalValue_lt later') value
      have same : c = d := UInt8.toNat_inj.mp (by omega)
      rw [same, ih later later' shorter rest]

/-- Two lists of numbers are written alike when they have as many digits and make the same number. -/
theorem allDigits_eq_iff (numbers numbers' : List Nat) :
    allDigits numbers = allDigits numbers' ↔ width numbers = width numbers' ∧ joined numbers = joined numbers' := by
  rw [← length_allDigits, ← length_allDigits, ← decimalValue_allDigits, ← decimalValue_allDigits]
  constructor
  · intro same
    rw [same]
    exact ⟨rfl, rfl⟩
  · intro ⟨length, value⟩
    exact digits_injective (fun _ => digits_allDigits) (fun _ => digits_allDigits) length value

namespace RollFileFlush

theorem fileName_eq_iff (basename : Bytes) (t t' : Tm) (cnt cnt' : Nat) :
    fileName basename t cnt = fileName basename t' cnt' ↔ allDigits t.fields = allDigits t'.fields ∧ cnt = cnt' := by
  have undashed (t : Tm) : chr '-' ∉ allDigits t.fields := fun member => absurd (digits_allDigits member) (by decide)
  have shape (t : Tm) (cnt : Nat) : fileName basename t cnt =
      basename ++ (allDigits t.fields ++ chr '-' :: decimal cnt) ++ ascii ".log" := by
    rw [fileName, ← allDigits, List.append_assoc basename, List.append_assoc basename, List.append_assoc (allDigits _)]
    rfl
  constructor
  · intro same
    rw [shape, shape] at same
    have middle := List.append_cancel_left (List.append_cancel_right same)
    -- The dash parts the digits of the time from those of the counter.
    have place := congrArg (List.idxOf (chr '-')) middle
    rw [Search.idxOf_join (undashed t), Search.idxOf_join (undashed t')] at place
    obtain ⟨time, counter⟩ := List.append_inj middle place
    exact ⟨time, decimal_injective (List.cons.inj counter).2⟩
  · rintro ⟨time, rfl⟩
    rw [shape, shape, time]

/-- Numbers with as many digits, one by one, are written alike only when they are the same. -/
theorem allDigits_injective {numbers numbers' : List Nat}
    (widths : numbers.map (fun n => (decimal n).length) = numbers'.map fun n => (decimal n).length)
    (same : allDigits numbers = allDigits numbers') : numbers = numbers' := by
  induction numbers generalizing numbers' with
  | nil => exact (List.map_eq_nil_iff.mp widths.symm).symm
  | cons n numbers ih =>
    cases numbers' with
    | nil => cases widths
    | cons n' numbers' =>
      obtain ⟨first, later⟩ := List.cons.inj widths
      obtain ⟨own, rest⟩ := List.append_inj same first
      rw [decimal_injective own, ih later rest]

/-- With as many digits in every number the times can be told apart, as they are where months, days
and hours are padded. -/
theorem fileName_injective {basename : Bytes} {t t' : Tm} {cnt cnt' : Nat}
    (widths : t.fields.map (fun n => (decimal n).length) = t'.fields.map fun n => (decimal n).length)
    (same : fileName basename t cnt = fileName basename t' cnt') : t = t' ∧ cnt = cnt' := by
  obtain ⟨time, counter⟩ := (fileName_eq_iff basename t t' cnt cnt').mp same
  have fields := allDigits_injective widths time
  simp only [Tm.fields, List.cons.injEq, Nat.add_right_cancel_iff, and_true] at fields
  obtain ⟨year, mon, mday, hour, min, sec⟩ := fields
  obtain ⟨⟩ := t
  obtain ⟨⟩ := t'
  simp only [Tm.mk.injEq]
  exact ⟨⟨Fin.ext year, Fin.ext mon, Fin.ext mday, Fin.ext hour, Fin.ext min, Fin.ext sec⟩, counter⟩

end RollFileFlush

end HttpFramework.Mylog
