import Mathlib

/-! The parts of the C++ language and its standard library that the modelled code
relies on. A `char` is a byte, a string is a list of bytes, and the classification
functions are those of the "C" locale. -/

namespace HttpFramework

abbrev Bytes := List UInt8

def chr (c : Char) : UInt8 := c.toNat.toUInt8

def ascii (text : String) : Bytes := text.toList.map chr

def CR : UInt8 := 13
def LF : UInt8 := 10
def CRLF : Bytes := [CR, LF]

/-- `std::map<std::string, std::string>`, ordered by key. It also stands for
`std::unordered_map` where the order of iteration is not observed. -/
abbrev Dict := Std.ExtTreeMap Bytes Bytes compare

def isspace (c : UInt8) : Bool := c == 32 || (9 ≤ c && c ≤ 13)

def isdigit (c : UInt8) : Bool := 48 ≤ c && c ≤ 57

/-- `std::to_string` of an unsigned number. -/
def decimal (n : Nat) : Bytes := (Nat.toDigits 10 n).map chr

/-- `std::to_string` of an `int`. -/
def decimalInt (n : Int) : Bytes := if n < 0 then chr '-' :: decimal n.natAbs else decimal n.natAbs

def decimalValue (digits : Bytes) : Nat := Nat.ofDigitChars 10 (digits.map fun d => Char.ofNat d.toNat) 0

/-- The conversion of a signed number to `size_t` or `uint64_t`. -/
def toSizeT (n : Int) : Nat := (n % 2 ^ 64).toNat

/-- The conversion of a `size_t` to `int`. -/
def toInt (n : Nat) : Int :=
  if n % 2 ^ 32 < 2 ^ 31 then (n % 2 ^ 32 : Nat) else (n % 2 ^ 32 : Nat) - 2 ^ 32

inductive StdException where
  | invalidArgument
  | outOfRange
  | lengthError
deriving DecidableEq, Repr

/-- `std::stoi`: leading white space, an optional sign, and at least one digit.
What follows the digits is ignored. -/
def stoi (text : Bytes) : Except StdException Int :=
  let text := text.dropWhile isspace
  let negative := text.head? = some (chr '-')
  let text := if negative ∨ text.head? = some (chr '+') then text.tail else text
  let digits := text.takeWhile isdigit
  if digits = [] then
    .error .invalidArgument
  else
    let value : Int := if negative then - decimalValue digits else decimalValue digits
    if - 2 ^ 31 ≤ value ∧ value < 2 ^ 31 then .ok value else .error .outOfRange

/-- The string that `c_str` shows to a function of the C library. -/
def cString (text : Bytes) : Bytes := text.takeWhile (· != 0)

/-- `std::vector<char>::max_size`. -/
def maxSize : Nat := 2 ^ 63 - 1

/-- `std::vector<char>::resize`: new elements are zero, and what would be too long is
refused with the vector unchanged. -/
def resize (content : Bytes) (size : Nat) : Except StdException Bytes :=
  if size ≤ maxSize then .ok (content.take size ++ List.replicate (size - content.length) 0)
  else .error .lengthError

/-- `std::copy` to a place in a vector, as far as the vector goes. -/
def copyTo (content : Bytes) (place : Nat) (data : Bytes) : Bytes :=
  (content.take place ++ data ++ content.drop (place + data.length)).take content.length

theorem cString_of_absent {text : Bytes} (absent : 0 ∉ text) : cString text = text := by
  apply List.takeWhile_eq_self_iff.mpr
  intro c member
  simpa using fun zero : c = 0 => absent (zero ▸ member)

theorem zero_not_mem_cString (text : Bytes) : 0 ∉ cString text := by
  intro member
  exact absurd (List.mem_takeWhile_imp member) (by decide)

/-- What stands behind a NUL is not part of the string. -/
theorem cString_append_zero (text rest : Bytes) : cString (text ++ 0 :: rest) = cString text := by
  induction text with
  | nil => rfl
  | cons c text ih =>
    simp only [cString, List.cons_append, List.takeWhile_cons] at ih ⊢
    rw [ih]

theorem resize_ok {content grown : Bytes} {size : Nat} (resized : resize content size = .ok grown) :
    size ≤ maxSize ∧ grown = content.take size ++ List.replicate (size - content.length) 0 := by
  unfold resize at resized
  split at resized
  next small => cases resized; exact ⟨small, rfl⟩
  next => cases resized

theorem resize_length {content grown : Bytes} {size : Nat} (resized : resize content size = .ok grown) :
    grown.length = size := by
  obtain ⟨_, rfl⟩ := resize_ok resized
  simp only [List.length_append, List.length_take, List.length_replicate]
  omega

theorem copyTo_length (content : Bytes) (place : Nat) (data : Bytes) :
    (copyTo content place data).length = content.length := by
  simp only [copyTo, List.length_take, List.length_append, List.length_drop]
  omega

end HttpFramework
