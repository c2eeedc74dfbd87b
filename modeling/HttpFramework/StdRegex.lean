import HttpFramework.Cpp
import HttpFramework.Library.Regex

/-! `std::regex` with its default grammar, as far as characters, `.`, classes of single characters,
groups, alternatives and the greedy `*`, `+` and `?` go. No other text is taken. -/

namespace HttpFramework

/-- A group that is still open. Its terms are listed from the last. -/
structure OpenGroup where
  number : Nat := 0
  alternative : Option (Regex UInt8) := none
  terms : List (Regex UInt8) := []
  quantifiable : Bool := false
deriving DecidableEq, Repr

namespace OpenGroup

def atom (term : Regex UInt8) (group : OpenGroup) : OpenGroup :=
  { group with terms := term :: group.terms, quantifiable := true }

def assertion (term : Regex UInt8) (group : OpenGroup) : OpenGroup :=
  { group with terms := term :: group.terms, quantifiable := false }

def quantify (repetition : Regex UInt8 → Regex UInt8) (group : OpenGroup) : Option OpenGroup :=
  match group.terms with
  | [] => none
  | last :: terms =>
    if group.quantifiable then some { group with terms := repetition last :: terms, quantifiable := false } else none

def body (group : OpenGroup) : Regex UInt8 :=
  let sequence := Regex.all group.terms.reverse
  match group.alternative with
  | none => sequence
  | some alternative => .alt alternative sequence

end OpenGroup

inductive RegexMode where
  | plain
  | bracket
  | members (negated : Bool) (items : Bytes)
deriving DecidableEq, Repr

structure RegexReader where
  groups : Nat := 0
  outer : List OpenGroup := []
  inner : OpenGroup := {}
  mode : RegexMode := .plain
deriving DecidableEq, Repr

namespace RegexReader

/-- A character between brackets. Ranges, escapes and named classes are left out. -/
def member (negated : Bool) (items : Bytes) (c : UInt8) (reader : RegexReader) : Option RegexReader :=
  if c = chr ']' then some { reader with inner := reader.inner.atom (.one negated items), mode := .plain }
  else if c ∈ ascii "\\-[" then none
  else some { reader with mode := .members negated (items ++ [c]) }

/-- A character outside of brackets. -/
def term (c : UInt8) (reader : RegexReader) : Option RegexReader :=
  if c = chr '^' then some { reader with inner := reader.inner.assertion .start }
  else if c = chr '$' then some { reader with inner := reader.inner.assertion .finish }
  else if c = chr '.' then some { reader with inner := reader.inner.atom (.one true [LF, CR]) }
  else if c = chr '[' then some { reader with mode := .bracket }
  else if c = chr '(' then
    some { reader with groups := reader.groups + 1, outer := reader.inner :: reader.outer, inner := { number := reader.groups + 1 } }
  else if c = chr ')' then
    match reader.outer with
    | [] => none
    | group :: outer =>
      some { reader with outer, inner := group.atom (.group reader.inner.number reader.inner.body) }
  else if c = chr '|' then
    some { reader with inner := { number := reader.inner.number, alternative := some reader.inner.body } }
  else if c = chr '*' then (reader.inner.quantify .star).map fun inner => { reader with inner }
  else if c = chr '+' then (reader.inner.quantify .plus).map fun inner => { reader with inner }
  else if c = chr '?' then (reader.inner.quantify (.alt · .empty)).map fun inner => { reader with inner }
  else if c ∈ ascii "\\\x7b\x7d]" then none
  else some { reader with inner := reader.inner.atom (.one false [c]) }

def next (reader : RegexReader) (c : UInt8) : Option RegexReader :=
  match reader.mode with
  | .plain => reader.term c
  | .bracket => if c = chr '^' then some { reader with mode := .members true [] } else reader.member false [] c
  | .members negated items => reader.member negated items c

end RegexReader

structure StdRegex where
  pattern : Regex UInt8
  markCount : Nat
deriving DecidableEq, Repr

namespace StdRegex

/-- The constructor. -/
def ofText (text : Bytes) : Option StdRegex := do
  let reader ← text.foldlM RegexReader.next {}
  if reader.mode = .plain ∧ reader.outer = [] then some ⟨reader.inner.body, reader.groups⟩ else none

/-- `std::regex_match`: what the groups have captured. -/
def regexMatch (regex : StdRegex) (text : Bytes) : Option (List Bytes) :=
  (regex.pattern.fullMatch text).map fun place =>
    (List.range regex.markCount).map fun group => (place.captures (group + 1)).getD []

/-- `std::regex_replace`, for a format without `$`. -/
def regexReplace (regex : StdRegex) (text format : Bytes) : Bytes := regex.pattern.replaceAll format text

end StdRegex

end HttpFramework
