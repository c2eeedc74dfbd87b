import HttpFramework.Proofs.PathParameters

/-! Patterns of paths, from segment to segment. What `convertToRegex` makes of the text of a pattern
takes a path as the segments do, and the groups are numbered as the parameters stand. -/

namespace HttpFramework.Http
open Regex

set_option maxRecDepth 4000

/-- A letter, a digit, `_` or `-`. -/
def isNameChar (c : UInt8) : Bool :=
  (65 ≤ c && c ≤ 90) || (97 ≤ c && c ≤ 122) || isdigit c || c == chr '_' || c == chr '-'

structure SegmentName where
  text : Bytes
  nonempty : text ≠ []
  named : ∀ c ∈ text, isNameChar c

inductive Segment where
  | literal (name : SegmentName)
  | parameter (name : SegmentName)

namespace Segment

def text : Segment → Bytes
  | literal name => chr '/' :: name.text
  | parameter name => ascii "/:" ++ name.text

def Takes : Segment → Bytes → Prop
  | literal name, part => part = name.text
  | parameter _, part => part ≠ [] ∧ chr '/' ∉ part

/-- The parts at the places of the parameters. -/
def parameters : List Segment → List Bytes → List Bytes
  | literal _ :: segments, _ :: parts => parameters segments parts
  | parameter _ :: segments, part :: parts => part :: parameters segments parts
  | _, _ => []

def patternText (segments : List Segment) : Bytes := segments.flatMap text

/-- What `convertToRegex` puts in the place of a segment. -/
def regexText : Segment → Bytes
  | literal name => chr '/' :: name.text
  | parameter _ => ascii "/([^/]+)"

end Segment

/-- The parts behind their slashes. -/
def pathText (parts : List Bytes) : Bytes := parts.flatMap (chr '/' :: ·)

/-- Anything up to the next slash. -/
def segmentGroup (number : Nat) : Regex UInt8 := .group number (all [.plus (.one true [chr '/'])])

namespace Segment

/-- The terms of the regular expression, with groups after those that are there. -/
def terms : Nat → List Segment → List (Regex UInt8)
  | _, [] => []
  | groups, literal name :: segments => (chr '/' :: name.text).map char ++ terms groups segments
  | groups, parameter _ :: segments => char (chr '/') :: segmentGroup (groups + 1) :: terms (groups + 1) segments

def parameterCount : List Segment → Nat
  | [] => 0
  | literal _ :: segments => parameterCount segments
  | parameter _ :: segments => parameterCount segments + 1

end Segment

theorem SegmentName.free (name : SegmentName) {c : UInt8} (special : isNameChar c = false) : c ∉ name.text :=
  fun member => by simpa [special] using name.named c member

section
open Segment
variable {before rest : Bytes} {captures : Nat → Option Bytes} {fuel : Nat}

/-- The expression that `convertToRegex` looks for. -/
def parameterPattern : Regex UInt8 := all ((ascii "/:").map char ++ [segmentGroup 1])

theorem ofText_parameter : StdRegex.ofText (ascii "/:([^/]+)") = some ⟨parameterPattern, 1⟩ := by rfl

theorem head_segmentGroup (number : Nat) {part : Bytes} (nonempty : part ≠ []) (free : chr '/' ∉ part)
    (next : rest = [] ∨ rest.head? = some (chr '/')) :
    ((segmentGroup number).ways ⟨before, part ++ rest, captures⟩).head? =
      some ⟨before ++ part, rest, Function.update captures number (some part)⟩ := by
  have accepted : ∀ c ∈ part, accepts true [chr '/'] c := fun c member =>
    accepts_except.mpr fun same => free (same ▸ member)
  have refused : rest.head?.any (accepts true [chr '/']) = false := by
    rcases next with rfl | slash
    · rfl
    · rw [slash]
      rfl
  rw [segmentGroup, head_group, ways_all_singleton, head_plus_one nonempty accepted refused]
  simp [Place.capture]

theorem ways_parameterPattern_refused (refused : ¬ ascii "/:" <+: rest) :
    parameterPattern.ways ⟨before, rest, captures⟩ = [] :=
  ways_word_refused _ refused

theorem head_parameterPattern (name : SegmentName) (next : rest = [] ∨ rest.head? = some (chr '/')) :
    (parameterPattern.ways ⟨before, ascii "/:" ++ name.text ++ rest, captures⟩).head? =
      some ⟨before ++ ascii "/:" ++ name.text, rest, Function.update captures 1 (some name.text)⟩ := by
  rw [parameterPattern, List.append_assoc, ways_word, ways_all_singleton,
    head_segmentGroup 1 name.nonempty (name.free (by decide)) next]

/-- Nothing is exchanged where no slash stands. -/
theorem replaceFrom_word {new word : Bytes} (free : chr '/' ∉ word) :
    parameterPattern.replaceFrom new (word.length + fuel) ⟨before, word ++ rest, captures⟩ =
      word ++ parameterPattern.replaceFrom new fuel ⟨before ++ word, rest, captures⟩ := by
  induction word generalizing before with
  | nil => simp
  | cons c word ih =>
    obtain ⟨other, free'⟩ := not_or.mp (mt List.mem_cons.mpr free)
    have refused : ¬ ascii "/:" <+: c :: (word ++ rest) := fun starts => other (List.cons_prefix_cons.mp starts).1
    have size : (c :: word).length + fuel = (word.length + fuel) + 1 := by
      rw [List.length_cons]
      omega
    rw [size, List.cons_append, replaceFrom_next (ways_parameterPattern_refused refused), ih free']
    simp

theorem replaceFrom_literal (name : SegmentName) {new : Bytes} :
    parameterPattern.replaceFrom new (name.text.length + 1 + fuel) ⟨before, chr '/' :: name.text ++ rest, captures⟩ =
      chr '/' :: name.text ++ parameterPattern.replaceFrom new fuel ⟨before ++ chr '/' :: name.text, rest, captures⟩ := by
  have refused : ¬ ascii "/:" <+: chr '/' :: (name.text ++ rest) := by
    intro starts
    obtain ⟨c, text, named⟩ := List.exists_cons_of_ne_nil name.nonempty
    rw [named] at starts
    have colon : chr ':' = c := (List.cons_prefix_cons.mp (List.cons_prefix_cons.mp starts).2).1
    exact name.free (c := chr ':') (by decide) (by simp [named, colon])
  have size : name.text.length + 1 + fuel = (name.text.length + fuel) + 1 := by omega
  rw [size, List.cons_append, replaceFrom_next (ways_parameterPattern_refused refused),
    replaceFrom_word (name.free (by decide))]
  simp

theorem replaceFrom_parameter (name : SegmentName) {new : Bytes} (next : rest = [] ∨ rest.head? = some (chr '/')) :
    parameterPattern.replaceFrom new (fuel + 1) ⟨before, ascii "/:" ++ name.text ++ rest, captures⟩ =
      new ++ parameterPattern.replaceFrom new fuel
        ⟨before ++ ascii "/:" ++ name.text, rest, Function.update (fun _ => none) 1 (some name.text)⟩ := by
  refine replaceFrom_match (head_parameterPattern name next) ?_
  have size : (ascii "/:").length = 2 := rfl
  simp only [Place.Further, List.length_append, size]
  omega

theorem patternText_next : ∀ segments : List Segment,
    patternText segments = [] ∨ (patternText segments).head? = some (chr '/')
  | [] => .inl rfl
  | literal _ :: _ => .inr rfl
  | parameter _ :: _ => .inr rfl

theorem replaceFrom_segments (segments : List Segment) (enough : (patternText segments).length < fuel) :
    parameterPattern.replaceFrom (ascii "/([^/]+)") fuel ⟨before, patternText segments, captures⟩ =
      segments.flatMap regexText := by
  induction segments generalizing before captures fuel with
  | nil =>
    obtain ⟨fuel, rfl⟩ := Nat.exists_eq_add_of_lt enough
    rfl
  | cons segment segments ih =>
    have cut : patternText (segment :: segments) = segment.text ++ patternText segments := List.flatMap_cons
    rw [cut, List.length_append] at enough
    rw [cut, List.flatMap_cons]
    cases segment with
    | literal name =>
      simp only [Segment.text, List.length_cons] at enough
      obtain ⟨fuel, rfl⟩ := Nat.exists_eq_add_of_le (show name.text.length + 1 ≤ fuel by omega)
      rw [Segment.text, replaceFrom_literal, ih (by omega), regexText]
    | parameter name =>
      obtain ⟨fuel, rfl⟩ := Nat.exists_eq_add_of_le' (show 1 ≤ fuel by omega)
      have size : (ascii "/:").length = 2 := rfl
      simp only [Segment.text, List.length_append, size] at enough
      rw [Segment.text, replaceFrom_parameter name (patternText_next segments), ih (by omega)]
      rfl

/-- What has no meaning of its own. -/
def Ordinary (c : UInt8) : Prop := c ∉ ascii "^$.[()|*+?\\\x7b\x7d]"

theorem ordinary_of_isNameChar {c : UInt8} (named : isNameChar c) : Ordinary c := by
  have special : ∀ c ∈ ascii "^$.[()|*+?\\\x7b\x7d]", isNameChar c = false := by decide
  intro member
  rw [special c member] at named
  cases named

theorem ordinary_slash : Ordinary (chr '/') := by
  rw [Ordinary]
  decide

theorem next_char {reader : RegexReader} (plain : reader.mode = .plain) {c : UInt8} (ordinary : Ordinary c) :
    reader.next c = some { reader with inner := reader.inner.atom (char c) } := by
  simp [Ordinary, ascii] at ordinary
  simp [RegexReader.next, plain, RegexReader.term, ordinary, ascii, char]

/-- Several terms after one another. -/
def atoms (terms : List (Regex UInt8)) (group : OpenGroup) : OpenGroup :=
  terms.foldl (fun group term => group.atom term) group

theorem atoms_append (first second : List (Regex UInt8)) (group : OpenGroup) :
    atoms (first ++ second) group = atoms second (atoms first group) := List.foldl_append

theorem atoms_terms (terms : List (Regex UInt8)) (group : OpenGroup) :
    (atoms terms group).terms = terms.reverse ++ group.terms ∧ (atoms terms group).alternative = group.alternative := by
  induction terms generalizing group with
  | nil => exact ⟨rfl, rfl⟩
  | cons term terms ih =>
    obtain ⟨listed, alternative⟩ := ih (group.atom term)
    refine ⟨?_, alternative⟩
    rw [atoms, List.foldl_cons, ← atoms, listed]
    simp [OpenGroup.atom]

theorem read_word {reader : RegexReader} (plain : reader.mode = .plain) {word : Bytes} (ordinary : ∀ c ∈ word, Ordinary c) :
    word.foldlM RegexReader.next reader = some { reader with inner := atoms (word.map char) reader.inner } := by
  induction word generalizing reader with
  | nil => rfl
  | cons c word ih =>
    have after := @ih { reader with inner := reader.inner.atom (char c) } plain fun c member => ordinary c (by simp [member])
    rw [List.foldlM_cons, next_char plain (ordinary c (by simp)), Option.bind_eq_bind, Option.bind_some]
    exact after

theorem read_parameter (groups : Nat) (outer : List OpenGroup) (inner : OpenGroup) :
    (ascii "/([^/]+)").foldlM RegexReader.next ⟨groups, outer, inner, .plain⟩ =
      some ⟨groups + 1, outer, atoms [char (chr '/'), segmentGroup (groups + 1)] inner, .plain⟩ := by
  rfl

theorem read_segments (segments : List Segment) (groups : Nat) (outer : List OpenGroup) (inner : OpenGroup) :
    (segments.flatMap regexText).foldlM RegexReader.next ⟨groups, outer, inner, .plain⟩ =
      some ⟨groups + parameterCount segments, outer, atoms (terms groups segments) inner, .plain⟩ := by
  induction segments generalizing groups inner with
  | nil => rfl
  | cons segment segments ih =>
    rw [List.flatMap_cons, List.foldlM_append]
    cases segment with
    | literal name =>
      have ordinary : ∀ c ∈ chr '/' :: name.text, Ordinary c := by
        intro c member
        rcases List.mem_cons.mp member with rfl | member
        · exact ordinary_slash
        · exact ordinary_of_isNameChar (name.named c member)
      rw [regexText, read_word rfl ordinary, Option.bind_eq_bind, Option.bind_some, ih, terms, atoms_append]
      rfl
    | parameter name =>
      rw [regexText, read_parameter, Option.bind_eq_bind, Option.bind_some, ih, parameterCount, Nat.add_right_comm]
      rfl

/-- The whole expression. -/
def segmentPattern (segments : List Segment) : Regex UInt8 := all (.start :: terms 0 segments ++ [.finish])

theorem ofText_segments (segments : List Segment) :
    StdRegex.ofText (ascii "^" ++ segments.flatMap regexText ++ ascii "$") =
      some ⟨segmentPattern segments, parameterCount segments⟩ := by
  have opened : (ascii "^").foldlM RegexReader.next {} = some ⟨0, [], { terms := [.start] }, .plain⟩ := by rfl
  have closed : ∀ groups inner, (ascii "$").foldlM RegexReader.next ⟨groups, [], inner, .plain⟩ =
      some ⟨groups, [], inner.assertion .finish, .plain⟩ := fun _ _ => rfl
  obtain ⟨listed, alternative⟩ := atoms_terms (terms 0 segments) { terms := [.start] }
  have body : ((atoms (terms 0 segments) { terms := [.start] }).assertion .finish).body = segmentPattern segments := by
    simp [OpenGroup.body, OpenGroup.assertion, listed, alternative, segmentPattern]
  simp only [StdRegex.ofText, List.foldlM_append, opened, read_segments, closed, Option.bind_eq_bind, Option.bind_some]
  simp [body]

theorem convertToRegex_segments (segments : List Segment) : Router.convertToRegex (patternText segments) =
    some (StdRegex.regexMatch ⟨segmentPattern segments, parameterCount segments⟩) := by
  have replaced : StdRegex.regexReplace ⟨parameterPattern, 1⟩ (patternText segments) (ascii "/([^/]+)") =
      segments.flatMap regexText := replaceFrom_segments segments (Nat.lt_succ_self _)
  rw [Router.convertToRegex, ofText_parameter, Option.bind_eq_bind, Option.bind_some]
  simp only [replaced, ofText_segments]
  rfl

/-- The captures once further groups have been read. -/
def captured : Nat → List Bytes → (Nat → Option Bytes) → Nat → Option Bytes
  | _, [], captures => captures
  | groups, part :: parts, captures => captured (groups + 1) parts (Function.update captures (groups + 1) (some part))

theorem captured_before {groups number : Nat} (old : number ≤ groups) (parts : List Bytes) (captures : Nat → Option Bytes) :
    captured groups parts captures number = captures number := by
  induction parts generalizing groups captures with
  | nil => rfl
  | cons part parts ih =>
    rw [captured, ih (by omega), Function.update_of_ne (by omega)]

theorem captured_at (groups : Nat) {parts : List Bytes} {index : Nat} {part : Bytes} (there : parts[index]? = some part)
    (captures : Nat → Option Bytes) : captured groups parts captures (groups + 1 + index) = some part := by
  induction parts generalizing groups captures index with
  | nil => cases there
  | cons first parts ih =>
    rw [captured]
    cases index with
    | zero =>
      obtain rfl : first = part := by simpa using there
      rw [Nat.add_zero, captured_before (le_refl _), Function.update_self]
    | succ index =>
      have later := ih (groups + 1) (by simpa using there) (Function.update captures (groups + 1) (some first))
      rwa [show groups + 1 + (index + 1) = groups + 1 + 1 + index by omega]

theorem length_parameters {segments : List Segment} {parts : List Bytes} (takes : List.Forall₂ Takes segments parts) :
    (parameters segments parts).length = parameterCount segments := by
  induction takes with
  | nil => rfl
  | @cons segment part segments parts first rest ih =>
    cases segment with
    | literal name => exact ih
    | parameter name => exact congrArg (· + 1) ih

theorem mem_segmentGroup {number : Nat} {after : Place UInt8} : after ∈ (segmentGroup number).ways ⟨before, rest, captures⟩ ↔
    ∃ part left, rest = part ++ left ∧ (part ≠ [] ∧ chr '/' ∉ part) ∧
      after = ⟨before ++ part, left, Function.update captures number (some part)⟩ := by
  have others : ∀ part : Bytes, (∀ c ∈ part, accepts true [chr '/'] c) ↔ chr '/' ∉ part := by
    intro part
    simp only [accepts_except]
    exact ⟨fun all member => all _ member rfl, fun free c member same => free (same ▸ member)⟩
  simp only [segmentGroup, mem_group, ways_all_singleton, mem_plus_one, others]
  constructor
  · rintro ⟨inner, ⟨part, left, cut, nonempty, free, rfl⟩, rfl⟩
    exact ⟨part, left, cut, ⟨nonempty, free⟩, by simp [Place.capture]⟩
  · rintro ⟨part, left, cut, ⟨nonempty, free⟩, rfl⟩
    exact ⟨_, ⟨part, left, cut, nonempty, free, rfl⟩, by simp [Place.capture]⟩

/-- The terms read a path segment by segment. -/
theorem mem_terms {segments : List Segment} {groups : Nat} {after : Place UInt8} :
    after ∈ (all (terms groups segments)).ways ⟨before, rest, captures⟩ ↔
      ∃ parts left, rest = pathText parts ++ left ∧ List.Forall₂ Takes segments parts ∧
        after = ⟨before ++ pathText parts, left, captured groups (parameters segments parts) captures⟩ := by
  induction segments generalizing groups before rest captures with
  | nil =>
    have unfolded : (all (terms groups [])).ways ⟨before, rest, captures⟩ = [⟨before, rest, captures⟩] := rfl
    rw [unfolded, List.mem_singleton]
    constructor
    · rintro rfl
      exact ⟨[], rest, rfl, .nil, by simp [pathText, parameters, captured]⟩
    · rintro ⟨parts, left, cut, takes, rfl⟩
      cases takes
      obtain rfl : rest = left := cut
      simp [pathText, parameters, captured]
  | cons segment segments ih =>
    have text : ∀ part parts, pathText (part :: parts) = chr '/' :: part ++ pathText parts := fun _ _ => List.flatMap_cons
    cases segment with
    | literal name =>
      rw [terms, mem_word]
      simp only [ih]
      constructor
      · rintro ⟨rest', cut, parts, left, cut', takes, rfl⟩
        refine ⟨name.text :: parts, left, ?_, .cons rfl takes, ?_⟩
        · rw [text, List.append_assoc, cut, cut']
        · rw [text, List.append_assoc]
          rfl
      · rintro ⟨_, left, cut, takes, rfl⟩
        cases takes with
        | @cons _ part _ parts first takes =>
          obtain rfl : part = name.text := first
          refine ⟨pathText parts ++ left, ?_, parts, left, rfl, takes, ?_⟩
          · rw [cut, text, List.append_assoc]
          · rw [text, List.append_assoc]
            rfl
    | parameter name =>
      have slash := @mem_word UInt8 _ ⟨before, rest, captures⟩ after [chr '/'] (segmentGroup (groups + 1) :: terms (groups + 1) segments)
      rw [terms]
      refine slash.trans ?_
      simp only [ways_all_cons, List.mem_flatMap, mem_segmentGroup]
      constructor
      · rintro ⟨_, cut, _, ⟨part, rest', rfl, taken, rfl⟩, reached⟩
        obtain ⟨parts, left, cut', takes, rfl⟩ := ih.mp reached
        refine ⟨part :: parts, left, ?_, .cons taken takes, ?_⟩
        · rw [text, cut, cut']
          simp
        · rw [text]
          simp [parameters, captured]
      · rintro ⟨_, left, cut, takes, rfl⟩
        cases takes with
        | @cons _ part _ parts first takes =>
          refine ⟨part ++ (pathText parts ++ left), ?_, _, ⟨part, pathText parts ++ left, rfl, first, rfl⟩,
            ih.mpr ⟨parts, left, rfl, takes, ?_⟩⟩
          · rw [cut, text]
            simp
          · rw [text]
            simp [parameters, captured]

theorem mem_segmentPattern {segments : List Segment} {path : Bytes} {after : Place UInt8} :
    after ∈ (segmentPattern segments).ways { rest := path } ∧ after.rest = [] ↔
      ∃ parts, path = pathText parts ∧ List.Forall₂ Takes segments parts ∧
        after = ⟨path, [], captured 0 (parameters segments parts) fun _ => none⟩ := by
  have opened : (Regex.start : Regex UInt8).ways { rest := path } = [{ rest := path }] := rfl
  have closed : ∀ place : Place UInt8, after ∈ (all [.finish]).ways place ↔ place.rest = [] ∧ after = place := by
    intro place
    rw [ways_all_singleton, ways_finish]
    split <;> simp [*]
  rw [segmentPattern, List.cons_append, ways_all_cons, opened, List.flatMap_singleton, ways_all_append, List.mem_flatMap]
  simp only [mem_terms, closed]
  constructor
  · rintro ⟨⟨_, ⟨parts, left, cut, takes, rfl⟩, last, rfl⟩, -⟩
    obtain rfl : left = [] := last
    obtain rfl : path = pathText parts := by rw [cut, List.append_nil]
    exact ⟨parts, rfl, takes, rfl⟩
  · rintro ⟨parts, rfl, takes, rfl⟩
    exact ⟨⟨_, ⟨parts, [], (List.append_nil _).symm, takes, rfl⟩, rfl, rfl⟩, rfl⟩

theorem free_of_takes {segments : List Segment} {parts : List Bytes} (takes : List.Forall₂ Takes segments parts) :
    ∀ part ∈ parts, chr '/' ∉ part := by
  induction takes with
  | nil => simp
  | @cons segment part segments parts first _ ih =>
    have free : chr '/' ∉ part := by
      cases segment with
      | literal name =>
        obtain rfl : part = name.text := first
        exact name.free (by decide)
      | parameter name => exact first.2
    simpa using ⟨free, ih⟩

theorem takeWhile_part {part : Bytes} (free : chr '/' ∉ part) (parts : List Bytes) :
    (part ++ pathText parts).takeWhile (· != chr '/') = part := by
  have stops : (pathText parts).takeWhile (· != chr '/') = [] := by
    cases parts with
    | nil => rfl
    | cons next parts => simp [pathText]
  have others : ∀ c ∈ part, (c != chr '/') = true := fun c member => bne_iff_ne.mpr fun same => free (same ▸ member)
  rw [List.takeWhile_append_of_pos others, stops, List.append_nil]

/-- A path has one set of parts. -/
theorem pathText_injective {parts parts' : List Bytes} (free : ∀ part ∈ parts, chr '/' ∉ part)
    (free' : ∀ part ∈ parts', chr '/' ∉ part) (same : pathText parts = pathText parts') : parts = parts' := by
  induction parts generalizing parts' with
  | nil =>
    cases parts' with
    | nil => rfl
    | cons part parts' => cases same
  | cons part parts ih =>
    cases parts' with
    | nil => cases same
    | cons part' parts' =>
      have tails : part ++ pathText parts = part' ++ pathText parts' := (List.cons.inj same).2
      have first : part = part' := by
        rw [← takeWhile_part (free part (by simp)) parts, tails, takeWhile_part (free' part' (by simp)) parts']
      subst first
      have others := ih (fun part member => free part (by simp [member])) (fun part member => free' part (by simp [member]))
        (List.append_cancel_left tails)
      rw [others]

theorem regexMatch_iff {segments : List Segment} {path : Bytes} {groups : List Bytes} :
    StdRegex.regexMatch ⟨segmentPattern segments, parameterCount segments⟩ path = some groups ↔
      ∃ parts, path = pathText parts ∧ List.Forall₂ Takes segments parts ∧ groups = parameters segments parts := by
  have collected : ∀ parts, List.Forall₂ Takes segments parts →
      ((List.range (parameterCount segments)).map fun group =>
        (captured 0 (parameters segments parts) (fun _ => none) (group + 1)).getD []) = parameters segments parts := by
    intro parts takes
    refine List.ext_getElem (by simp [length_parameters takes]) fun index _ inside => ?_
    have there := captured_at 0 (List.getElem?_eq_getElem inside) fun _ => none
    rw [Nat.zero_add, Nat.add_comm] at there
    simp [there]
  have found : ∀ groups, StdRegex.regexMatch ⟨segmentPattern segments, parameterCount segments⟩ path = some groups →
      ∃ parts, path = pathText parts ∧ List.Forall₂ Takes segments parts ∧ groups = parameters segments parts := by
    intro groups matched
    obtain ⟨place, full, rfl⟩ := Option.map_eq_some_iff.mp matched
    have complete : place.rest = [] := by simpa using List.find?_some full
    obtain ⟨parts, cut, takes, rfl⟩ := mem_segmentPattern.mp ⟨List.mem_of_find?_eq_some full, complete⟩
    exact ⟨parts, cut, takes, collected parts takes⟩
  refine ⟨found groups, ?_⟩
  rintro ⟨parts, cut, takes, rfl⟩
  obtain ⟨way, -⟩ := mem_segmentPattern.mpr ⟨parts, cut, takes, rfl⟩
  have some_way : ((segmentPattern segments).fullMatch path).isSome :=
    List.find?_isSome.mpr ⟨_, way, by simp⟩
  obtain ⟨place, full⟩ := Option.isSome_iff_exists.mp some_way
  have matched : StdRegex.regexMatch ⟨segmentPattern segments, parameterCount segments⟩ path = some _ :=
    congrArg (Option.map _) full
  obtain ⟨parts', cut', takes', groups⟩ := found _ matched
  obtain rfl : parts = parts' := pathText_injective (free_of_takes takes) (free_of_takes takes') (cut.symm.trans cut')
  rw [matched, groups]

theorem convertToRegex_exact (segments : List Segment) : ∃ pathRegex, Router.convertToRegex (patternText segments) = some pathRegex ∧
    ∀ path, ((pathRegex path).isSome ↔ ∃ parts, path = pathText parts ∧ List.Forall₂ Takes segments parts) ∧
      ∀ groups, pathRegex path = some groups → ∀ parts, path = pathText parts → List.Forall₂ Takes segments parts →
        groups.length = (parameters segments parts).length ∧
          ∀ request index part, (parameters segments parts)[index]? = some part →
            (Router.extractPathParameters groups request).getPathParameters (paramName (index + 1)) = part := by
  refine ⟨_, convertToRegex_segments segments, fun path => ⟨?_, ?_⟩⟩
  · rw [Option.isSome_iff_exists]
    constructor
    · rintro ⟨groups, matched⟩
      obtain ⟨parts, cut, takes, -⟩ := regexMatch_iff.mp matched
      exact ⟨parts, cut, takes⟩
    · rintro ⟨parts, cut, takes⟩
      exact ⟨_, regexMatch_iff.mpr ⟨parts, cut, takes, rfl⟩⟩
  · intro groups matched parts cut takes
    have taken := regexMatch_iff.mpr ⟨parts, cut, takes, rfl⟩
    obtain rfl : groups = parameters segments parts := Option.some.inj (matched.symm.trans taken)
    refine ⟨rfl, fun request index part there => ?_⟩
    have bound := (extendedWith_extract (parameters segments parts) request).bound index part there
    rw [HttpRequest.getPathParameters, bound, Option.getD_some]

end

end HttpFramework.Http
