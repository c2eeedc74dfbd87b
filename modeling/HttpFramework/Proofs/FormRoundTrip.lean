import HttpFramework.Proofs.FormBounds
import HttpFramework.Proofs.PercentEncoding

/-! Which lists of pairs `ParseFromUrlencoded_` reads back from their form encoding. A byte that is
escaped is left as `%` and two more characters, and the last pair is passed over when its value
is empty. -/

namespace HttpFramework.Code
open Storage (hexDigit)

set_option maxRecDepth 4000

/-- A form encoding: the bytes that stand for themselves, and the case of its digits. -/
structure FormCode where
  plain : UInt8 → Bool
  upper : Bool
  ascii : ∀ c, plain c = true → c < 128
  apart : ∀ c, plain c = true → c ≠ chr ' ' ∧ c ≠ chr '=' ∧ c ≠ chr '+' ∧ c ≠ chr '%' ∧ c ≠ chr '&'

namespace FormCode

variable (code : FormCode)

def encode (c : UInt8) : Bytes :=
  if c = chr ' ' then [chr '+']
  else if code.plain c then [c]
  else [chr '%', hexDigit code.upper (c.toNat / 16), hexDigit code.upper (c.toNat % 16)]

def text (bytes : Bytes) : Bytes := bytes.flatMap code.encode

def pair (pair : Bytes × Bytes) : Bytes := code.text pair.1 ++ chr '=' :: code.text pair.2

def form (pairs : List (Bytes × Bytes)) : Bytes := [chr '&'].intercalate (pairs.map code.pair)

/-- No byte is escaped. -/
def Clean (bytes : Bytes) : Prop := ∀ c ∈ bytes, c = chr ' ' ∨ code.plain c = true

/-- What the loop leaves of an encoded byte. -/
def settle (c : UInt8) : Bytes :=
  if c = chr ' ' then [chr ' ']
  else if code.plain c then [c]
  else
    let num := HttpRequest.converHex (hexDigit code.upper (c.toNat / 16)) * 16 +
      HttpRequest.converHex (hexDigit code.upper (c.toNat % 16))
    [chr '%', HttpRequest.toChar (num.tdiv 10 + 48), HttpRequest.toChar (num.tmod 10 + 48)]

def settled (bytes : Bytes) : Bytes := bytes.flatMap code.settle

/-- The pairs behind the first one. -/
def tail (pairs : List (Bytes × Bytes)) : Bytes := pairs.flatMap fun pair => chr '&' :: code.pair pair

/-- What is kept of the pairs that have been read. -/
def stored (pairs : List (Bytes × Bytes)) : Dict :=
  (∅ : Dict).insertMany (pairs.map fun pair => (code.settled pair.1, code.settled pair.2))

variable {code} {bytes : Bytes} {pairs : List (Bytes × Bytes)}

instance : Decidable (code.Clean bytes) :=
  decidable_of_iff (bytes.all fun c => c = chr ' ' || code.plain c) (by simp [Clean])

theorem form_cons (pair : Bytes × Bytes) (pairs : List (Bytes × Bytes)) :
    code.form (pair :: pairs) = code.pair pair ++ code.tail pairs := by
  induction pairs generalizing pair with
  | nil => simp [form, tail, List.intercalate]
  | cons next pairs ih =>
    have rest := ih next
    simp only [form, tail, List.intercalate, List.map_cons, List.intersperse_cons_cons, List.flatten_cons, List.flatMap_cons] at rest ⊢
    rw [rest]
    simp

theorem length_settle (c : UInt8) : (code.settle c).length = (code.encode c).length := by
  rw [settle, encode]
  split
  · rfl
  · split <;> rfl

theorem length_settled (bytes : Bytes) : (code.settled bytes).length = (code.text bytes).length := by
  simp only [settled, text, List.length_flatMap, length_settle]

/-- Two bytes more for each that is escaped. -/
theorem length_text (bytes : Bytes) :
    (code.text bytes).length = bytes.length + 2 * bytes.countP fun c => !(c = chr ' ' || code.plain c) := by
  induction bytes with
  | nil => rfl
  | cons c rest ih =>
    rw [text, List.flatMap_cons, List.length_append, ← text, ih, encode, List.countP_cons, List.length_cons]
    by_cases blank : c = chr ' '
    · simp [blank]
      omega
    · by_cases plain : code.plain c = true
      · simp [blank, plain]
        omega
      · simp [blank, plain]
        omega

theorem settled_of_clean (clean : code.Clean bytes) : code.settled bytes = bytes := by
  induction bytes with
  | nil => rfl
  | cons c rest ih =>
    have single : code.settle c = [c] := by
      rw [settle]
      rcases clean c List.mem_cons_self with rfl | plain
      · rfl
      · split
        next blank => rw [blank]
        next => rfl
    rw [settled, List.flatMap_cons, single, ← settled, ih fun other member => clean other (List.mem_cons_of_mem _ member)]
    rfl

theorem length_lt_of_not_clean (escaped : ¬ code.Clean bytes) : bytes.length < (code.settled bytes).length := by
  have some : 0 < bytes.countP fun c => !(c = chr ' ' || code.plain c) := by
    simp only [Clean, not_forall] at escaped
    obtain ⟨c, member, apart⟩ := escaped
    exact List.countP_pos_iff.mpr ⟨c, member, by simpa using apart⟩
  rw [length_settled, length_text]
  omega

theorem clean_of_settled (same : code.settled bytes = bytes) : code.Clean bytes := by
  by_contra escaped
  have longer := length_lt_of_not_clean escaped
  rw [same] at longer
  exact Nat.lt_irrefl _ longer

/-- What is left to read of a text of which what has been read is a copy is at most twice that. -/
theorem length_left_le {known left : Bytes} (value : code.settled known = known ++ left) :
    (code.text left).length ≤ 2 * (code.settled known).length := by
  have whole := @length_text code (known ++ left)
  have most := @List.countP_le_length _ (fun c => !(decide (c = chr ' ') || code.plain c)) (known ++ left)
  rw [text, List.flatMap_append, ← text, ← text, List.length_append, ← length_settled known, ← value] at whole
  rw [← value] at most
  omega

theorem encode_ne_nil (c : UInt8) : code.encode c ≠ [] := by
  rw [encode]
  split
  · simp
  · split <;> simp

theorem eq_nil_of_text (none : code.text bytes = []) : bytes = [] := by
  cases bytes with
  | nil => rfl
  | cons c rest =>
    rw [text, List.flatMap_cons, List.append_eq_nil_iff] at none
    exact absurd none.1 (encode_ne_nil c)

theorem settled_append (first second : Bytes) : code.settled (first ++ second) = code.settled first ++ code.settled second :=
  List.flatMap_append

@[simp] theorem settled_nil : code.settled [] = [] := rfl

@[simp] theorem settled_singleton (c : UInt8) : code.settled [c] = code.settle c := List.flatMap_singleton _ _

@[simp] theorem text_nil : code.text [] = [] := rfl

theorem text_cons (c : UInt8) (bytes : Bytes) : code.text (c :: bytes) = code.encode c ++ code.text bytes := List.flatMap_cons

theorem stored_append (pairs : List (Bytes × Bytes)) (key value : Bytes) :
    code.stored (pairs ++ [(key, value)]) = (code.stored pairs).insert (code.settled key) (code.settled value) := by
  rw [stored, List.map_append, Std.ExtTreeMap.insertMany_append]
  exact Std.ExtTreeMap.insertMany_list_singleton

theorem mem_stored {key : Bytes} : key ∈ code.stored pairs ↔ ∃ pair ∈ pairs, code.settled pair.1 = key := by
  rw [stored, Std.ExtTreeMap.mem_insertMany_list]
  simp

theorem lookup_of_mem {pair : Bytes × Bytes} (distinct : (pairs.map Prod.fst).Nodup) (member : pair ∈ pairs) :
    pairs.lookup pair.1 = some pair.2 := by
  obtain ⟨before, after, rfl⟩ := List.append_of_mem member
  rw [List.lookup_eq_some_iff]
  refine ⟨before, after, rfl, ?_⟩
  intro other there
  rw [List.map_append, List.nodup_append] at distinct
  have apart := distinct.2.2 other.1 (List.mem_map_of_mem there) pair.1 (by simp)
  simpa using apart.symm

theorem stored_of_mem {pair : Bytes × Bytes} (distinct : (pairs.map Prod.fst).Nodup) (clean : ∀ pair ∈ pairs, code.Clean pair.1)
    (member : pair ∈ pairs) : (code.stored pairs)[pair.1]? = some (code.settled pair.2) := by
  have same : code.settled pair.1 = pair.1 := settled_of_clean (clean pair member)
  apply Std.ExtTreeMap.getElem?_insertMany_list_of_mem (Std.LawfulEqCmp.compare_eq_iff_eq.mpr same)
  · rw [List.pairwise_map]
    apply (List.pairwise_map.mp distinct).imp_of_mem
    intro first second here there apart equal
    rw [Std.LawfulEqCmp.compare_eq_iff_eq, settled_of_clean (clean first here), settled_of_clean (clean second there)] at equal
    exact apart equal
  · exact List.mem_map_of_mem member

/-- A list in which nothing is escaped is kept as it is. -/
theorem stored_of_clean (distinct : (pairs.map Prod.fst).Nodup) (clean : ∀ pair ∈ pairs, code.Clean pair.1 ∧ code.Clean pair.2)
    (key : Bytes) : (code.stored pairs)[key]? = pairs.lookup key := by
  by_cases there : ∃ pair ∈ pairs, pair.1 = key
  · obtain ⟨pair, member, rfl⟩ := there
    rw [stored_of_mem distinct (fun pair member => (clean pair member).1) member, settled_of_clean (clean pair member).2,
      lookup_of_mem distinct member]
  · have absent : key ∉ code.stored pairs := by
      intro member
      obtain ⟨pair, here, same⟩ := mem_stored.mp member
      exact there ⟨pair, here, by rw [← same, settled_of_clean (clean pair here).1]⟩
    rw [Std.ExtTreeMap.getElem?_eq_none absent, eq_comm, List.lookup_eq_none_iff]
    intro pair member
    simpa using fun same => there ⟨pair, member, same.symm⟩

/-- No pair that is still to be kept has its key there yet. -/
theorem later_unknown {before later : List (Bytes × Bytes)} {pair : Bytes × Bytes} (split : pairs = before ++ later)
    (distinct : (pairs.map Prod.fst).Nodup) (clean : ∀ pair ∈ pairs, code.Clean pair.1) (there : pair ∈ later) :
    pair ∈ pairs ∧ pair.1 ∉ code.stored before := by
  subst split
  refine ⟨List.mem_append_right _ there, fun stored => ?_⟩
  obtain ⟨other, here, same⟩ := mem_stored.mp stored
  rw [settled_of_clean (clean other (List.mem_append_left _ here))] at same
  rw [List.map_append, List.nodup_append] at distinct
  exact distinct.2.2 _ (List.mem_map_of_mem here) _ (List.mem_map_of_mem there) same

/-- Nothing can be behind a pair whose insertion is the last. -/
theorem last_of_kept {before after : List (Bytes × Bytes)} {key value kept : Bytes}
    (distinct : (((key, value) :: after).map Prod.fst).Nodup) (unknown : ∀ pair ∈ after, pair.1 ∉ code.stored before)
    (present : ∀ pair ∈ after, pair.1 ∈ (code.stored before).insert key kept) : after = [] := by
  cases after with
  | nil => rfl
  | cons pair after =>
    exfalso
    rcases Std.ExtTreeMap.mem_insert.mp (present pair List.mem_cons_self) with equal | stored
    · rw [List.map_cons, List.map_cons, List.nodup_cons, Std.LawfulEqCmp.eq_of_compare equal] at distinct
      exact distinct.1 List.mem_cons_self
    · exact unknown pair List.mem_cons_self stored

/-- The values before the last insertion are what the loop has left of them. -/
theorem clean_of_kept {before : List (Bytes × Bytes)} {key value kept : Bytes}
    (distinct : ((before ++ [(key, value)]).map Prod.fst).Nodup) (clean : ∀ pair ∈ before, code.Clean pair.1)
    (reads : ∀ pair ∈ before, ((code.stored before).insert key kept)[pair.1]? = some pair.2) :
    ∀ pair ∈ before, code.Clean pair.2 := by
  intro pair there
  have read := reads pair there
  rw [List.map_append, List.nodup_append] at distinct
  obtain ⟨distinct, _, apart⟩ := distinct
  have other : key ≠ pair.1 := (apart pair.1 (List.mem_map_of_mem there) key (by simp)).symm
  rw [Std.ExtTreeMap.getElem?_insert, if_neg (fun equal => other (Std.LawfulEqCmp.eq_of_compare equal)),
    stored_of_mem distinct clean there, Option.some_inj] at read
  exact clean_of_settled read

/-- Where every key is what the loop leaves of one, none is escaped: a shortest one that is would be
left of a shorter one. -/
theorem clean_of_settled_keys (found : ∀ pair ∈ pairs, ∃ other ∈ pairs, code.settled other.1 = pair.1) :
    ∀ pair ∈ pairs, code.Clean pair.1 := by
  suffices shorter : ∀ length, ∀ pair ∈ pairs, pair.1.length ≤ length → code.Clean pair.1 from
    fun pair member => shorter _ pair member (Nat.le_refl _)
  intro length
  induction length with
  | zero =>
    intro pair _ short c member
    rw [List.eq_nil_of_length_eq_zero (Nat.le_zero.mp short)] at member
    cases member
  | succ length ih =>
    intro pair member short
    obtain ⟨other, there, same⟩ := found pair member
    have clean : code.Clean other.1 := by
      by_contra escaped
      have longer := length_lt_of_not_clean escaped
      rw [same] at longer
      exact escaped (ih other there (by omega))
    rwa [← same, settled_of_clean clean]

end FormCode

namespace HttpRequest

namespace Scan

variable {code : FormCode} {pairs : List (Bytes × Bytes)} {scan next : Scan} {post : Dict} {name : Bytes} {j : Nat}

theorem step_overflow (large : 2 ^ 31 ≤ scan.i) : scan.step = .error .outside := by
  rw [step, char?, if_neg (not_lt.mpr large)]

theorem char?_ahead {done ahead rest : Bytes} {k : Nat} (body : scan.body = done ++ (ahead ++ rest))
    (small : done.length + k < 2 ^ 31) (there : k < ahead.length) : scan.char? (done.length + k) = ahead[k]? := by
  rw [char?_of_lt small, body, List.getElem?_append_right (Nat.le_add_right _ _), Nat.add_sub_cancel_left,
    List.getElem?_append_left there]

theorem step_plain {done rest : Bytes} {ch : UInt8} (small : done.length < 2 ^ 31)
    (plain : ch ≠ chr '=' ∧ ch ≠ chr '+' ∧ ch ≠ chr '%' ∧ ch ≠ chr '&') :
    step { body := done ++ ch :: rest, i := done.length, j, key := name, post } =
      .ok { body := done ++ ch :: rest, i := done.length + 1, j, key := name, post } := by
  have found : char? { body := done ++ ch :: rest, i := done.length, j, key := name, post } done.length = some ch :=
    @char?_ahead _ done [ch] rest 0 rfl small (Nat.zero_lt_one)
  rw [step, found]
  simp only [plain, if_false]

theorem step_plus {done rest : Bytes} (small : done.length < 2 ^ 31) :
    step { body := done ++ chr '+' :: rest, i := done.length, j, key := name, post } =
      .ok { body := done ++ chr ' ' :: rest, i := done.length + 1, j, key := name, post } := by
  have found : char? { body := done ++ chr '+' :: rest, i := done.length, j, key := name, post } done.length = some (chr '+') :=
    @char?_ahead _ done [chr '+'] rest 0 rfl small (Nat.zero_lt_one)
  have apart : chr '+' ≠ chr '=' := by decide
  rw [step, found]
  simp [apart]

theorem step_percent {done rest : Bytes} {high low : UInt8} (small : done.length + 2 < 2 ^ 31) :
    step { body := done ++ chr '%' :: high :: low :: rest, i := done.length, j, key := name, post } =
      .ok { body := done ++ chr '%' :: toChar ((converHex high * 16 + converHex low).tdiv 10 + 48) ::
              toChar ((converHex high * 16 + converHex low).tmod 10 + 48) :: rest,
            i := done.length + 3, j, key := name, post } := by
  have ahead : ∀ k, k < 3 → char? { body := done ++ chr '%' :: high :: low :: rest, i := done.length, j, key := name, post }
      (done.length + k) = [chr '%', high, low][k]? :=
    fun k below => @char?_ahead _ done [chr '%', high, low] rest k rfl (by omega) below
  have here : char? { body := done ++ chr '%' :: high :: low :: rest, i := done.length, j, key := name, post } done.length =
      some (chr '%') := ahead 0 (by decide)
  have apart : chr '%' ≠ chr '=' ∧ chr '%' ≠ chr '+' := by decide
  rw [step, here, ahead 1 (by decide), ahead 2 (by decide)]
  simp [apart]

/-- The second character behind the `%` is out of reach. -/
theorem step_percent_out {done rest : Bytes} {high low : UInt8} (large : 2 ^ 31 ≤ done.length + 2) :
    step { body := done ++ chr '%' :: high :: low :: rest, i := done.length, j, key := name, post } = .error .outside := by
  by_cases small : done.length < 2 ^ 31
  · have found : char? { body := done ++ chr '%' :: high :: low :: rest, i := done.length, j, key := name, post } done.length =
        some (chr '%') := @char?_ahead _ done [chr '%'] (high :: low :: rest) 0 rfl small (Nat.zero_lt_one)
    have out : ∀ scan : Scan, scan.char? (done.length + 2) = none := fun scan => if_neg (not_lt.mpr large)
    have apart : chr '%' ≠ chr '=' ∧ chr '%' ≠ chr '+' := by decide
    rw [step, found]
    simp [apart, out]
  · exact step_overflow (not_lt.mp small)

theorem step_equals {front text rest : Bytes} (small : (front ++ text).length < 2 ^ 31) :
    step { body := front ++ text ++ chr '=' :: rest, i := (front ++ text).length, j := front.length, key := name, post } =
      .ok { body := front ++ text ++ chr '=' :: rest, i := (front ++ text).length + 1, j := (front ++ text).length + 1,
            key := text, post } := by
  have found : char? { body := front ++ text ++ chr '=' :: rest, i := (front ++ text).length, j := front.length, key := name, post }
      (front ++ text).length = some (chr '=') :=
    @char?_ahead _ (front ++ text) [chr '='] rest 0 rfl small (Nat.zero_lt_one)
  rw [step, found]
  simp [slice]

theorem step_ampersand {front text rest : Bytes} (small : (front ++ text).length < 2 ^ 31) :
    step { body := front ++ text ++ chr '&' :: rest, i := (front ++ text).length, j := front.length, key := name, post } =
      .ok { body := front ++ text ++ chr '&' :: rest, i := (front ++ text).length + 1, j := (front ++ text).length + 1,
            key := name, post := post.insert name text } := by
  have found : char? { body := front ++ text ++ chr '&' :: rest, i := (front ++ text).length, j := front.length, key := name, post }
      (front ++ text).length = some (chr '&') :=
    @char?_ahead _ (front ++ text) [chr '&'] rest 0 rfl small (Nat.zero_lt_one)
  have apart : chr '&' ≠ chr '=' ∧ chr '&' ≠ chr '+' ∧ chr '&' ≠ chr '%' := by decide
  rw [step, found]
  simp [slice, apart]

/-- The round on an encoded byte, unless it would pass the greatest `int`. -/
theorem step_byte (code : FormCode) (c : UInt8) (done rest : Bytes) :
    (done.length + (code.encode c).length ≤ 2 ^ 31 →
      step { body := done ++ (code.encode c ++ rest), i := done.length, j, key := name, post } =
        .ok { body := done ++ (code.settle c ++ rest), i := done.length + (code.encode c).length, j, key := name, post }) ∧
      (2 ^ 31 < done.length + (code.encode c).length →
        step { body := done ++ (code.encode c ++ rest), i := done.length, j, key := name, post } = .error .outside) := by
  rw [FormCode.encode, FormCode.settle]
  by_cases blank : c = chr ' '
  · rw [if_pos blank, if_pos blank]
    exact ⟨fun fits => step_plus fits, fun overflows => step_overflow (Nat.lt_succ_iff.mp overflows)⟩
  · rw [if_neg blank, if_neg blank]
    by_cases plain : code.plain c = true
    · rw [if_pos plain, if_pos plain]
      obtain ⟨_, equals, plus, percent, ampersand⟩ := code.apart c plain
      exact ⟨fun fits => step_plain fits ⟨equals, plus, percent, ampersand⟩,
        fun overflows => step_overflow (Nat.lt_succ_iff.mp overflows)⟩
    · rw [if_neg plain, if_neg plain]
      refine ⟨fun fits => step_percent fits, fun overflows => ?_⟩
      simp only [List.length_cons, List.length_nil] at overflows
      exact step_percent_out (by omega)

/-- A round goes from one to the other, unless it would pass the greatest `int`. -/
structure Advances (scan next : Scan) : Prop where
  length : next.body.length = scan.body.length
  forward : scan.i < next.i
  near : next.i ≤ scan.i + 3
  fits : next.i ≤ 2 ^ 31 → scan.step = .ok next
  passes : 2 ^ 31 < next.i → scan.step = .error .outside

theorem advances_text (code : FormCode) (front known : Bytes) (c : UInt8) (left rest : Bytes) :
    Advances
      { body := front ++ code.settled known ++ (code.text (c :: left) ++ rest), i := (front ++ code.settled known).length, j,
        key := name, post }
      { body := front ++ code.settled (known ++ [c]) ++ (code.text left ++ rest),
        i := (front ++ code.settled (known ++ [c])).length, j, key := name, post } := by
  have read : front ++ code.settled (known ++ [c]) = front ++ code.settled known ++ code.settle c := by
    rw [FormCode.settled_append, ← List.append_assoc, FormCode.settled_singleton]
  have ahead : code.text (c :: left) ++ rest = code.encode c ++ (code.text left ++ rest) := by
    rw [FormCode.text_cons, List.append_assoc]
  have width := @FormCode.length_settle code c
  obtain ⟨fits, passes⟩ := @step_byte post name j code c (front ++ code.settled known) (code.text left ++ rest)
  have index : (front ++ code.settled known ++ code.settle c).length =
      (front ++ code.settled known).length + (code.encode c).length := by rw [List.length_append, width]
  rw [read, ahead, List.append_assoc _ (code.settle c), index]
  refine ⟨?_, ?_, ?_, fits, passes⟩
  · simp only [List.length_append, width]
  · exact Nat.lt_add_of_pos_right (List.length_pos_of_ne_nil (FormCode.encode_ne_nil c))
  · simp only [Nat.add_le_add_iff_left, FormCode.encode]
    split
    · decide
    · split <;> simp

theorem advances_equals (front text rest : Bytes) :
    Advances
      { body := front ++ text ++ chr '=' :: rest, i := (front ++ text).length, j := front.length, key := name, post }
      { body := front ++ text ++ chr '=' :: rest, i := (front ++ text).length + 1, j := (front ++ text).length + 1,
        key := text, post } where
  length := rfl
  forward := Nat.lt_succ_self _
  near := Nat.add_le_add_left (by decide) _
  fits small := step_equals small
  passes large := step_overflow (Nat.lt_succ_iff.mp large)

theorem advances_ampersand (front text rest : Bytes) :
    Advances
      { body := front ++ text ++ chr '&' :: rest, i := (front ++ text).length, j := front.length, key := name, post }
      { body := front ++ text ++ chr '&' :: rest, i := (front ++ text).length + 1, j := (front ++ text).length + 1,
        key := name, post := post.insert name text } where
  length := rfl
  forward := Nat.lt_succ_self _
  near := Nat.add_le_add_left (by decide) _
  fits small := step_ampersand small
  passes large := step_overflow (Nat.lt_succ_iff.mp large)

/-- Where the loop stands in the encoding of the pairs: within a key or within a value. -/
inductive Reached (code : FormCode) (pairs : List (Bytes × Bytes)) : Scan → Prop where
  | key {before after known left value front name} (split : pairs = before ++ (known ++ left, value) :: after)
      (earlier : name = [] ∨ name ∈ code.stored before) :
      Reached code pairs
        { body := front ++ code.settled known ++ (code.text left ++ chr '=' :: (code.text value ++ code.tail after)),
          i := (front ++ code.settled known).length, j := front.length, key := name, post := code.stored before }
  | value {before after key known left front} (split : pairs = before ++ (key, known ++ left) :: after) (begun : front ≠ []) :
      Reached code pairs
        { body := front ++ code.settled known ++ (code.text left ++ code.tail after),
          i := (front ++ code.settled known).length, j := front.length, key := code.settled key, post := code.stored before }

theorem Reached.inside (reached : Reached code pairs scan) : scan.j ≤ scan.i ∧ scan.i ≤ scan.body.length := by
  cases reached <;> simp only [List.length_append] <;> omega

theorem Reached.step (reached : Reached code pairs scan) (more : scan.i < scan.body.length) :
    ∃ next, Reached code pairs next ∧ Advances scan next := by
  cases reached with
  | @key before after known left value front name split earlier =>
    cases left with
    | cons c left => exact ⟨_, .key (by rw [split, List.append_assoc]; rfl) earlier, advances_text code front known c left _⟩
    | nil =>
      rw [List.append_nil] at split
      refine ⟨_, ?_, advances_equals front (code.settled known) _⟩
      have next := @Reached.value code pairs before after known [] value (front ++ code.settled known ++ [chr '=']) split (by simp)
      simpa [Nat.add_assoc] using next
  | @value before after key known left front split begun =>
    cases left with
    | cons c left => exact ⟨_, .value (by rw [split, List.append_assoc]; rfl) begun, advances_text code front known c left _⟩
    | nil =>
      rw [List.append_nil] at split
      cases after with
      | nil => simp [FormCode.tail] at more
      | cons pair after =>
        refine ⟨_, ?_, advances_ampersand front (code.settled known) (code.pair pair ++ code.tail after)⟩
        have again : pairs = (before ++ [(key, known)]) ++ ([] ++ pair.1, pair.2) :: after := by rw [split]; simp
        have next := @Reached.key code pairs (before ++ [(key, known)]) after [] pair.1 pair.2
          (front ++ code.settled known ++ [chr '&']) (code.settled key) again
          (.inr (FormCode.mem_stored.mpr ⟨_, List.mem_append_right _ (List.mem_singleton_self _), rfl⟩))
        rw [FormCode.stored_append] at next
        simpa [FormCode.pair, Nat.add_assoc] using next

/-- The loop stops at most two characters behind `n`, or fails on a position that is no `int`. -/
theorem Reached.run {n : Int} {fuel : Nat} (reached : Reached code pairs scan) (enough : n.toNat < scan.i + fuel)
    (small : scan.i < 2 ^ 31) (near : scan.i ≤ n.toNat + 2) (inside : n.toNat ≤ scan.body.length) :
    (Scan.run n fuel scan = .error .outside ∧ 2 ^ 31 ≤ scan.body.length) ∨
      ∃ final, Scan.run n fuel scan = .ok final ∧ Reached code pairs final ∧ final.body.length = scan.body.length ∧
        n ≤ final.i ∧ final.i ≤ n.toNat + 2 ∧ final.i < 2 ^ 31 := by
  induction fuel generalizing scan with
  | zero => exact .inr ⟨scan, rfl, reached, rfl, by omega, near, small⟩
  | succ fuel ih =>
    have here := toInt_of_lt small
    by_cases going : toInt scan.i < n
    · rw [Scan.run, if_pos going]
      obtain ⟨next, reached', advances⟩ := reached.step (by omega)
      have forward := advances.forward
      have close := advances.near
      have within := advances.length ▸ reached'.inside.2
      rcases Nat.lt_trichotomy next.i (2 ^ 31) with less | same | more
      · rw [advances.fits less.le]
        have rest := ih reached' (by omega) less (by omega) (advances.length ▸ inside)
        rw [advances.length] at rest
        exact rest
      · left
        obtain ⟨fuel, rfl⟩ := Nat.exists_eq_add_of_lt (show 0 < fuel by omega)
        have negative := @toInt_neg next.i (by omega) (by omega)
        have again : Scan.run n (0 + fuel + 1) next = .error .outside := by
          rw [Scan.run, if_pos (by omega), step_overflow (by omega)]
          rfl
        rw [advances.fits same.le]
        exact ⟨again, by omega⟩
      · rw [advances.passes more]
        exact .inl ⟨rfl, by omega⟩
    · rw [Scan.run, if_neg going]
      exact .inr ⟨scan, rfl, reached, rfl, by omega, near, small⟩

theorem reached_start (code : FormCode) (pair : Bytes × Bytes) (pairs : List (Bytes × Bytes)) :
    Reached code (pair :: pairs) { body := code.form (pair :: pairs), post := ∅ } := by
  have start := @Reached.key code (pair :: pairs) [] pairs [] pair.1 pair.2 [] [] rfl (.inl rfl)
  have empty : code.stored [] = ∅ := Std.ExtTreeMap.insertMany_nil
  rw [empty] at start
  simpa [FormCode.form_cons, FormCode.pair] using start

/-- What `post_` is after the loop. -/
def finished (scan : Scan) : Dict :=
  if ¬ scan.post.contains scan.key ∧ scan.j < scan.i then scan.post.insert scan.key scan.slice else scan.post

theorem slice_eq (front text rest : Bytes) :
    slice { body := front ++ text ++ rest, i := (front ++ text).length, j := front.length, key := name, post } = text := by
  simp [slice]

theorem finished_eq (front text rest : Bytes) :
    finished { body := front ++ text ++ rest, i := (front ++ text).length, j := front.length, key := name, post } =
      if name ∉ post ∧ text ≠ [] then post.insert name text else post := by
  have length : front.length < (front ++ text).length ↔ text ≠ [] := by
    rw [List.length_append, Nat.lt_add_right_iff_pos, List.length_pos_iff]
  simp only [finished, slice_eq, length]
  rfl

/-- Only keys of the pairs are kept, and the empty one. -/
theorem Reached.mem_finished (reached : Reached code pairs scan) {key : Bytes} (member : key ∈ scan.finished) (named : key ≠ []) :
    ∃ pair ∈ pairs, code.settled pair.1 = key := by
  have earlier : ∀ {before rest : List (Bytes × Bytes)}, pairs = before ++ rest → key ∈ code.stored before →
      ∃ pair ∈ pairs, code.settled pair.1 = key := by
    intro before rest split member
    obtain ⟨pair, there, same⟩ := FormCode.mem_stored.mp member
    exact ⟨pair, by rw [split]; exact List.mem_append_left _ there, same⟩
  rw [finished] at member
  cases reached with
  | @key before _ _ _ _ _ name split known =>
    split at member
    next fresh =>
      rcases known with rfl | stored
      · rcases Std.ExtTreeMap.mem_insert.mp member with same | there
        · exact absurd (Std.LawfulEqCmp.eq_of_compare same).symm named
        · exact earlier split there
      · exact absurd stored fresh.1
    next => exact earlier split member
  | @value before after key' known left _ split _ =>
    split at member
    next =>
      rcases Std.ExtTreeMap.mem_insert.mp member with same | there
      · refine ⟨(key', known ++ left), ?_, Std.LawfulEqCmp.eq_of_compare same⟩
        rw [split]
        exact List.mem_append_right _ List.mem_cons_self
      · exact earlier split there
    next => exact earlier split member

/-- The key that the loop stands in is not kept. -/
theorem key_not_kept {before : List (Bytes × Bytes)} {key : Bytes} (post : scan.post = code.stored before)
    (earlier : scan.key = [] ∨ scan.key ∈ code.stored before) (named : key ≠ []) (unknown : key ∉ code.stored before) :
    key ∉ scan.finished := by
  intro member
  rw [finished, post] at member
  split at member
  next fresh =>
    rcases earlier with blank | stored
    · rcases Std.ExtTreeMap.mem_insert.mp member with same | there
      · exact named ((Std.LawfulEqCmp.eq_of_compare same).symm.trans blank)
      · exact unknown there
    · exact fresh.1 stored
  next => exact unknown member

/-- A scan that has kept the pairs stands in the last value, and has kept nothing escaped. -/
theorem Reached.of_reads (reached : Reached code pairs scan) (distinct : (pairs.map Prod.fst).Nodup)
    (named : ∀ pair ∈ pairs, pair.1 ≠ []) (reads : ∀ key, scan.finished[key]? = pairs.lookup key) :
    (∀ pair ∈ pairs, code.Clean pair.1) ∧ ∃ before key known left,
      pairs = before ++ [(key, known ++ left)] ∧ code.settled known = known ++ left ∧ known ≠ [] ∧
        (∀ pair ∈ before, code.Clean pair.2) ∧ 0 < scan.j ∧ scan.i = scan.j + (code.settled known).length ∧
        scan.body.length = scan.i + (code.text left).length := by
  have kept : ∀ pair ∈ pairs, scan.finished[pair.1]? = some pair.2 := by
    intro pair member
    rw [reads, FormCode.lookup_of_mem distinct member]
  have present : ∀ pair ∈ pairs, pair.1 ∈ scan.finished := by
    intro pair member
    rw [Std.ExtTreeMap.mem_iff_isSome_getElem?, kept pair member]
    rfl
  have clean : ∀ pair ∈ pairs, code.Clean pair.1 := by
    apply FormCode.clean_of_settled_keys
    intro pair member
    exact reached.mem_finished (present pair member) (named pair member)
  refine ⟨clean, ?_⟩
  cases reached with
  | @key before after known left value front name split earlier =>
    obtain ⟨here, unknown⟩ := FormCode.later_unknown split distinct clean List.mem_cons_self
    exact absurd (present _ here) (key_not_kept rfl earlier (named _ here) unknown)
  | @value before after key known left front split begun =>
    obtain ⟨here, unknown⟩ := FormCode.later_unknown split distinct clean List.mem_cons_self
    have same : code.settled key = key := FormCode.settled_of_clean (clean _ here)
    rw [finished_eq, same] at kept present
    -- Without the insertion behind the loop the key would not be there.
    have inserts : key ∉ code.stored before ∧ code.settled known ≠ [] := by
      by_contra absent
      rw [if_neg absent] at present
      exact unknown (present _ here)
    rw [if_pos inserts] at kept present
    have behind : ((((key, known ++ left) :: after).map Prod.fst)).Nodup := by
      rw [split, List.map_append] at distinct
      exact distinct.of_append_right
    have later := fun pair there =>
      @FormCode.later_unknown code _ before _ pair split distinct clean (List.mem_cons_of_mem _ there)
    obtain rfl : after = [] :=
      FormCode.last_of_kept behind (fun pair there => (later pair there).2) fun pair there => present pair (later pair there).1
    have earlier : ∀ pair ∈ before, pair ∈ pairs := by
      intro pair there
      rw [split]
      exact List.mem_append_left _ there
    have value : code.settled known = known ++ left := by
      have read := kept _ here
      rwa [Std.ExtTreeMap.getElem?_insert_self, Option.some_inj] at read
    refine ⟨before, key, known, left, split, value, ?_, ?_, List.length_pos_of_ne_nil begun, List.length_append, ?_⟩
    · rintro rfl
      exact inserts.2 rfl
    · exact FormCode.clean_of_kept (split ▸ distinct) (fun pair there => clean pair (earlier pair there))
        fun pair there => kept pair (earlier pair there)
    · simp [FormCode.tail, Nat.add_assoc]

/-- The end of a body in which nothing is escaped. -/
theorem Reached.stored_all (reached : Reached code pairs scan) (ended : scan.body.length ≤ scan.i)
    (distinct : (pairs.map Prod.fst).Nodup) (clean : ∀ pair ∈ pairs, code.Clean pair.1 ∧ code.Clean pair.2)
    (last : ∀ pair, pairs.getLast? = some pair → pair.2 ≠ []) : scan.finished = code.stored pairs := by
  cases reached with
  | key => simp at ended
  | @value before after key known left front split begun =>
    simp only [List.length_append] at ended
    obtain rfl : left = [] := @FormCode.eq_nil_of_text code _ (List.eq_nil_of_length_eq_zero (by omega))
    obtain rfl : after = [] := by
      cases after with
      | nil => rfl
      | cons pair after => simp [FormCode.tail] at ended
    rw [List.append_nil] at split
    have here : (key, known) ∈ pairs := by
      rw [split]
      exact List.mem_append_right _ List.mem_cons_self
    have same := FormCode.settled_of_clean (clean _ here).1
    have value := FormCode.settled_of_clean (clean _ here).2
    have filled : known ≠ [] := last (key, known) (by rw [split]; simp)
    have unknown : key ∉ code.stored before :=
      (FormCode.later_unknown split distinct (fun pair there => (clean pair there).1) List.mem_cons_self).2
    rw [finished_eq, split, FormCode.stored_append, same, value, if_pos ⟨unknown, filled⟩]

/-- Where the loop has stopped it has kept the pairs exactly when nothing in them is escaped, the last
value is not empty, and an `int` holds the length of the body. -/
theorem Reached.reads_iff {length : Nat} (reached : Reached code pairs scan) (size : scan.body.length = length)
    (passed : toInt length ≤ scan.i) (near : scan.i ≤ (toInt length).toNat + 2) (small : scan.i < 2 ^ 31)
    (distinct : (pairs.map Prod.fst).Nodup) (named : ∀ pair ∈ pairs, pair.1 ≠ []) :
    (∀ key, scan.finished[key]? = pairs.lookup key) ↔
      length < 2 ^ 31 ∧ (∀ pair ∈ pairs, code.Clean pair.1 ∧ code.Clean pair.2) ∧
        ∀ pair, pairs.getLast? = some pair → pair.2 ≠ [] := by
  constructor
  · intro reads
    obtain ⟨clean, before, key, known, left, split, value, filled, first, begun, index, ahead⟩ :=
      reached.of_reads distinct named reads
    have within := FormCode.length_left_le value
    have short : length < 2 ^ 31 := by
      by_contra long
      have shift := toInt_large (not_lt.mp long)
      omega
    rw [toInt_of_lt short] at passed
    obtain rfl : left = [] := @FormCode.eq_nil_of_text code _ (List.eq_nil_of_length_eq_zero (by omega))
    rw [List.append_nil] at split value
    refine ⟨short, ?_, ?_⟩
    · intro pair there
      refine ⟨clean pair there, ?_⟩
      rw [split] at there
      rcases List.mem_append.mp there with earlier | here
      · exact first pair earlier
      · cases List.mem_singleton.mp here
        exact FormCode.clean_of_settled value
    · intro pair last
      rw [split, List.getLast?_concat] at last
      cases last
      exact filled
  · intro condition key
    obtain ⟨short, clean, last⟩ := condition
    rw [toInt_of_lt short] at passed
    rw [reached.stored_all (by rw [size]; exact Int.ofNat_le.mp passed) distinct clean last,
      FormCode.stored_of_clean distinct clean]

end Scan

variable {code : FormCode} {pairs : List (Bytes × Bytes)}

theorem parseFromUrlencoded_of_run {request : HttpRequest} {scan : Scan} (present : request.body ≠ [])
    (ran : Scan.run (toInt request.body.length) ((toInt request.body.length).toNat + 1)
      { body := request.body, post := request.post } = .ok scan) (order : scan.j ≤ scan.i) :
    request.parseFromUrlencoded = .ok { request with body := scan.body, post := scan.finished } := by
  rw [parseFromUrlencoded, if_neg present]
  simp only [ran]
  refine (if_pos order).trans ?_
  rw [Scan.finished]
  split <;> rfl

theorem parseFromUrlencoded_of_error {request : HttpRequest} {fault : Fault} (present : request.body ≠ [])
    (ran : Scan.run (toInt request.body.length) ((toInt request.body.length).toNat + 1)
      { body := request.body, post := request.post } = .error fault) : request.parseFromUrlencoded = .error fault := by
  rw [parseFromUrlencoded, if_neg present]
  simp only [ran]
  rfl

/-- The pairs are in `post_` as a map. -/
def ReadsBack (request : HttpRequest) (pairs : List (Bytes × Bytes)) : Prop :=
  ∃ next, request.parseFromUrlencoded = .ok next ∧ ∀ key, next.post[key]? = pairs.lookup key

/-- A list of pairs is read back from its encoding exactly when it is empty, or nothing in it is
escaped, its last value is not empty, and an `int` holds the length of the encoding. -/
theorem parseFromUrlencoded_reads_back_iff (request : HttpRequest) (code : FormCode) (pairs : List (Bytes × Bytes))
    (distinct : (pairs.map Prod.fst).Nodup) (named : ∀ pair ∈ pairs, pair.1 ≠ []) :
    ReadsBack { request with body := code.form pairs, post := ∅ } pairs ↔
      pairs = [] ∨ (code.form pairs).length < 2 ^ 31 ∧ (∀ pair ∈ pairs, code.Clean pair.1 ∧ code.Clean pair.2) ∧
        ∀ pair, pairs.getLast? = some pair → pair.2 ≠ [] := by
  cases pairs with
  | nil =>
    refine iff_of_true ⟨{ request with body := [], post := ∅ }, rfl, fun key => ?_⟩ (.inl rfl)
    exact Std.ExtTreeMap.getElem?_empty
  | cons pair rest =>
    have present : code.form (pair :: rest) ≠ [] := by
      rw [FormCode.form_cons, FormCode.pair]
      simp
    have outcome := @Scan.Reached.run _ _ _ (toInt (code.form (pair :: rest)).length)
      ((toInt (code.form (pair :: rest)).length).toNat + 1) (Scan.reached_start code pair rest) (by simp) (by simp) (by simp)
      (toInt_toNat_le _)
    generalize shape : ({ request with body := code.form (pair :: rest), post := ∅ } : HttpRequest) = posted
    have body : posted.body = code.form (pair :: rest) := by rw [← shape]
    have post : posted.post = ∅ := by rw [← shape]
    rw [← body] at present outcome ⊢
    rw [← post] at outcome
    rcases outcome with ⟨failed, long⟩ | ⟨scan, ran, reached, length, passed, near, small⟩
    · refine iff_of_false ?_ ?_
      · rintro ⟨next, parsed, _⟩
        rw [parseFromUrlencoded_of_error present failed] at parsed
        cases parsed
      · rintro (none | ⟨short, _⟩)
        · cases none
        · exact absurd short (not_lt.mpr long)
    · have parsed := parseFromUrlencoded_of_run present ran reached.inside.1
      rw [or_iff_right (List.cons_ne_nil _ _), ← reached.reads_iff length passed near small distinct named]
      constructor
      · rintro ⟨next, parsed', reads⟩
        cases parsed.symm.trans parsed'
        exact reads
      · intro reads
        exact ⟨_, parsed, reads⟩

theorem usual_plain (c : UInt8) (plain : (Storage.isLetterOrDigit c || (ascii "*-._").contains c) = true) :
    c < 128 ∧ c ≠ chr ' ' ∧ c ≠ chr '=' ∧ c ≠ chr '+' ∧ c ≠ chr '%' ∧ c ≠ chr '&' := by
  have others : ∀ d ∈ ascii " =+%&", (Storage.isLetterOrDigit d || (ascii "*-._").contains d) = false := by decide
  have apart : ∀ d ∈ ascii " =+%&", c ≠ d := by
    rintro d member rfl
    rw [others c member] at plain
    cases plain
  refine ⟨?_, apart _ (by decide), apart _ (by decide), apart _ (by decide), apart _ (by decide), apart _ (by decide)⟩
  rcases Bool.or_eq_true_iff.mp plain with letter | mark
  · have last : c ≤ chr 'z' := by
      simp only [Storage.isLetterOrDigit, Bool.or_eq_true, Bool.and_eq_true, decide_eq_true_eq] at letter
      rcases letter with (⟨_, upper⟩ | ⟨_, lower⟩) | ⟨_, digit⟩
      · exact UInt8.le_trans upper (by decide)
      · exact UInt8.le_trans lower (by decide)
      · exact UInt8.le_trans digit (by decide)
    exact UInt8.lt_of_le_of_lt last (by decide)
  · have marks : ∀ d ∈ ascii "*-._", d < 128 := by decide
    exact marks c (List.contains_iff_mem.mp mark)

/-- Letters, digits and four marks stand for themselves. -/
def usualForm : FormCode where
  plain c := Storage.isLetterOrDigit c || (ascii "*-._").contains c
  upper := true
  ascii c plain := (usual_plain c plain).1
  apart c plain := (usual_plain c plain).2

theorem parseFromUrlencoded_reads_back_words :
    ReadsBack { body := usualForm.form [(ascii "username", ascii "bob smith"), (ascii "password", ascii "x1")], post := ∅ }
      [(ascii "username", ascii "bob smith"), (ascii "password", ascii "x1")] := by
  have short : (usualForm.form [(ascii "username", ascii "bob smith"), (ascii "password", ascii "x1")]).length < 2 ^ 31 := by
    decide
  have clean : ∀ pair ∈ [(ascii "username", ascii "bob smith"), (ascii "password", ascii "x1")],
      usualForm.Clean pair.1 ∧ usualForm.Clean pair.2 := by decide
  have filled : ∀ pair, [(ascii "username", ascii "bob smith"), (ascii "password", ascii "x1")].getLast? = some pair →
      pair.2 ≠ [] := by
    intro pair last
    cases last
    decide
  exact (parseFromUrlencoded_reads_back_iff {} usualForm [(ascii "username", ascii "bob smith"), (ascii "password", ascii "x1")]
    (by decide) (by decide)).mpr (.inr ⟨short, clean, filled⟩)

/-- A value with an `@`, which is sent as `%40`. -/
theorem parseFromUrlencoded_loses_mark :
    ¬ ∀ (request : HttpRequest) (code : FormCode) (pairs : List (Bytes × Bytes)), (pairs.map Prod.fst).Nodup →
      (∀ pair ∈ pairs, pair.1 ≠ []) → ReadsBack { request with body := code.form pairs, post := ∅ } pairs := by
  intro holds
  obtain ⟨next, parsed, reads⟩ := holds {} usualForm [(ascii "k", ascii "@")] (by decide) (by decide)
  have kept : (({ body := usualForm.form [(ascii "k", ascii "@")] } : HttpRequest).parseFromUrlencoded.toOption.bind
      fun next => next.post[ascii "k"]?) = some (ascii "%" ++ [136, 48]) := by decide
  have found : ({ body := usualForm.form [(ascii "k", ascii "@")] } : HttpRequest).parseFromUrlencoded = .ok next := parsed
  rw [found] at kept
  simp only [Except.toOption, Option.bind_some, reads] at kept
  exact absurd kept (by decide)

end HttpRequest

end HttpFramework.Code
