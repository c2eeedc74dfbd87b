import HttpFramework.Library.Lines
import HttpFramework.Proofs.ClientNames
import HttpFramework.Storage.Base64

/-! The texts that the encoders of `base64.cpp` make. The decoder does not tell the two alphabets apart,
and it takes no text that is broken into lines, unless it is told to remove the line breaks. -/

namespace HttpFramework.Storage
open Client Lines

set_option maxRecDepth 4000

/-- The character that stands in the alphabet for URLs where this one stands in the other. -/
def toUrl (c : UInt8) : UInt8 :=
  if c = chr '+' then chr '-' else if c = chr '/' then chr '_' else if c = chr '=' then chr '.' else c

theorem toUrl_cases (c : UInt8) : c = chr '+' ∨ c = chr '/' ∨ c = chr '=' ∨ toUrl c = c := by
  rw [toUrl]
  split
  next plus => exact .inl plus
  · split
    next slash => exact .inr (.inl slash)
    · split
      next pad => exact .inr (.inr (.inl pad))
      · exact .inr (.inr (.inr rfl))

theorem posOfChar_toUrl (c : UInt8) : posOfChar (toUrl c) = posOfChar c := by
  rcases toUrl_cases c with rfl | rfl | rfl | same
  · rfl
  · rfl
  · rfl
  · rw [same]

theorem pads_toUrl (c : UInt8) : (toUrl c = chr '=' ∨ toUrl c = chr '.') ↔ c = chr '=' ∨ c = chr '.' := by
  rcases toUrl_cases c with rfl | rfl | rfl | same
  · exact iff_of_false (by decide) (by decide)
  · exact iff_of_false (by decide) (by decide)
  · exact iff_of_true (.inr rfl) (.inl rfl)
  · rw [same]

theorem decodeGroup_toUrl (a b : UInt8) (c d : Option UInt8) :
    decodeGroup (toUrl a) (toUrl b) (c.map toUrl) (d.map toUrl) = decodeGroup a b c d := by
  cases c with
  | none => simp only [decodeGroup, posOfChar_toUrl, Option.map_none]
  | some c =>
    cases d with
    | none => simp only [decodeGroup, posOfChar_toUrl, Option.map_none, Option.map_some, pads_toUrl]
    | some d => simp only [decodeGroup, posOfChar_toUrl, Option.map_some, pads_toUrl]

/-- The decoder takes both alphabets. -/
theorem base64Decode_toUrl (text : Bytes) : base64Decode (text.map toUrl) = base64Decode text := by
  fun_induction base64Decode text with
  | case1 => rfl
  | case2 => rfl
  | case3 a b => exact decodeGroup_toUrl a b none none
  | case4 a b c => exact decodeGroup_toUrl a b (some c) none
  | case5 a b c d rest ih =>
    have group := decodeGroup_toUrl a b (some c) (some d)
    simp only [Option.map_some] at group
    simp only [List.map_cons, base64Decode, group, ih]

theorem base64AlphabetChar_eq {n : Nat} (small : n < 64) :
    base64AlphabetChar false n = base64Char n ∧ base64AlphabetChar true n = toUrl (base64Char n) := by
  have all : ∀ n : Fin 64, base64AlphabetChar false n = base64Char n ∧ base64AlphabetChar true n = toUrl (base64Char n) := by
    decide
  exact all ⟨n, small⟩

theorem base64Groups_eq (s : Bytes) : base64Groups false s = base64Encode s ∧ base64Groups true s = (base64Encode s).map toUrl := by
  fun_induction base64Encode s with
  | case1 => exact ⟨rfl, rfl⟩
  | case2 a =>
    have bound := a.toNat_lt
    obtain ⟨first, first'⟩ := base64AlphabetChar_eq (show a.toNat / 4 < 64 by omega)
    obtain ⟨second, second'⟩ := base64AlphabetChar_eq (show a.toNat % 4 * 16 < 64 by omega)
    exact ⟨by rw [base64Groups, first, second]; rfl, by rw [base64Groups, first', second']; rfl⟩
  | case3 a b =>
    have boundA := a.toNat_lt
    have boundB := b.toNat_lt
    obtain ⟨first, first'⟩ := base64AlphabetChar_eq (show a.toNat / 4 < 64 by omega)
    obtain ⟨second, second'⟩ := base64AlphabetChar_eq (show a.toNat % 4 * 16 + b.toNat / 16 < 64 by omega)
    obtain ⟨third, third'⟩ := base64AlphabetChar_eq (show b.toNat % 16 * 4 < 64 by omega)
    exact ⟨by rw [base64Groups, first, second, third]; rfl, by rw [base64Groups, first', second', third']; rfl⟩
  | case4 a b c rest ih =>
    have boundA := a.toNat_lt
    have boundB := b.toNat_lt
    have boundC := c.toNat_lt
    obtain ⟨first, first'⟩ := base64AlphabetChar_eq (show a.toNat / 4 < 64 by omega)
    obtain ⟨second, second'⟩ := base64AlphabetChar_eq (show a.toNat % 4 * 16 + b.toNat / 16 < 64 by omega)
    obtain ⟨third, third'⟩ := base64AlphabetChar_eq (show b.toNat % 16 * 4 + c.toNat / 64 < 64 by omega)
    obtain ⟨fourth, fourth'⟩ := base64AlphabetChar_eq (show c.toNat % 64 < 64 by omega)
    exact ⟨by rw [base64Groups, first, second, third, fourth, ih.1],
      by rw [base64Groups, first', second', third', fourth', ih.2]; rfl⟩

theorem base64Decode_base64Groups (url : Bool) (s : Bytes) : base64Decode (base64Groups url s) = .ok s := by
  obtain ⟨plain, urls⟩ := base64Groups_eq s
  cases url with
  | false => rw [plain, base64Decode_base64Encode]
  | true => rw [urls, base64Decode_toUrl, base64Decode_base64Encode]

/-- The loop puts a line break before each line but the first. -/
theorem insertFrom_eq (distance : { n : Nat // 0 < n }) (before rest : Bytes) :
    insertFrom distance (before.length + distance) (before ++ rest) = before ++ joined LF (cut distance rest) := by
  fun_induction cut distance rest generalizing before with
  | case1 rest long ih =>
    have inside : before.length + distance < (before ++ rest).length := by
      rw [List.length_append]
      omega
    have front : (before ++ rest).take (before.length + distance) = before ++ rest.take distance := by
      rw [List.take_length_add_append]
    have back : (before ++ rest).drop (before.length + distance) = rest.drop distance := by
      rw [List.drop_length_add_append]
    have length : (before ++ rest.take distance ++ [LF]).length = before.length + distance + 1 := by
      rw [List.length_append, List.length_append, List.length_take, Nat.min_eq_left (Nat.le_of_lt long)]
      rfl
    have later := ih (before ++ rest.take distance ++ [LF])
    rw [insertFrom, if_pos inside, front, back, joined_cons (cut_nonempty _ _)]
    rw [length] at later
    simp only [List.append_assoc, List.singleton_append] at later ⊢
    rw [← later]
    congr 1
    omega
  | case2 rest short =>
    have outside : ¬ before.length + distance < (before ++ rest).length := by
      rw [List.length_append]
      omega
    rw [insertFrom, if_neg outside, joined, List.intercalate_singleton]

theorem insertLinebreaks_eq (distance : { n : Nat // 0 < n }) (text : Bytes) :
    insertLinebreaks distance text = joined LF (cut distance text) := by
  rw [insertLinebreaks]
  split
  next empty =>
    rw [empty, cut_short (Nat.zero_le _)]
    rfl
  · have whole := insertFrom_eq distance [] text
    rw [List.length_nil, Nat.zero_add] at whole
    exact whole

theorem LF_not_mem_base64Encode (s : Bytes) : LF ∉ base64Encode s := by
  have chars : ∀ {n : Nat}, n < 64 → LF ≠ base64Char n := by
    intro n small same
    have read := (posOfChar_base64Char small).1
    rw [← same] at read
    cases read
  have pad : LF ≠ chr '=' := by decide
  fun_induction base64Encode s with
  | case1 => exact List.not_mem_nil
  | case2 a =>
    have bound := a.toNat_lt
    simp [chars (show a.toNat / 4 < 64 by omega), chars (show a.toNat % 4 * 16 < 64 by omega), pad]
  | case3 a b =>
    have boundA := a.toNat_lt
    have boundB := b.toNat_lt
    simp [chars (show a.toNat / 4 < 64 by omega), chars (show a.toNat % 4 * 16 + b.toNat / 16 < 64 by omega),
      chars (show b.toNat % 16 * 4 < 64 by omega), pad]
  | case4 a b c rest ih =>
    have boundA := a.toNat_lt
    have boundB := b.toNat_lt
    have boundC := c.toNat_lt
    simp [chars (show a.toNat / 4 < 64 by omega), chars (show a.toNat % 4 * 16 + b.toNat / 16 < 64 by omega),
      chars (show b.toNat % 16 * 4 + c.toNat / 64 < 64 by omega), chars (show c.toNat % 64 < 64 by omega), ih]

/-- Whole groups are decoded on their own. -/
theorem base64Decode_append {front : Bytes} (whole : front.length % 4 = 0) (back : Bytes) :
    base64Decode (front ++ back) = do return (← base64Decode front) ++ (← base64Decode back) := by
  fun_induction base64Decode front with
  | case1 =>
    rw [List.nil_append]
    cases base64Decode back <;> rfl
  | case2 a => simp at whole
  | case3 a b => simp at whole
  | case4 a b c => simp at whole
  | case5 a b c d rest ih =>
    have rest' : rest.length % 4 = 0 := by
      simp only [List.length_cons] at whole
      omega
    simp only [List.cons_append, base64Decode, ih rest']
    cases decodeGroup a b (some c) (some d) with
    | error fault => rfl
    | ok group =>
      cases base64Decode rest with
      | error fault => rfl
      | ok more =>
        cases base64Decode back with
        | error fault => rfl
        | ok last => simp [bind, Except.bind, pure, Except.pure]

theorem posOfChar_of_decodeGroup {a b : UInt8} {c d : Option UInt8} {bytes : Bytes} (done : decodeGroup a b c d = .ok bytes) :
    ∃ n, posOfChar a = .ok n := by
  obtain ⟨_, _, done⟩ := Fallible.bind_ok done
  obtain ⟨first, known, _⟩ := Fallible.bind_ok done
  exact ⟨first, known⟩

theorem posOfChar_of_base64Decode {c : UInt8} {text decoded : Bytes} (done : base64Decode (c :: text) = .ok decoded) :
    ∃ n, posOfChar c = .ok n := by
  rcases text with _ | ⟨b, _ | ⟨d, _ | ⟨e, text⟩⟩⟩
  · cases done
  · exact posOfChar_of_decodeGroup done
  · exact posOfChar_of_decodeGroup done
  · obtain ⟨group, decodes, _⟩ := Fallible.bind_ok done
    exact posOfChar_of_decodeGroup decodes

/-- A line break is no character of a text. -/
theorem base64Decode_break {c : UInt8} {n : Nat} (known : posOfChar c = .ok n) (text : Bytes) :
    base64Decode (LF :: c :: text) = .error .runtimeError := by
  have wrong : posOfChar LF = .error .runtimeError := by decide
  have group : ∀ d e, decodeGroup LF c d e = .error .runtimeError := by
    intro d e
    simp only [decodeGroup, known, wrong, bind, Except.bind]
  rcases text with _ | ⟨d, _ | ⟨e, text⟩⟩
  · exact group none none
  · exact group (some d) none
  · simp only [base64Decode, group, bind, Except.bind]

/-- The first character of the second line is the second of a group. -/
theorem base64Decode_joined {width : { n : Nat // 0 < n }} (groups : width.val % 4 = 0) {text decoded : Bytes}
    (done : base64Decode text = .ok decoded) (long : width < text.length) :
    base64Decode (joined LF (cut width text)) = .error .runtimeError := by
  have whole : (text.take width).length % 4 = 0 := by rw [List.length_take, Nat.min_eq_left (Nat.le_of_lt long), groups]
  rw [← List.take_append_drop width text, base64Decode_append whole] at done
  obtain ⟨first, front, done⟩ := Fallible.bind_ok done
  obtain ⟨second, back, _⟩ := Fallible.bind_ok done
  cases rest : text.drop width with
  | nil =>
    rw [List.drop_eq_nil_iff] at rest
    omega
  | cons c more =>
    rw [rest] at back
    obtain ⟨n, known⟩ := posOfChar_of_base64Decode back
    obtain ⟨later, begins⟩ := joined_cut_cons width LF c more
    rw [cut_long long, joined_cons (cut_nonempty _ _), rest, begins, base64Decode_append whole, front, base64Decode_break known]
    rfl

/-- What an encoder makes is decoded to the text that it was given: in both alphabets as it is, and in lines with
the line breaks removed. The lines but the last are of the length that is asked for, and where there
is more than one and their length is that of some groups, the decoder throws if it is not
told to remove the line breaks. -/
theorem encoders_decoded {s : Bytes} (counted : s.length < 2 ^ 32) (lineLength : { n : Nat // 0 < n }) :
    (∀ url, ∃ text, base64EncodeAs url s = some text ∧ base64DecodeText text false = .ok s) ∧
      ∃ lines, encodeWithLineBreaks lineLength s = some (joined LF lines) ∧ base64DecodeText (joined LF lines) true = .ok s ∧
        (∀ line ∈ lines.dropLast, line.length = lineLength) ∧ (∀ line ∈ lines, line.length ≤ lineLength) ∧
        (lineLength.val % 4 = 0 → 1 < lines.length → base64DecodeText (joined LF lines) false = .error .runtimeError) := by
  have encodes : ∀ url, base64EncodeAs url s = some (base64Groups url s) := fun _ => if_pos counted
  have decodes : ∀ url, base64DecodeText (base64Groups url s) false = .ok s := by
    intro url
    have done := base64Decode_base64Groups url s
    rw [base64DecodeText]
    split
    next empty =>
      rw [empty] at done
      exact done
    · exact done
  refine ⟨fun url => ⟨_, encodes url, decodes url⟩, cut lineLength (base64Groups false s), ?_, ?_, length_cut_eq _ _, length_cut_le _ _, ?_⟩
  · rw [encodeWithLineBreaks, encodes, Option.map_some, insertLinebreaks_eq]
  · have absent : LF ∉ base64Groups false s := by
      rw [(base64Groups_eq s).1]
      exact LF_not_mem_base64Encode s
    have plain := filter_joined_cut lineLength absent
    rw [base64DecodeText]
    split
    next empty =>
      rw [empty] at plain
      have done := base64Decode_base64Groups false s
      rw [← plain] at done
      exact done
    · rw [if_pos rfl, plain, base64Decode_base64Groups]
  · intro groups several
    have long : lineLength < (base64Groups false s).length := by
      by_contra short
      rw [cut_short (Nat.not_lt.mp short)] at several
      exact absurd several (by simp)
    have thrown := base64Decode_joined groups (base64Decode_base64Groups false s) long
    rw [base64DecodeText, if_neg, if_neg Bool.false_ne_true, thrown]
    intro empty
    rw [empty] at thrown
    cases thrown

theorem encoders_decoded_pem : ∃ lines, base64EncodePem (ascii "low_storage") = some (joined LF lines) ∧
    base64DecodeText (joined LF lines) true = .ok (ascii "low_storage") := by
  obtain ⟨_, lines, encodes, decodes, _⟩ := @encoders_decoded (ascii "low_storage") (by decide) ⟨64, by decide⟩
  exact ⟨lines, encodes, decodes⟩

end HttpFramework.Storage
