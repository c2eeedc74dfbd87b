import HttpFramework.Storage.Service

/-! `UrlDecode` undoes any percent-encoding, and the texts at which it fails. -/

namespace HttpFramework.Storage

/-- A hexadecimal digit, in either case. -/
def hexDigit (upper : Bool) (value : Nat) : UInt8 :=
  if value < 10 then chr '0' + value.toUInt8
  else if upper then chr 'A' + (value - 10).toUInt8
  else chr 'a' + (value - 10).toUInt8

/-- Each byte is kept, unless it is `%`, or escaped. -/
inductive PercentEncodes : Bytes → Bytes → Prop where
  | nil : PercentEncodes [] []
  | kept {c text encoded} (plain : c ≠ chr '%') (rest : PercentEncodes text encoded) :
      PercentEncodes (c :: text) (c :: encoded)
  | escaped {c text encoded} (upper upper' : Bool) (rest : PercentEncodes text encoded) :
      PercentEncodes (c :: text) (chr '%' :: hexDigit upper (c.toNat / 16) :: hexDigit upper' (c.toNat % 16) :: encoded)

/-- What `FromHex` takes. -/
def isLetterOrDigit (c : UInt8) : Bool :=
  (chr 'A' ≤ c && c ≤ chr 'Z') || (chr 'a' ≤ c && c ≤ chr 'z') || (chr '0' ≤ c && c ≤ chr '9')

/-- Two letters or digits stand behind every `%`. -/
def EscapesComplete (text : Bytes) : Prop :=
  ∀ index, text[index]? = some (chr '%') →
    ∃ high low, text[index + 1]? = some high ∧ text[index + 2]? = some low ∧ isLetterOrDigit high ∧ isLetterOrDigit low

variable {text encoded rest : Bytes} {c high low : UInt8}

theorem fromHex_hexDigit (upper : Bool) {value : Nat} (digit : value < 16) :
    fromHex (hexDigit upper value) = .ok value.toUInt8 := by
  have all : ∀ upper, ∀ value < 16, fromHex (hexDigit upper value) = .ok value.toUInt8 := by decide
  exact all upper value digit

theorem fromHex_ok_iff : (∃ value, fromHex c = .ok value) ↔ isLetterOrDigit c := by
  simp only [fromHex, isLetterOrDigit, Bool.or_eq_true, Bool.and_eq_true, decide_eq_true_eq]
  split
  · simp_all
  · split
    · simp_all
    · split <;> simp_all

theorem urlDecode_cons (plain : c ≠ chr '%') (rest : Bytes) : urlDecode (c :: rest) = (urlDecode rest).map (c :: ·) := by
  cases rest with
  | nil => exact if_neg plain
  | cons d rest =>
    cases rest with
    | nil =>
      refine (if_neg plain).trans ?_
      cases urlDecode [d] <;> rfl
    | cons e rest =>
      rw [urlDecode, if_neg plain]
      cases urlDecode (d :: e :: rest) <;> rfl

theorem urlDecode_escape (high low : UInt8) (rest : Bytes) : urlDecode (chr '%' :: high :: low :: rest) = (do
    let high ← fromHex high
    let low ← fromHex low
    return (high * 16 + low) :: (← urlDecode rest)) := by
  rw [urlDecode, if_pos rfl]

theorem urlDecode_encoded (encodes : PercentEncodes text encoded) : urlDecode encoded = .ok text := by
  induction encodes with
  | nil => rfl
  | kept plain _ ih =>
    rw [urlDecode_cons plain, ih]
    rfl
  | @escaped c _ _ upper upper' _ ih =>
    have small := c.toNat_lt
    have byte : (c.toNat / 16).toUInt8 * 16 + (c.toNat % 16).toUInt8 = c := by
      apply UInt8.toNat_inj.mp
      simp
      omega
    rw [urlDecode_escape, fromHex_hexDigit upper (by omega), fromHex_hexDigit upper' (by omega), ih]
    exact congrArg (fun byte => Except.ok (byte :: _)) byte

theorem urlDecode_encoded_words : urlDecode (ascii "a%20b%2Fc") = .ok (ascii "a b/c") := by
  apply urlDecode_encoded
  have slash : PercentEncodes (ascii "/c") (ascii "%2Fc") := .escaped true true (.kept (by decide) .nil)
  exact .kept (by decide) (.escaped true true (.kept (by decide) slash))

theorem escapesComplete_cons (plain : c ≠ chr '%') (rest : Bytes) : EscapesComplete (c :: rest) ↔ EscapesComplete rest := by
  constructor
  · intro complete index there
    exact complete (index + 1) there
  · intro complete index there
    cases index with
    | zero => exact absurd (Option.some.inj there) plain
    | succ index => exact complete index there

theorem escapesComplete_escape (high low : UInt8) (rest : Bytes) :
    EscapesComplete (chr '%' :: high :: low :: rest) ↔ isLetterOrDigit high ∧ isLetterOrDigit low ∧ EscapesComplete rest := by
  have apart : isLetterOrDigit (chr '%') = false := by decide
  constructor
  · intro complete
    obtain ⟨_, _, first, second, both⟩ := complete 0 rfl
    cases first
    cases second
    exact ⟨both.1, both.2, fun index there => complete (index + 3) there⟩
  · intro ⟨first, second, complete⟩ index there
    -- Neither of the two is `%` again.
    match index with
    | 0 => exact ⟨high, low, rfl, rfl, first, second⟩
    | 1 =>
      cases there
      rw [apart] at first
      cases first
    | 2 =>
      cases there
      rw [apart] at second
      cases second
    | index + 3 => exact complete index there

/-- An escape that the text ends in fails. -/
theorem urlDecode_short_iff (short : rest.length < 2) :
    (∃ decoded, urlDecode (chr '%' :: rest) = .ok decoded) ↔ EscapesComplete (chr '%' :: rest) := by
  have failed : urlDecode (chr '%' :: rest) = .error .assertion := by
    rcases rest with _ | ⟨high, _ | ⟨low, rest⟩⟩
    · rfl
    · rfl
    · rw [List.length_cons, List.length_cons] at short
      omega
  rw [failed]
  constructor
  · intro ⟨_, decoded⟩
    cases decoded
  · intro complete
    obtain ⟨_, low, _, second, _⟩ := complete 0 rfl
    obtain ⟨inside, -⟩ := List.getElem?_eq_some_iff.mp second
    rw [List.length_cons] at inside
    omega

theorem urlDecode_ok_iff (text : Bytes) : (∃ decoded, urlDecode text = .ok decoded) ↔ EscapesComplete text := by
  induction length : text.length using Nat.strong_induction_on generalizing text with
  | _ _ ih =>
    subst length
    cases text with
    | nil =>
      have complete : EscapesComplete [] := by
        intro index there
        cases there
      exact ⟨fun _ => complete, fun _ => ⟨[], rfl⟩⟩
    | cons c rest =>
      by_cases plain : c ≠ chr '%'
      · rw [urlDecode_cons plain, escapesComplete_cons plain, ← ih rest.length (Nat.lt_succ_self _) rest rfl]
        cases urlDecode rest <;> simp [Except.map]
      · obtain rfl : c = chr '%' := not_not.mp plain
        rcases rest with _ | ⟨high, _ | ⟨low, rest⟩⟩
        · exact urlDecode_short_iff (by decide)
        · exact urlDecode_short_iff (Nat.one_lt_two)
        · have shorter : rest.length < (chr '%' :: high :: low :: rest).length := by
            simp only [List.length_cons]
            omega
          rw [urlDecode_escape, escapesComplete_escape, ← fromHex_ok_iff, ← fromHex_ok_iff, ← ih rest.length shorter rest rfl]
          cases fromHex high <;> cases fromHex low <;> cases urlDecode rest <;> simp [Bind.bind, Except.bind, Pure.pure, Except.pure]

/-- Nothing else is done for the request. -/
theorem genHandler_of_incomplete (config : Config) (platform : Platform) {request : Request}
    (incomplete : ¬ EscapesComplete request.path) (server : Server) :
    ∃ fault, genHandler config platform request server = server.fail fault := by
  rw [← urlDecode_ok_iff] at incomplete
  rw [genHandler]
  cases decoded : urlDecode request.path with
  | error fault => exact ⟨fault, rfl⟩
  | ok path => exact absurd ⟨path, decoded⟩ incomplete

theorem genHandler_decodes_iff (request : Request) :
    (∃ path, urlDecode request.path = .ok path) ↔ EscapesComplete request.path :=
  urlDecode_ok_iff request.path

theorem path_not_decoded : ¬ ∀ request : Request, ∃ path, urlDecode request.path = .ok path := by
  intro decodes
  obtain ⟨path, decoded⟩ := decodes { path := ascii "/%4" }
  rw [show urlDecode (ascii "/%4") = .error .assertion by decide] at decoded
  cases decoded

end HttpFramework.Storage
