import HttpFramework.Storage.Util

/-! The rest of `base64.cpp`: the alphabet for URLs, and texts that are broken into lines. -/

namespace HttpFramework.Storage

def base64Alphabet (url : Bool) : Bytes := base64Chars.take 62 ++ ascii (if url then "-_" else "+/")

def base64AlphabetChar (url : Bool) (n : Nat) : UInt8 := (base64Alphabet url).getD n 0

def trailingChar (url : Bool) : UInt8 := if url then chr '.' else chr '='

/-- The passes of the loop. -/
def base64Groups (url : Bool) : Bytes → Bytes
  | [] => []
  | [a] =>
    [base64AlphabetChar url (a.toNat / 4), base64AlphabetChar url (a.toNat % 4 * 16), trailingChar url, trailingChar url]
  | [a, b] =>
    [base64AlphabetChar url (a.toNat / 4), base64AlphabetChar url (a.toNat % 4 * 16 + b.toNat / 16),
      base64AlphabetChar url (b.toNat % 16 * 4), trailingChar url]
  | a :: b :: c :: rest =>
    base64AlphabetChar url (a.toNat / 4) :: base64AlphabetChar url (a.toNat % 4 * 16 + b.toNat / 16) ::
      base64AlphabetChar url (b.toNat % 16 * 4 + c.toNat / 64) :: base64AlphabetChar url (c.toNat % 64) :: base64Groups url rest

/-- `base64_encode`. The position is an `unsigned int`, so that the loop has no end for a text that it
cannot count. -/
def base64EncodeAs (url : Bool) (bytes : Bytes) : Option Bytes :=
  if bytes.length < 2 ^ 32 then some (base64Groups url bytes) else none

/-- The loop of `insert_linebreaks`. -/
def insertFrom (distance : { n : Nat // 0 < n }) (pos : Nat) (str : Bytes) : Bytes :=
  if pos < str.length then insertFrom distance (pos + (distance + 1)) (str.take pos ++ LF :: str.drop pos) else str
termination_by str.length - pos
decreasing_by
  have := distance.2
  rw [List.length_append, List.length_cons, List.length_take, List.length_drop]
  omega

def insertLinebreaks (distance : { n : Nat // 0 < n }) (str : Bytes) : Bytes :=
  if str = [] then [] else insertFrom distance distance str

def encodeWithLineBreaks (lineLength : { n : Nat // 0 < n }) (s : Bytes) : Option Bytes :=
  (base64EncodeAs false s).map (insertLinebreaks lineLength)

def base64EncodePem (s : Bytes) : Option Bytes := encodeWithLineBreaks ⟨64, by decide⟩ s

def base64EncodeMime (s : Bytes) : Option Bytes := encodeWithLineBreaks ⟨76, by decide⟩ s

/-- `base64_decode` -/
def base64DecodeText (encoded : Bytes) (removeLinebreaks : Bool) : Except Fault Bytes :=
  if encoded = [] then .ok []
  else if removeLinebreaks then base64Decode (encoded.filter (· ≠ LF))
  else base64Decode encoded

end HttpFramework.Storage
