import HttpFramework.Client.Storage
import HttpFramework.Library.Fallible
import HttpFramework.Proofs.UploadRoundTrip

/-! The name under which the server stores a file. `Upload` of the server decodes the header
`FileName`. The page `index.html` encodes the name before it sends it, and the client does not. -/

namespace HttpFramework.Client
open Storage

set_option maxRecDepth 4000

theorem posOfChar_base64Char {n : Nat} (small : n < 64) :
    posOfChar (base64Char n) = .ok n ∧ base64Char n ≠ chr '=' ∧ base64Char n ≠ chr '.' := by
  have all : ∀ n : Fin 64, posOfChar (base64Char n) = .ok n.val ∧ base64Char n ≠ chr '=' ∧ base64Char n ≠ chr '.' := by
    decide
  exact all ⟨n, small⟩

private theorem ofNat_eq {n : Nat} {byte : UInt8} (same : n = byte.toNat) : UInt8.ofNat n = byte := by
  rw [same, UInt8.ofNat_toNat]

/-- The decoder inverts the encoding of the page. -/
theorem base64Decode_base64Encode (name : Bytes) : base64Decode (base64Encode name) = .ok name := by
  fun_induction base64Encode name with
  | case1 => rfl
  | case2 a =>
    have bound := a.toNat_lt
    obtain ⟨first, _, _⟩ := posOfChar_base64Char (show a.toNat / 4 < 64 by omega)
    obtain ⟨second, _, _⟩ := posOfChar_base64Char (show a.toNat % 4 * 16 < 64 by omega)
    have byte := @ofNat_eq (a.toNat / 4 * 4 + a.toNat % 4 * 16 / 16) a (by omega)
    simp only [base64Decode, decodeGroup, first, second, byte, true_or, if_true, bind, Except.bind, pure, Except.pure,
      List.append_nil]
  | case3 a b =>
    have boundA := a.toNat_lt
    have boundB := b.toNat_lt
    obtain ⟨first, _, _⟩ := posOfChar_base64Char (show a.toNat / 4 < 64 by omega)
    obtain ⟨second, _, _⟩ := posOfChar_base64Char (show a.toNat % 4 * 16 + b.toNat / 16 < 64 by omega)
    obtain ⟨third, pad, dot⟩ := posOfChar_base64Char (show b.toNat % 16 * 4 < 64 by omega)
    have byte := @ofNat_eq (a.toNat / 4 * 4 + (a.toNat % 4 * 16 + b.toNat / 16) / 16) a (by omega)
    have next := @ofNat_eq ((a.toNat % 4 * 16 + b.toNat / 16) % 16 * 16 + b.toNat % 16 * 4 / 4) b (by omega)
    simp only [base64Decode, decodeGroup, first, second, third, pad, dot, or_self, if_false, byte, next, true_or, if_true, bind,
      Except.bind, pure, Except.pure, List.append_nil]
  | case4 a b c rest ih =>
    have boundA := a.toNat_lt
    have boundB := b.toNat_lt
    have boundC := c.toNat_lt
    obtain ⟨first, _, _⟩ := posOfChar_base64Char (show a.toNat / 4 < 64 by omega)
    obtain ⟨second, _, _⟩ := posOfChar_base64Char (show a.toNat % 4 * 16 + b.toNat / 16 < 64 by omega)
    obtain ⟨third, pad, dot⟩ := posOfChar_base64Char (show b.toNat % 16 * 4 + c.toNat / 64 < 64 by omega)
    obtain ⟨fourth, pad', dot'⟩ := posOfChar_base64Char (show c.toNat % 64 < 64 by omega)
    have byte := @ofNat_eq (a.toNat / 4 * 4 + (a.toNat % 4 * 16 + b.toNat / 16) / 16) a (by omega)
    have next := @ofNat_eq
      ((a.toNat % 4 * 16 + b.toNat / 16) % 16 * 16 + (b.toNat % 16 * 4 + c.toNat / 64) / 4) b (by omega)
    have last := @ofNat_eq ((b.toNat % 16 * 4 + c.toNat / 64) % 4 * 64 + c.toNat % 64) c (by omega)
    simp only [base64Decode, decodeGroup, first, second, third, fourth, pad, dot, pad', dot', or_self, if_false, byte, next, last,
      ih, bind, Except.bind, pure, Except.pure]
    rfl

theorem decodeGroup_length {a b : UInt8} {c d : Option UInt8} {bytes : Bytes} (done : decodeGroup a b c d = .ok bytes) :
    bytes.length ≤ 1 + c.toList.length + d.toList.length := by
  obtain ⟨second, _, done⟩ := Fallible.bind_ok done
  obtain ⟨first, _, done⟩ := Fallible.bind_ok done
  cases c with
  | none =>
    cases done
    simp
  | some c =>
    dsimp only at done
    split at done
    · cases done
      exact Nat.le_trans (Nat.le_add_right 1 _) (Nat.le_add_right _ _)
    · obtain ⟨third, _, done⟩ := Fallible.bind_ok done
      cases d with
      | none =>
        cases done
        simp
      | some d =>
        dsimp only at done
        split at done
        · cases done
          simp
        · obtain ⟨fourth, _, done⟩ := Fallible.bind_ok done
          cases done
          simp

/-- What is decoded is shorter than what it is decoded from. -/
theorem base64Decode_length {encoded decoded : Bytes} (done : base64Decode encoded = .ok decoded) :
    decoded.length < encoded.length ∨ encoded = [] := by
  fun_induction base64Decode encoded generalizing decoded with
  | case1 => exact .inr rfl
  | case2 => cases done
  | case3 a b =>
    have short := decodeGroup_length done
    exact .inl (Nat.lt_of_le_of_lt short (by simp))
  | case4 a b c =>
    have short := decodeGroup_length done
    exact .inl (Nat.lt_of_le_of_lt short (by simp))
  | case5 a b c d rest ih =>
    obtain ⟨group, decodes, done⟩ := Fallible.bind_ok done
    obtain ⟨more, others, done⟩ := Fallible.bind_ok done
    cases done
    have short : group.length ≤ 3 := decodeGroup_length decodes
    have rest' : more.length ≤ rest.length := by
      rcases ih others with less | empty
      · exact less.le
      · subst empty
        cases others
        simp
    left
    simp only [List.length_append, List.length_cons]
    omega

/-- The name under which the server stores what a request puts there. -/
def StoredAs (request : Request) (name : Bytes) : Prop := ∃ storageType content, request.Puts name storageType content

/-- No other header of the client is taken for the name. -/
theorem findHeader_uploadRequest {evhttp : Evhttp} {filename body encoded : Bytes}
    (found : (uploadRequest evhttp filename body).findHeader (ascii "FileName") = some encoded) :
    evhttp.received (cString (FileUtil.fileName filename)) = some encoded := by
  obtain ⟨header, first, rfl⟩ := Option.map_eq_some_iff.mp found
  have matching := List.find?_some first
  obtain ⟨sent, member, delivered⟩ := List.mem_filterMap.mp (List.mem_of_find?_eq_some first)
  obtain ⟨got, received, rfl⟩ := Option.map_eq_some_iff.mp delivered
  have named : sent.1.map lower = (ascii "FileName").map lower := of_decide_eq_true matching
  simp only [outputHeaders, List.mem_cons, List.not_mem_nil, or_false] at member
  rcases member with rfl | rfl | rfl | rfl
  · exact absurd named (by decide)
  · exact received
  · exact absurd named (by decide)
  · have other : (ascii "StorageType").map lower ≠ (ascii "FileName").map lower := by decide
    exact absurd named other

/-- The client does not encode the name of a file, so that the server never stores the file under it. -/
theorem name_never_kept (evhttp : Evhttp) (filename body : Bytes) (named : FileUtil.fileName filename ≠ []) :
    ¬ StoredAs (uploadRequest evhttp filename body) (FileUtil.fileName filename) := by
  rintro ⟨storageType, content, puts⟩
  obtain ⟨encoded, header, decodes⟩ := puts.name
  have received := evhttp.trims (findHeader_uploadRequest header)
  have sent : (cString (FileUtil.fileName filename)).length ≤ (FileUtil.fileName filename).length :=
    (List.takeWhile_prefix _).length_le
  rcases base64Decode_length decodes with shorter | empty
  · omega
  · subst empty
    exact named (Except.ok.inj decodes).symm

/-- The page encodes it, and the server stores the file under it. -/
theorem name_kept_of_page {request : Request} {name storageType : Bytes} {buf : InputBuffer}
    (header : request.findHeader (ascii "FileName") = some (base64Encode name))
    (type : request.findHeader (ascii "StorageType") = some storageType) (body : request.inputBuffer = some buf) :
    StoredAs request name :=
  ⟨storageType, buf.content, ⟨_, header, base64Decode_base64Encode name⟩, type, buf, body, rfl⟩

/-- Values that libevent delivers as they are. -/
def verbatim : Evhttp := ⟨some, fun same => by cases same; exact le_refl _⟩

theorem name_not_kept_plain :
    FileUtil.fileName (ascii "./low_storage/report.txt") = ascii "report.txt" ∧
      ¬ StoredAs (uploadRequest verbatim (ascii "./low_storage/report.txt") (ascii "body")) (ascii "report.txt") := by
  have name : FileUtil.fileName (ascii "./low_storage/report.txt") = ascii "report.txt" := by decide
  have lost := name_never_kept verbatim (ascii "./low_storage/report.txt") (ascii "body") (by rw [name]; decide)
  rw [name] at lost
  exact ⟨name, lost⟩

/-- A name that happens to be decoded is stored as five other bytes. -/
theorem report_stored_as :
    (uploadRequest verbatim (ascii "./low_storage/report.txt") (ascii "body")).Puts [173, 234, 104, 174, 198] (ascii "low")
      (ascii "body") ∧ ([173, 234, 104, 174, 198] : Bytes) ≠ ascii "report.txt" := by
  refine ⟨⟨⟨ascii "report.txt", rfl, rfl⟩, rfl, ?_⟩, by decide⟩
  exact ⟨{ content := ascii "body" }, rfl, rfl⟩

end HttpFramework.Client
