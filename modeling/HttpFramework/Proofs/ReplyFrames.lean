import HttpFramework.Proofs.ReplyFormat

/-! A stream of responses and how its receiver takes it apart: it reads lines up to a blank one, and
then as many bytes as they announce. Responses that announce what follows their headers are
found again in a stream of them. -/

namespace HttpFramework.Code
open Search

namespace Reply

/-- A response that can be told from what follows it. -/
structure Framed (reply : Reply) : Prop where
  lines : ∀ line ∈ reply.lines, line ≠ [] ∧ Unbroken CR LF line
  announced : reply.contentLength = some (decimal reply.behind.length)

/-- The first response of a stream and what follows it. -/
def split (text : Bytes) : Option (Bytes × Bytes) := do
  let reply ← read text
  let length := decimalValue (← reply.contentLength)
  if reply.behind.length < length then none
  else return (text.take (text.length - (reply.behind.length - length)), text.drop (text.length - (reply.behind.length - length)))

/-- Every response takes a byte at least. -/
def frames : Nat → Bytes → Option (List Bytes)
  | _, [] => some []
  | 0, _ :: _ => none
  | fuel + 1, text => do
    let (first, rest) ← split text
    return first :: (← frames fuel rest)

theorem render_append (reply : Reply) (rest : Bytes) :
    reply.render ++ rest = render { reply with behind := reply.behind ++ rest } := by
  rw [render, render, List.append_assoc]

theorem split_append {reply : Reply} (framed : reply.Framed) (rest : Bytes) :
    split (reply.render ++ rest) = some (reply.render, rest) := by
  have read : read (reply.render ++ rest) = some { reply with behind := reply.behind ++ rest } := by
    rw [render_append]
    exact read_render framed.lines
  have announced : contentLength { reply with behind := reply.behind ++ rest } = some (decimal reply.behind.length) :=
    framed.announced
  have value : decimalValue (decimal reply.behind.length) = reply.behind.length := (Http.isLength_decimal _).value
  have size : (reply.render ++ rest).length - ((reply.behind ++ rest).length - reply.behind.length) = reply.render.length := by
    simp only [List.length_append]
    omega
  rw [split, read]
  simp only [bind, Option.bind, announced, value, size]
  rw [if_neg (by simp), List.take_left, List.drop_left]
  rfl

theorem render_nonempty (reply : Reply) : reply.render ≠ [] := by
  simp [render, CRLF]

/-- The receiver finds the responses as they were sent. -/
theorem frames_flatten {replies : List Reply} (framed : ∀ reply ∈ replies, reply.Framed) {fuel : Nat}
    (enough : replies.length ≤ fuel) : frames fuel (replies.map render).flatten = some (replies.map render) := by
  induction replies generalizing fuel with
  | nil => cases fuel <;> rfl
  | cons reply replies ih =>
    obtain ⟨fuel, rfl⟩ := Nat.exists_eq_succ_of_ne_zero (Nat.ne_of_gt (Nat.lt_of_lt_of_le (Nat.succ_pos _) enough))
    have later := ih (fun reply member => framed reply (List.mem_cons_of_mem _ member)) (Nat.le_of_succ_le_succ enough)
    have first := split_append (framed reply List.mem_cons_self) (replies.map render).flatten
    rw [List.map_cons, List.flatten_cons]
    cases text : reply.render ++ (replies.map render).flatten with
    | nil => exact absurd (List.append_eq_nil_iff.mp text).1 reply.render_nonempty
    | cons byte bytes =>
      rw [text] at first
      rw [frames, first]
      · simp only [bind, Option.bind, later]
        rfl
      · exact nofun

end Reply

/-- Every response is framed whose length is that of what is sent behind the header. -/
theorem HttpResponse.reply_framed (response : HttpResponse) {status : Int × Bytes} (known : status ∈ CODE_STATUS) (behind : Bytes) :
    (response.reply status behind.length behind).Framed where
  lines := by
    intro line member
    obtain ⟨nonempty, unbroken, _⟩ := statusLine_plain known
    rcases List.mem_append.mp member with front | last
    · rcases List.mem_cons.mp front with rfl | header
      · exact ⟨nonempty, unbroken⟩
      · exact response.headerLines_plain line header
    · rw [List.mem_singleton.mp last]
      exact lengthLine_plain behind.length
  announced := (response.read_reply known behind.length behind).2.2

end HttpFramework.Code
