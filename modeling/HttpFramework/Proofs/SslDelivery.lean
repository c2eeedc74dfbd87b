import HttpFramework.Http.SslConnection
import HttpFramework.Library.Transition

/-! What goes through `SslConnection`. Only during the handshake is what was received written to
`readBio_`, nothing ever comes into the buffer that `onMessage` parses, and only `send` looks at
what OpenSSL has left in `writeBio_`. -/

namespace HttpFramework.Http
open Transition

namespace SslConnection

variable {conn next : SslConnection} {reads : List SslRead} {chunk : Bytes} {handshake : SslHandshake}

/-- What was received has gone to OpenSSL, and what it has decrypted to the parser. -/
structure Delivers (conn : SslConnection) : Prop where
  encrypted : conn.readBio = conn.received
  decrypted : conn.parsed = conn.decrypted

/-- Bytes are received when the handshake is over. -/
def ReceivesAfterHandshake (conn : SslConnection) : Action → Prop
  | .onRead _ _ _ => conn.state ≠ .HANDSHAKE
  | _ => False

structure Sound (conn : SslConnection) : Prop where
  delivers : conn.Delivers
  read : conn.inputBuffer = []
  state : conn.state = .HANDSHAKE ∨ conn.state = .ESTABLISHED

theorem onRead_handshake (opening : conn.state = .HANDSHAKE) : conn.onRead chunk handshake reads =
    some (handleHandshake handshake { conn with
      readBio := conn.readBio ++ (conn.inputBuffer ++ chunk), inputBuffer := [], received := conn.received ++ chunk }) := by
  cases conn
  cases opening
  rfl

theorem onRead_established (established : conn.state = .ESTABLISHED) : conn.onRead chunk handshake reads =
    readDecrypted reads { conn with inputBuffer := conn.inputBuffer ++ chunk, received := conn.received ++ chunk } := by
  cases conn
  cases established
  rfl

/-- What reading leaves alone, and what the calls of `SSL_read` add. -/
structure Reads (conn : SslConnection) (reads : List SslRead) (next : SslConnection) : Prop where
  state : next.state = conn.state
  readBio : next.readBio = conn.readBio
  received : next.received = conn.received
  sent : next.sent = conn.sent
  writeBio : next.writeBio = conn.writeBio ++ (reads.map (·.produced)).flatten
  produced : next.produced = conn.produced ++ (reads.map (·.produced)).flatten

theorem parseDecrypted_eq (conn : SslConnection) : ∃ parsed, conn.parseDecrypted = { conn with parsed } := by
  unfold parseDecrypted
  split
  · exact ⟨conn.parsed, rfl⟩
  · split
    · exact ⟨conn.parsed, rfl⟩
    · exact ⟨_, rfl⟩

theorem reads_of_readDecrypted (taken : conn.readDecrypted reads = some next) : conn.Reads reads next := by
  induction reads generalizing conn next with
  | nil => cases taken
  | cons read reads ih =>
    rw [readDecrypted] at taken
    split at taken
    · split at taken
      next last =>
        cases taken
        subst last
        constructor <;> simp [produce]
      next => cases taken
    · obtain ⟨inner, called, returned⟩ := Option.bind_eq_some_iff.mp taken
      obtain ⟨state, readBio, received, sent, writeBio, produced⟩ := ih called
      obtain ⟨parsed, same⟩ := parseDecrypted_eq inner
      rw [same] at returned
      cases returned
      refine ⟨state, readBio, received, sent, ?_, ?_⟩
      · rw [List.map_cons, List.flatten_cons, ← List.append_assoc]
        exact writeBio
      · rw [List.map_cons, List.flatten_cons, ← List.append_assoc]
        exact produced

theorem Sound.handleHandshake (sound : conn.Sound) (handshake : SslHandshake) : (conn.handleHandshake handshake).Sound := by
  unfold SslConnection.handleHandshake
  dsimp only
  split
  · exact ⟨⟨sound.delivers.encrypted, sound.delivers.decrypted⟩, sound.read, .inr rfl⟩
  · exact ⟨⟨sound.delivers.encrypted, sound.delivers.decrypted⟩, sound.read, sound.state⟩
  · exact ⟨⟨sound.delivers.encrypted, sound.delivers.decrypted⟩, sound.read, sound.state⟩

theorem Sound.send (sound : conn.Sound) (write : SslWrite) : (conn.send write).Sound := by
  unfold SslConnection.send
  dsimp only
  split
  · exact sound
  · split <;> exact ⟨⟨sound.delivers.encrypted, sound.delivers.decrypted⟩, sound.read, sound.state⟩

theorem Sound.step {action : Action} (sound : conn.Sound) (early : ¬ conn.ReceivesAfterHandshake action)
    (taken : conn.step action = some next) : next.Sound := by
  cases action with
  | startHandshake handshake =>
    cases taken
    exact sound.handleHandshake handshake
  | send write =>
    cases taken
    exact sound.send write
  | onRead chunk handshake reads =>
    have opening : conn.state = .HANDSHAKE := not_not.mp early
    rw [SslConnection.step] at taken
    split at taken
    · cases taken
    · rw [onRead_handshake opening] at taken
      cases taken
      apply Sound.handleHandshake
      refine ⟨⟨?_, sound.delivers.decrypted⟩, rfl, .inl opening⟩
      rw [sound.read, sound.delivers.encrypted, List.nil_append]

/-- What is received later is not written to `readBio_`. -/
theorem ReceivesAfterHandshake.not_delivers {action : Action} (sound : conn.Sound)
    (late : conn.ReceivesAfterHandshake action) (taken : conn.step action = some next) : ¬ next.Delivers := by
  cases action with
  | startHandshake | send => cases late
  | onRead chunk handshake reads =>
    intro delivers
    have established : conn.state = .ESTABLISHED := sound.state.resolve_left late
    rw [SslConnection.step] at taken
    split at taken
    next => cases taken
    next nonempty =>
      rw [onRead_established established] at taken
      obtain ⟨_, readBio, received, _⟩ := reads_of_readDecrypted taken
      have whole : conn.received = conn.received ++ chunk :=
        calc conn.received
          _ = conn.readBio := sound.delivers.encrypted.symm
          _ = next.readBio := readBio.symm
          _ = next.received := delivers.encrypted
          _ = conn.received ++ chunk := received
      exact nonempty (List.self_eq_append_right.mp whole)

theorem sound_new : ({} : SslConnection).Sound := ⟨⟨rfl, rfl⟩, rfl, .inl rfl⟩

/-- Everything is delivered as long as nothing is received after the handshake, and only then. -/
theorem delivers_throughout_iff (actions : List Action) :
    Throughout step (fun _ _ next => next.Delivers) {} actions ↔
      Throughout step (fun conn action _ => ¬ conn.ReceivesAfterHandshake action) {} actions := by
  apply throughout_iff Sound _ _ sound_new
  · intro conn action next sound taken early
    exact sound.step early taken
  · intro conn action next sound taken
    constructor
    · exact fun delivers late => late.not_delivers sound taken delivers
    · exact fun early => (sound.step early taken).delivers

/-- The first bytes after the handshake stay where they are. -/
theorem record_not_decrypted :
    ¬ ∀ (actions : List Action) (final : SslConnection), Run step {} actions final → final.Delivers := by
  intro delivers
  have ran : Run step {} [.startHandshake ⟨none, []⟩, .onRead [1] ⟨some true, []⟩ [], .onRead [2] ⟨none, []⟩ [⟨[], []⟩]]
      { state := .ESTABLISHED, inputBuffer := [2], received := [1, 2], readBio := [1] } :=
    .cons rfl (.cons rfl (.cons rfl (.nil _)))
  cases (delivers _ _ ran).encrypted

/-- Nothing is left in `writeBio_`, and all of it has gone out in order. -/
structure Flushed (conn : SslConnection) : Prop where
  nothing : conn.writeBio = []
  inOrder : conn.sent.flatten = conn.produced

/-- OpenSSL adds bytes in a call that does not end with the loop of `send`. -/
def ProducesUnseen (conn : SslConnection) : Action → Prop
  | .startHandshake handshake => handshake.produced ≠ []
  | .onRead _ handshake reads => conn.state = .HANDSHAKE ∧ handshake.produced ≠ [] ∨
      conn.state = .ESTABLISHED ∧ ∃ read ∈ reads, read.produced ≠ []
  | .send write => conn.state = .ESTABLISHED ∧ write.written ≤ 0 ∧ write.produced ≠ []

theorem pieces_flatten {fuel : Nat} {pending : Bytes} (enough : pending.length ≤ fuel) : (pieces fuel pending).flatten = pending := by
  induction fuel generalizing pending with
  | zero =>
    rw [List.length_eq_zero_iff.mp (Nat.le_zero.mp enough)]
    rfl
  | succ fuel ih =>
    rw [pieces]
    split
    next nothing => rw [nothing, List.flatten_nil]
    next some =>
      have positive := List.length_pos_iff.mpr some
      have fewer : (pending.drop 4096).length ≤ fuel := by
        rw [List.length_drop]
        omega
      rw [List.flatten_cons, ih fewer, List.take_append_drop]

theorem produce_nil : conn.produce [] = conn := by
  rw [produce, List.append_nil, List.append_nil]

/-- What a call of OpenSSL adds is left there. -/
theorem Flushed.produce_iff {bytes : Bytes} (flushed : conn.Flushed) : (conn.produce bytes).Flushed ↔ bytes = [] := by
  constructor
  · intro after
    have nothing : conn.writeBio ++ bytes = [] := after.nothing
    exact (List.append_eq_nil_iff.mp nothing).2
  · intro silent
    rw [silent, produce_nil]
    exact flushed

theorem Flushed.handleHandshake_iff (flushed : conn.Flushed) (handshake : SslHandshake) :
    (conn.handleHandshake handshake).Flushed ↔ handshake.produced = [] := by
  rw [← flushed.produce_iff]
  unfold handleHandshake
  dsimp only
  split
  · exact ⟨fun after => ⟨after.nothing, after.inOrder⟩, fun after => ⟨after.nothing, after.inOrder⟩⟩
  · rfl
  · exact ⟨fun after => ⟨after.nothing, after.inOrder⟩, fun after => ⟨after.nothing, after.inOrder⟩⟩

/-- What `SSL_read` adds stays in `writeBio_`. -/
theorem Flushed.readDecrypted_iff (flushed : conn.Flushed) (taken : conn.readDecrypted reads = some next) :
    next.Flushed ↔ ∀ read ∈ reads, read.produced = [] := by
  obtain ⟨_, _, _, sent, writeBio, produced⟩ := reads_of_readDecrypted taken
  have silent : (reads.map (·.produced)).flatten = [] ↔ ∀ read ∈ reads, read.produced = [] := by
    simp [List.flatten_eq_nil_iff]
  rw [← silent]
  constructor
  · intro after
    have nothing := writeBio.symm.trans after.nothing
    exact (List.append_eq_nil_iff.mp nothing).2
  · intro none
    rw [none, List.append_nil] at writeBio produced
    exact ⟨writeBio.trans flushed.nothing, by rw [sent, produced, flushed.inOrder]⟩

theorem Flushed.send_iff (flushed : conn.Flushed) (write : SslWrite) :
    (conn.send write).Flushed ↔ ¬ conn.ProducesUnseen (.send write) := by
  rw [send]
  split
  next other => exact ⟨fun _ unseen => other unseen.1, fun _ => flushed⟩
  next established =>
    dsimp only
    split
    next failed =>
      rw [flushed.produce_iff]
      constructor
      · exact fun silent unseen => unseen.2.2 silent
      · intro seen
        by_contra loud
        exact seen ⟨not_not.mp established, failed, loud⟩
    next succeeded =>
      refine ⟨fun _ unseen => succeeded unseen.2.1, fun _ => ⟨rfl, ?_⟩⟩
      -- Nothing was pending before, so what goes out is what this call has added.
      show (conn.sent ++ pieces (conn.writeBio ++ write.produced).length (conn.writeBio ++ write.produced)).flatten =
        conn.produced ++ write.produced
      rw [List.flatten_append, pieces_flatten (Nat.le_refl _), flushed.inOrder, flushed.nothing, List.nil_append]

theorem Flushed.step_iff {action : Action} (flushed : conn.Flushed) (state : conn.state = .HANDSHAKE ∨ conn.state = .ESTABLISHED)
    (taken : conn.step action = some next) : next.Flushed ↔ ¬ conn.ProducesUnseen action := by
  cases action with
  | startHandshake handshake =>
    cases taken
    rw [flushed.handleHandshake_iff]
    exact not_not.symm
  | send write =>
    cases taken
    exact flushed.send_iff write
  | onRead chunk handshake reads =>
    rw [SslConnection.step] at taken
    split at taken
    next => cases taken
    next =>
      rcases state with opening | established
      · rw [onRead_handshake opening] at taken
        cases taken
        have received : Flushed { conn with
            readBio := conn.readBio ++ (conn.inputBuffer ++ chunk), inputBuffer := [], received := conn.received ++ chunk } :=
          ⟨flushed.nothing, flushed.inOrder⟩
        rw [received.handleHandshake_iff]
        simp [ProducesUnseen, opening]
      · rw [onRead_established established] at taken
        have received : Flushed { conn with
            inputBuffer := conn.inputBuffer ++ chunk, received := conn.received ++ chunk } :=
          ⟨flushed.nothing, flushed.inOrder⟩
        rw [received.readDecrypted_iff taken]
        simp [ProducesUnseen, established]

/-- The state is one of the two. -/
def Open (conn : SslConnection) : Prop := conn.state = .HANDSHAKE ∨ conn.state = .ESTABLISHED

theorem Open.handleHandshake (isOpen : conn.Open) (handshake : SslHandshake) : (conn.handleHandshake handshake).Open := by
  unfold SslConnection.handleHandshake
  dsimp only
  split
  · exact .inr rfl
  · exact isOpen
  · exact isOpen

theorem Open.step {action : Action} (isOpen : conn.Open) (taken : conn.step action = some next) : next.Open := by
  cases action with
  | startHandshake handshake =>
    cases taken
    exact isOpen.handleHandshake handshake
  | send write =>
    cases taken
    unfold Open send
    dsimp only
    split
    · exact isOpen
    · split <;> exact isOpen
  | onRead chunk handshake reads =>
    rw [SslConnection.step] at taken
    split at taken
    · cases taken
    · rcases isOpen with opening | established
      · rw [onRead_handshake opening] at taken
        cases taken
        have received : Open { conn with
            readBio := conn.readBio ++ (conn.inputBuffer ++ chunk), inputBuffer := [], received := conn.received ++ chunk } :=
          .inl opening
        exact received.handleHandshake handshake
      · rw [onRead_established established] at taken
        exact .inr ((reads_of_readDecrypted taken).state.trans established)

/-- Nothing is left behind as long as OpenSSL adds bytes only where `send` goes on to its loop, and
only then. -/
theorem flushed_throughout_iff (actions : List Action) :
    Throughout step (fun _ _ next => next.Flushed) {} actions ↔
      Throughout step (fun conn action _ => ¬ conn.ProducesUnseen action) {} actions := by
  apply throughout_iff (fun conn => conn.Flushed ∧ conn.Open) _ _ ⟨⟨rfl, rfl⟩, .inl rfl⟩
  · intro conn action next sound taken seen
    exact ⟨(sound.1.step_iff sound.2 taken).mpr seen, sound.2.step taken⟩
  · intro conn action next sound taken
    exact sound.1.step_iff sound.2 taken

/-- The first flight of the handshake is not sent. -/
theorem flight_left_behind :
    ¬ ∀ (actions : List Action) (final : SslConnection), Run step {} actions final → final.Flushed := by
  intro flushed
  have ran : Run step {} [.startHandshake ⟨none, []⟩, .onRead [1] ⟨none, [2]⟩ []]
      { writeBio := [2], received := [1], readBio := [1], produced := [2] } := .cons rfl (.cons rfl (.nil _))
  cases (flushed _ _ ran).nothing

end SslConnection

end HttpFramework.Http
