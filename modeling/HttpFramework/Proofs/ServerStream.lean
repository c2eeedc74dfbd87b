import HttpFramework.Proofs.ContentLength
import HttpFramework.Proofs.ReplyFrames
import HttpFramework.Proofs.ServerRefinement

/-! The bytes that go out on a connection of the web server. At any time they are the beginning of the
responses that have been prepared for it, in their order and each byte once, and their receiver
can tell the responses apart by the lengths they announce. -/

namespace HttpFramework.Code

set_option maxRecDepth 8000

/-- No file is as large as an `int` can count. -/
def Files.Modest (files : Files) : Prop :=
  ∀ name read write file, files.disk.node name = .ok (.file read write file) → file.content.length < 2 ^ 31

namespace HttpConn

variable {env : Environment} {isET : Bool} {conn next : HttpConn} {h f : Bytes}

theorem gathered_of_both (both : conn.iovCnt = 2) : conn.gathered = conn.described := by
  rw [gathered, if_pos both]
  rfl

theorem gathered_of_one (one : conn.iovCnt = 1) : conn.gathered = conn.headerPart := by
  rw [gathered, if_neg (by rw [one]; decide), List.append_nil]
  rfl

/-- Reading touches the read buffer only. -/
theorem read_frame {results : List Readv} {ret : Readv} (read : conn.read isET results = some (.ok (next, ret))) :
    ∃ readBuff, next = { conn with readBuff } := by
  induction results generalizing conn with
  | nil => cases read
  | cons result rest ih =>
    cases result with
    | failed eagain =>
      rw [HttpConn.read] at read
      split at read <;> cases read
      exact ⟨_, rfl⟩
    | received data =>
      rw [HttpConn.read] at read
      split at read
      · cases read
      · split at read
        · split at read <;> cases read
        · split at read
          · obtain ⟨readBuff, same⟩ := ih read
            exact ⟨readBuff, same⟩
          · split at read <;> cases read
            exact ⟨_, rfl⟩

/-- A response of which there is only what the write buffer holds, seen as one with an empty file. -/
def withoutFile (conn : HttpConn) : HttpConn :=
  { conn with iovCnt := 2, iov1 := {}, response := { conn.response with mmFile := some [] } }

/-- A response is under way: of the header `h` and the file `f`, `sent` has gone out. -/
inductive Underway (h f : Bytes) (conn : HttpConn) (sent : Bytes) : Prop where
  | file (conserves : Conserves h f conn sent)
  | alone (one : conn.iovCnt = 1) (empty : f = []) (stale : conn.iov1.len < 2 ^ 31)
      (conserves : Conserves h [] conn.withoutFile sent)

namespace Underway

variable {sent : Bytes}

theorem valid (underway : Underway h f conn sent) : conn.writeBuff.Valid := by
  cases underway with
  | file conserves => exact conserves.valid
  | alone one empty stale conserves => exact conserves.valid

/-- Nothing is lost, and nothing is sent twice. -/
theorem total (underway : Underway h f conn sent) : sent ++ conn.gathered = h ++ f := by
  cases underway with
  | file conserves => rw [gathered_of_both conserves.parts, conserves.total]
  | alone one empty stale conserves =>
    have total := conserves.total
    have same : conn.withoutFile.described = conn.headerPart := by
      simp [described, filePart, withoutFile, headerPart]
    rw [same] at total
    rw [gathered_of_one one, empty, total]

theorem offered (underway : Underway h f conn sent) : conn.gathered.length = conn.offered := by
  cases underway with
  | file conserves =>
    rw [gathered_of_both conserves.parts, conserves.described_length, HttpConn.offered, if_pos conserves.parts]
    rfl
  | alone one empty stale conserves =>
    have length := conserves.headerPart_length
    rw [gathered_of_one one, HttpConn.offered, if_neg (by rw [one]; decide)]
    exact length

/-- The parts may be added up as an `int` does it. -/
theorem small (underway : Underway h f conn sent) (header : h.length ≤ 1000) (file : f.length < 2 ^ 31) :
    conn.iov0.len + conn.iov1.len < 2 ^ 32 ∧ conn.iov1.len < 2 ^ 31 := by
  cases underway with
  | file conserves =>
    have left := conserves.left
    have whole := conserves.file
    omega
  | alone one empty stale conserves =>
    have left : conn.iov0.len = h.length - sent.length := conserves.left
    omega

theorem advance (underway : Underway h f conn sent) {len : Nat} (less : len ≤ conn.offered) :
    ∃ next, conn.advance len = .ok next ∧ Underway h f next (sent ++ conn.gathered.take len) := by
  cases underway with
  | file conserves =>
    rw [HttpConn.offered, if_pos conserves.parts] at less
    obtain ⟨next, advanced, conserves'⟩ := conserves.advance less
    rw [gathered_of_both conserves.parts]
    exact ⟨next, advanced, .file conserves'⟩
  | alone one empty stale conserves =>
    rw [HttpConn.offered, if_neg (by rw [one]; decide), Nat.add_zero] at less
    have within : ¬ conn.iov0.len < len := not_lt.mpr less
    obtain ⟨next, advanced, conserves'⟩ := conserves.advance_inside (show len ≤ conn.iov0.len + 0 from less) less
    have same : conn.withoutFile.described = conn.headerPart := by
      simp [described, filePart, withoutFile, headerPart]
    rw [same, ← gathered_of_one one] at conserves'
    rw [HttpConn.advance, if_neg (show ¬ conn.withoutFile.iov0.len < len from within)] at advanced
    rw [HttpConn.advance, if_neg within]
    cases retrieved : conn.writeBuff.retrieve len with
    | error failure =>
      rw [show conn.withoutFile.writeBuff = conn.writeBuff from rfl, retrieved] at advanced
      cases advanced
    | ok writeBuff =>
      rw [show conn.withoutFile.writeBuff = conn.writeBuff from rfl, retrieved] at advanced
      cases advanced
      exact ⟨_, rfl, .alone one empty stale conserves'⟩

/-- What is said to have gone out in a call of `write` has. -/
theorem write (underway : Underway h f conn sent) {results : List Writev} {ret : Writev}
    (written : conn.write isET results = some (.ok (next, ret))) : Underway h f next (sent ++ conn.outgoing isET results) := by
  induction results generalizing conn sent with
  | nil => cases written
  | cons result rest ih =>
    cases result with
    | failed eagain =>
      rw [HttpConn.write] at written
      split at written <;> cases written
      rw [outgoing, List.append_nil]
      exact underway
    | sent len =>
      rw [HttpConn.write] at written
      split at written
      · cases written
      next offered =>
        obtain ⟨moved, advanced, underway'⟩ := underway.advance (not_lt.mp offered)
        split at written
        next nothing =>
          have none : len = 0 ∨ conn.iov0.len + conn.iov1.len = 0 := nothing
          have little : conn.gathered.take len = [] := by
            rcases none with rfl | empty
            · rfl
            · have length := underway.offered
              rw [HttpConn.offered] at length offered
              have gone : conn.gathered.length = 0 := by
                split at length <;> omega
              rw [List.length_eq_zero_iff.mp gone, List.take_nil]
          rw [outgoing, if_pos nothing, little, List.append_nil]
          split at written <;> cases written
          exact underway
        next something =>
          rw [advanced] at written
          rw [outgoing, if_neg something, advanced]
          dsimp only at written ⊢
          split at written
          next again =>
            have on := ih underway' written
            rw [if_pos again, ← List.append_assoc]
            exact on
          next stops =>
            split at written <;> cases written
            rw [if_neg stops, List.append_nil]
            exact underway'

/-- When nothing is left as an `int`, everything has gone out. -/
theorem finished (underway : Underway h f conn sent) (header : h.length ≤ 1000) (file : f.length < 2 ^ 31)
    (none : conn.toWriteBytes = 0) : sent = h ++ f ∧ conn.writeBuff.content = [] := by
  obtain ⟨small, _⟩ := underway.small header file
  have zero := toInt_eq_zero.mp none
  rw [Nat.mod_eq_of_lt small] at zero
  have total := underway.total
  have length := underway.offered
  have gone : conn.gathered = [] := by
    rw [HttpConn.offered] at length
    apply List.length_eq_zero_iff.mp
    split at length <;> omega
  rw [gone, List.append_nil] at total
  refine ⟨total, ?_⟩
  have readable : conn.writeBuff.readableBytes = conn.iov0.len := by
    cases underway with
    | file conserves => exact conserves.header
    | alone one empty stale conserves => exact conserves.header
  apply List.length_eq_zero_iff.mp
  rw [underway.valid.content_length, readable]
  omega

end Underway

/-- A directory can be opened, but it is not mapped. -/
theorem mapped_regular {files : Files} {name mapping : Bytes} {size : Nat} {content : Option Bytes}
    (opened : files.openRead name = some content) (mapped : files.mmap name size content = some mapping) (read write : Bool) :
    files.disk.node name ≠ .ok (.directory read write) := by
  intro directory
  rw [Files.openRead, Storage.Disk.openRead, directory] at opened
  cases read with
  | false => cases opened
  | true =>
    cases opened
    rw [Files.mmap] at mapped
    split at mapped <;> cases mapped

/-- What `respond` prepares where nothing is left of the last response. -/
theorem respond_underway (modest : env.files.Modest) (valid : conn.writeBuff.Valid) (empty : conn.writeBuff.content = [])
    (stale : conn.iov1.len < 2 ^ 31) {code : Int} {isKeepAlive : Bool} (responded : conn.respond env code isKeepAlive = .ok next) :
    ∃ h f reply, Underway h f next [] ∧ h.length ≤ 1000 ∧ f.length < 2 ^ 31 ∧ Reply.Framed reply ∧ reply.render = h ++ f := by
  have sized : env.files.Sized := fun name read write file there => lt_trans (modest name read write file there) (by decide)
  obtain ⟨initial, init, rest⟩ := Fallible.bind_ok responded
  obtain ⟨⟨made, texts⟩, done, rest⟩ := Fallible.bind_ok rest
  obtain ⟨writeBuff, appended, _⟩ := Fallible.bind_ok rest
  have srcDir : env.srcDir ≠ [] := by
    intro none
    rw [HttpResponse.init, if_pos none] at init
    cases init
  rw [HttpResponse.init, if_neg srcDir] at init
  cases init
  change (conn.started env code isKeepAlive).makeResponse env.files = .ok (made, texts) at done
  have small := texts_short done (@HttpResponse.settled_short _ (conn.started env code isKeepAlive) sized (show 0 < 2 ^ 63 by decide))
  have whole := respond_eq srcDir done appended
  obtain ⟨valid', content⟩ := appendAll_content valid (by rw [maxSize]; omega) appended
  rw [empty, List.nil_append] at content
  rw [responded] at whole
  obtain ⟨status, known, _, cases⟩ := HttpResponse.makeResponse_reply done
  rcases cases with ⟨rfl, page, _⟩ | ⟨content', mapping, opened, mapped, _, rfl, header⟩
  · rw [if_neg (by rw [HttpResponse.settled_mmFile]; rintro ⟨_, wrong⟩; cases wrong)] at whole
    cases whole
    refine ⟨texts.flatten, [], _, ?_, small, by decide,
      ((conn.started env code isKeepAlive).settled env.files).reply_framed known _, by rw [List.append_nil, page]⟩
    refine .alone rfl rfl stale (Conserves.prepared ⟨rfl, valid', content, ?_, rfl, rfl⟩)
    rw [← content, valid'.content_length]
    rfl
  · have filled := mmap_filled mapped
    obtain ⟨read, write, file, there, rfl, length⟩ := HttpResponse.settled_opened (mapped_regular opened mapped) opened
    rw [length] at mapped header
    obtain ⟨_, _, rfl⟩ := HttpResponse.mmap_file.mp mapped
    rw [if_pos ⟨filled, rfl⟩] at whole
    cases whole
    refine ⟨texts.flatten, file.content, _, ?_, small, modest _ _ _ _ there,
      ((conn.started env code isKeepAlive).settled env.files).reply_framed known file.content, ?_⟩
    · refine .file (Conserves.prepared ⟨rfl, valid', content, ?_, rfl, ?_⟩)
      · rw [← content, valid'.content_length]
      · rw [← length]
        rfl
    · rw [header, Reply.render_append]
      rfl

/-- A request that is not processed leaves nothing to send. -/
theorem process_prepares {produced : Bool} (processed : conn.process env = .ok (produced, next)) :
    (produced = false ∧ next = { conn with request := HttpRequest.init }) ∨
      produced = true ∧ ∃ request readBuff code isKeepAlive,
        respond env code isKeepAlive { conn with request, readBuff } = .ok next := by
  rw [process] at processed
  dsimp only at processed
  split at processed
  · cases processed
    exact .inl ⟨rfl, rfl⟩
  · obtain ⟨⟨parsed, request, readBuff⟩, _, rest⟩ := Fallible.bind_ok processed
    dsimp only at rest
    split at rest
    · obtain ⟨after, responded, rest⟩ := Fallible.bind_ok rest
      cases rest
      exact .inr ⟨rfl, request, readBuff, _, _, responded⟩
    · obtain ⟨after, responded, rest⟩ := Fallible.bind_ok rest
      cases rest
      exact .inr ⟨rfl, request, readBuff, _, _, responded⟩

end HttpConn

namespace WebServer
open HttpConn Transition

/-- The files that a call finds. -/
def Input.files : Input → Files
  | .read files _ _ | .write files _ _ => files

namespace Client

variable {env : Environment} {client : Client} {event : Event}

/-- The write buffer can be appended to, and there is no huge length left from before. -/
structure Sound (client : Client) : Prop where
  valid : client.conn.writeBuff.Valid
  stale : client.conn.iov1.len < 2 ^ 31

/-- What has been sent on a connection, by the event that it waits for. -/
inductive Streams (client : Client) : Option Event → Prop where
  | all (sound : client.Sound) (empty : client.conn.writeBuff.content = []) (whole : client.sent = client.responses.flatten) :
      Streams client (some .EPOLLIN)
  | part {before : List Bytes} {h f sent : Bytes} (underway : Underway h f client.conn sent) (header : h.length ≤ 1000)
      (file : f.length < 2 ^ 31) (prepared : client.responses = before ++ [h ++ f]) (part : client.sent = before.flatten ++ sent) :
      Streams client (some .EPOLLOUT)
  | closed (sound : client.Sound) (beginning : client.sent <+: client.responses.flatten) : Streams client none

theorem Streams.sound {event : Option Event} (streams : client.Streams event) : client.Sound := by
  cases streams with
  | all sound => exact sound
  | part underway header file => exact ⟨underway.valid, (underway.small header file).2⟩
  | closed sound => exact sound

theorem Streams.beginning {event : Option Event} (streams : client.Streams event) : client.sent <+: client.responses.flatten := by
  cases streams with
  | all _ _ whole =>
    rw [whole]
  | part underway _ _ prepared part =>
    refine ⟨client.conn.gathered, ?_⟩
    rw [prepared, part, List.append_assoc, underway.total]
    simp
  | closed _ beginning => exact beginning

theorem Streams.close {event : Option Event} (streams : client.Streams event) : client.closed.Streams none :=
  .closed ⟨streams.sound.valid, streams.sound.stale⟩ streams.beginning

/-- Its responses can be told apart. -/
def Framed (client : Client) : Prop :=
  ∃ replies : List Reply, client.responses = replies.map Reply.render ∧ ∀ reply ∈ replies, reply.Framed

/-- A connection on which nothing is left to send goes on to the next request. -/
theorem Streams.process (sound : client.Sound) (empty : client.conn.writeBuff.content = [])
    (whole : client.sent = client.responses.flatten) (framed : client.Framed) (modest : env.files.Modest)
    {after : Client} (processed : client.process env = .ok (after, event)) : after.Streams (some event) ∧ after.Framed := by
  obtain ⟨⟨conn, event'⟩, done, rest⟩ := Fallible.bind_ok processed
  obtain ⟨⟨produced, conn'⟩, done', rest'⟩ := Fallible.bind_ok done
  cases rest
  cases rest'
  rcases process_prepares done' with ⟨rfl, rfl⟩ | ⟨rfl, request, readBuff, code, isKeepAlive, responded⟩
  · exact ⟨.all ⟨sound.valid, sound.stale⟩ empty whole, framed⟩
  · obtain ⟨h, f, reply, underway, header, file, last, shape⟩ :=
      @respond_underway env { client.conn with request, readBuff } conn modest sound.valid empty sound.stale code isKeepAlive
        responded
    have text : conn.gathered = h ++ f := underway.total
    obtain ⟨replies, told, each⟩ := framed
    refine ⟨.part underway header file (by rw [← text]; rfl) (by rw [List.append_nil]; exact whole), replies ++ [reply], ?_, ?_⟩
    · rw [List.map_append, ← told, List.map_singleton, shape, ← text]
      rfl
    · intro one member
      rcases List.mem_append.mp member with earlier | now
      · exact each one earlier
      · rw [List.mem_singleton.mp now]
        exact last

theorem Streams.onRead (streams : client.Streams (some .EPOLLIN)) (framed : client.Framed) (modest : env.files.Modest)
    {results : List Readv} {after : Client × Option Event} (done : client.onRead env results = some (.ok after)) :
    after.1.Streams after.2 ∧ after.1.Framed := by
  obtain ⟨conn, ret, read, cases⟩ := onRead_cases done
  obtain ⟨readBuff, rfl⟩ := read_frame read
  cases streams with
  | all sound empty whole =>
    have streams' : Streams { client with conn := { client.conn with readBuff } } (some .EPOLLIN) :=
      .all ⟨sound.valid, sound.stale⟩ empty whole
    rcases cases with rfl | ⟨event, processed, waits⟩
    · exact ⟨streams'.close, framed⟩
    · rw [waits]
      exact Streams.process streams'.sound empty whole framed modest processed

theorem Streams.onWrite (streams : client.Streams (some .EPOLLOUT)) (framed : client.Framed) (modest : env.files.Modest)
    {results : List Writev} {after : Client × Option Event} (done : client.onWrite env results = some (.ok after)) :
    after.1.Streams after.2 ∧ after.1.Framed := by
  obtain ⟨conn, ret, moved, written, rfl, cases⟩ := onWrite_cases done
  cases streams with
  | part underway header file prepared part =>
    have underway' := underway.write written
    have streams' : Streams { client with conn, sent := client.sent ++ client.conn.outgoing env.isET results } (some .EPOLLOUT) :=
      .part underway' header file prepared (by rw [part, List.append_assoc])
    rcases cases with ⟨goes, event, processed, waits⟩ | ⟨_, rfl⟩ | ⟨_, rfl⟩
    · have none : conn.toWriteBytes = 0 := by
        by_contra left
        rw [afterWrite, if_neg left] at goes
        split at goes <;> cases goes
      obtain ⟨everything, empty⟩ := underway'.finished header file none
      rw [waits]
      refine Streams.process streams'.sound empty ?_ framed modest processed
      rw [prepared, part, List.append_assoc, everything]
      simp
    · exact ⟨streams', framed⟩
    · exact ⟨streams'.close, framed⟩

end Client

/-- What holds of every client there has been. -/
def Service.Streams (service : Service) : Prop :=
  ∀ fd client event, service fd = some (client, event) → client.Streams event ∧ client.Framed

namespace Service

variable {config : Config} {service next : Service} {fd : Nat}

theorem set_self (client : Client) (event : Option Event) : service.set fd client event fd = some (client, event) :=
  Function.update_self _ _ _

theorem set_other {other : Nat} (different : other ≠ fd) (client : Client) (event : Option Event) :
    service.set fd client event other = service other :=
  Function.update_of_ne different _ _

theorem Streams.set (streams : service.Streams) {client : Client} {event : Option Event} (holds : client.Streams event)
    (framed : client.Framed) : Service.Streams (service.set fd client event) := by
  intro other client' event' known
  by_cases same : other = fd
  · subst same
    rw [set_self] at known
    cases known
    exact ⟨holds, framed⟩
  · rw [set_other same] at known
    exact streams other client' event' known

/-- On a new connection nothing has been sent. -/
theorem Streams.init {conn : HttpConn} (valid : conn.writeBuff.Valid) (stale : conn.iov1.len < 2 ^ 31) :
    Client.Streams { conn := conn.init } (some .EPOLLIN) ∧ Client.Framed { conn := conn.init } :=
  ⟨.all ⟨valid.cleared, stale⟩ rfl rfl, [], rfl, nofun⟩

theorem Streams.step (memory : ∀ fd, (config.memory fd).len < 2 ^ 31) (streams : service.Streams) {action : Action}
    (modest : ∀ input ∈ action.inputs, input.files.Modest) (taken : service.step config action = some next) : next.Streams := by
  cases action with
  | accept fd =>
    rw [Service.step] at taken
    split at taken
    · cases taken
      have valid : (HttpConn.new (config.memory fd)).writeBuff.Valid := 
        ⟨Nat.le_refl 0, Nat.zero_le _, by rw [HttpConn.new, List.length_replicate]; decide⟩
      obtain ⟨holds, framed⟩ := Streams.init valid (memory fd)
      exact streams.set holds framed
    next client known =>
      cases taken
      have sound := (streams fd client none known).1.sound
      obtain ⟨holds, framed⟩ := Streams.init sound.valid sound.stale
      exact streams.set holds framed
    · cases taken
  | serve fd input =>
    rw [Service.step] at taken
    split at taken
    next client event known =>
      split at taken
      next after event' served =>
        cases taken
        obtain ⟨holds, framed⟩ := streams fd client (some event) known
        have small := modest input List.mem_cons_self
        have kept : after.Streams event' ∧ after.Framed := by
          cases event <;> cases input
          · exact holds.onRead framed small served
          · cases served
          · cases served
          · exact holds.onWrite framed small served
        exact streams.set kept.1 kept.2
      · cases taken
    · cases taken
  | drop fd =>
    rw [Service.step] at taken
    split at taken
    next client event known =>
      cases taken
      obtain ⟨holds, framed⟩ := streams fd client (some event) known
      exact streams.set holds.close framed
    · cases taken

end Service

variable {config : Config} {server : WebServer} {fd : Nat}

/-- What is known of a connection is what the serial server knows, or will be once it is closed. -/
theorem Represents.client {service : Service} (represents : Represents config server service) {client : Client}
    (known : server.users fd = some client) :
    ∃ viewed event, service fd = some (viewed, event) ∧ viewed.sent = client.sent ∧ viewed.responses = client.responses := by
  by_cases active : ∃ stage event, (fd, stage) ∈ server.places config ∧ stage.event? = some event
  · obtain ⟨stage, event, there, waits⟩ := active
    obtain ⟨client', known', serves⟩ := represents.active fd stage event there waits
    cases known.symm.trans known'
    exact ⟨client, some event, serves, rfl, rfl⟩
  · have quiet := represents.settled fd fun stage there => by
      cases waits : stage.event? with
      | none => rfl
      | some event => exact absurd ⟨stage, event, there, waits⟩ active
    rw [known] at quiet
    exact ⟨client.closed, none, quiet, rfl, rfl⟩

/-- A client asks for the page, and the first bytes of the response go out. -/
def firstBytes : List Action :=
  [.pass (fun _ => 0) 0, .wait [⟨3, { EPOLLIN := true }, .EPOLLIN⟩], .go, .accept (some 5) 0, .go, .accept none 0, .go,
    .pass (fun _ => 0) 0, .wait [⟨5, { EPOLLIN := true }, .EPOLLIN⟩], .go, .notify none, .go, .check 0,
    .read 0 siteFiles (fun _ _ _ => none) [.received indexRequest.render, .failed true], .work 0,
    .pass (fun _ => 0) 0, .wait [⟨5, { EPOLLOUT := true }, .EPOLLOUT⟩], .go, .notify none, .check 0,
    .write 0 siteFiles (fun _ _ _ => none) [.sent 40, .failed true]]

def siteServer : Config := { edgeTriggered with srcDir := srcDir (ascii "/srv") }

end WebServer

end HttpFramework.Code
