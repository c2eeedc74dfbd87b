import HttpFramework.Proofs.ReplyFormat
import HttpFramework.Proofs.ResponsePath
import HttpFramework.Proofs.SentBytes
import HttpFramework.Proofs.WebRequest

/-! The length that a response announces. Whatever `stat` and `open` tell of the file and of the
error pages, it is that of what follows the header. -/

namespace HttpFramework.Code
open Storage

set_option maxRecDepth 4000

namespace Buffer

variable {buff : Buffer} {data : Bytes}

/-- A vector that is far from full is not refused more space. -/
theorem Valid.makeSpace_fits (valid : buff.Valid) {len : Nat} (fits : buff.content.length + 2 * len + 1 ≤ maxSize)
    (exception : StdException) : buff.makeSpace len ≠ .error (.thrown exception) := by
  have readable := valid.readableBytes
  have writable := valid.writableBytes
  have read := valid.read
  have write := valid.write
  have size := valid.size
  rw [valid.content_length, readable] at fits
  simp only [maxSize] at size fits
  have space : toSizeT (buff.writableBytes + buff.prependableBytes) = buff.writableBytes + buff.readPos :=
    toSizeT_of_lt (show buff.writableBytes + buff.readPos < 2 ^ 64 by omega)
  intro thrown
  simp only [Buffer.makeSpace, space] at thrown
  split at thrown
  next short =>
    have small : buff.writePos + len + 1 < 2 ^ 64 := by omega
    have sum : toSizeT (buff.writePos + len + 1) = buff.writePos + len + 1 := toSizeT_of_lt small
    rw [sum, resize, if_pos (by simp only [maxSize]; omega)] at thrown
    cases thrown
  next => split at thrown <;> cases thrown

theorem Valid.append_fits (valid : buff.Valid) (fits : buff.content.length + 2 * data.length + 1 ≤ maxSize) :
    ∃ next, buff.append data = .ok next ∧ next.Valid ∧ next.content = buff.content ++ data := by
  have short : data.length ≤ maxSize := by omega
  rcases valid.append short with ⟨exception, thrown⟩ | done
  · exfalso
    rw [Buffer.append, Buffer.ensureWriteable] at thrown
    by_cases little : buff.writableBytes < data.length
    · rw [if_pos little] at thrown
      cases made : buff.makeSpace data.length with
      | error failure =>
        rw [made] at thrown
        cases thrown
        exact valid.makeSpace_fits fits exception made
      | ok grown =>
        rw [made] at thrown
        simp only [bind, Except.bind] at thrown
        by_cases enough : grown.writableBytes ≥ data.length
        · rw [if_pos enough] at thrown
          cases thrown
        · rw [if_neg enough] at thrown
          cases thrown
    · rw [if_neg little] at thrown
      simp only [bind, Except.bind, ge_iff_le, not_lt.mp little, if_true] at thrown
      cases thrown
  · exact done

end Buffer

/-- Sizes are of type `off_t`. -/
def Files.Sized (files : Files) : Prop :=
  ∀ name read write file, files.disk.node name = .ok (.file read write file) → file.content.length < 2 ^ 63

namespace HttpResponse

variable {files : Files} {response made : HttpResponse} {texts : List Bytes}

theorem decimal_short {n : Nat} (small : n < 2 ^ 63) : (decimal n).length ≤ 19 := by
  rw [decimal, List.length_map]
  exact (Nat.length_toDigits_le_iff (by decide) (by decide)).mpr (by omega)

/-- No response has much beside its file. -/
theorem reply_short {status : Int × Bytes} (known : status ∈ CODE_STATUS) {length : Nat} (small : length < 2 ^ 63) {behind : Bytes}
    (page : behind.length ≤ 200) : (response.reply status length behind).render.length ≤ 1000 := by
  have first : ∀ status ∈ CODE_STATUS, (statusLine status).length ≤ 100 := by decide
  have line := first status known
  have type := response.getFileType_plain.2
  have number := decimal_short small
  have headers : (response.headerLines.flatMap fun line => line ++ CRLF).length ≤ 200 := by
    rw [headerLines]
    cases response.isKeepAlive <;> simp [ascii, CRLF] <;> omega
  have name : (ascii "Content-length: ").length = 16 := rfl
  have two : CRLF.length = 2 := rfl
  simp only [reply, Reply.render, List.cons_append, List.flatMap_cons, List.flatMap_append, List.length_append, List.flatMap_nil,
    List.length_nil, two, lengthLine, name]
  omega

theorem errorBody_short {status : Int × Bytes} (known : status ∈ CODE_STATUS) :
    (errorBody status.1 (ascii "File NotFound!")).length ≤ 200 := by
  have all : ∀ status ∈ CODE_STATUS, (errorBody status.1 (ascii "File NotFound!")).length ≤ 200 := by decide
  exact all status known

theorem statFile_short (sized : files.Sized) (small : response.fileLen < 2 ^ 63) : (response.statFile files).fileLen < 2 ^ 63 := by
  rw [fileLen, statFile, Files.stat]
  split
  · exact (show 4096 < 2 ^ 63 by decide)
  next read write file there => exact sized _ _ _ _ there
  · exact small

/-- Only the code is chosen. -/
theorem chooseCode_same (files : Files) (response : HttpResponse) :
    response.chooseCode files = { response.statFile files with code := (response.chooseCode files).code } := by
  rw [chooseCode]
  split
  · rfl
  · split
    · rfl
    · split <;> rfl

theorem settled_same (files : Files) (response : HttpResponse) :
    response.settled files = { (response.chooseCode files).errorHtml files with code := (response.settled files).code } :=
  addStateLine_same _

theorem settled_short (sized : files.Sized) (small : response.fileLen < 2 ^ 63) : (response.settled files).fileLen < 2 ^ 63 := by
  have chosen : (response.chooseCode files).fileLen < 2 ^ 63 := by
    rw [chooseCode_same]
    exact statFile_short sized small
  rw [settled_same, errorHtml]
  split
  · exact @statFile_short _ { response.chooseCode files with path := _ } sized chosen
  · exact chosen

/-- What is known of the file is what `stat` has told of it last. -/
theorem settled_stat (files : Files) (response : HttpResponse) :
    ∃ before, (response.settled files).mmFileStat = (files.stat (response.settled files).fileName).getD before := by
  rw [settled_same, errorHtml]
  split
  · exact ⟨_, rfl⟩
  · rw [chooseCode_same]
    exact ⟨_, rfl⟩

theorem settled_mmFile (files : Files) (response : HttpResponse) : (response.settled files).mmFile = response.mmFile := by
  rw [settled_same, errorHtml]
  split
  · rw [chooseCode_same]
    rfl
  · rw [chooseCode_same]
    rfl

/-- A file that is opened has been told of. -/
theorem settled_opened {content : Option Bytes} (regular : ∀ read write,
      files.disk.node (response.settled files).fileName ≠ .ok (.directory read write))
    (opened : files.openRead (response.settled files).fileName = some content) :
    ∃ read write file, files.disk.node (response.settled files).fileName = .ok (.file read write file) ∧
      content = some file.content ∧ (response.settled files).fileLen = file.content.length := by
  obtain ⟨before, stat⟩ := settled_stat files response
  cases there : files.disk.node (response.settled files).fileName with
  | error error =>
    rw [Files.openRead, Disk.openRead, there] at opened
    cases opened
  | ok node =>
    cases node with
    | directory read write => exact absurd there (regular read write)
    | file read write file =>
      rw [openRead_file there] at opened
      split at opened <;> cases opened
      refine ⟨read, write, file, rfl, rfl, ?_⟩
      rw [fileLen, stat, Files.stat, there]
      rfl

/-- What is to be sent is no directory, if no error page is one. -/
theorem settled_regular (pages : ∀ code page, CODE_PATH.lookup code = some page → ∀ read write,
      files.disk.node (response.srcDir ++ page) ≠ .ok (.directory read write)) :
    ∀ read write, files.disk.node (response.settled files).fileName ≠ .ok (.directory read write) := by
  have name : (response.settled files).fileName = ((response.chooseCode files).errorHtml files).fileName := by
    rw [settled_same]
    rfl
  have srcDir : (response.chooseCode files).srcDir = response.srcDir := by
    rw [chooseCode_same]
    rfl
  cases error : CODE_PATH.lookup (response.chooseCode files).code with
  | some page =>
    rw [name, (errorHtml_page error).1, srcDir]
    exact pages _ page error
  | none =>
    rcases chooseCode_cases files response with ⟨code, page, error', chosen, _⟩ | ⟨stat, found, regular, _, chosen⟩
    · rw [chosen, error'] at error
      cases error
    · obtain ⟨read, write, file, there, _⟩ := stat_file found regular
      have own : (response.settled files).fileName = response.fileName := by
        rw [name, errorHtml, error, chosen]
        rfl
      intro read' write' directory
      rw [own, there] at directory
      cases directory

/-- A response comes about unless a mapping fails. -/
theorem makeResponse_of_mapped (mapped : ∀ content, files.openRead (response.settled files).fileName = some content →
      ∃ mapping, files.mmap (response.settled files).fileName (response.settled files).fileLen content = some mapping) :
    ∃ made texts, response.makeResponse files = .ok (made, texts) := by
  have added : ∃ made content, (response.settled files).addContent files = .ok (made, content) := by
    rw [addContent]
    split
    next => exact ⟨_, _, rfl⟩
    next content opened =>
      obtain ⟨mapping, mapped⟩ := mapped content opened
      rw [mapped]
      simp only
      split <;> exact ⟨_, _, rfl⟩
  obtain ⟨made, content, added⟩ := added
  refine ⟨made, ((response.chooseCode files).errorHtml files).addStateLine.2 ++ (response.settled files).addHeader ++ content, ?_⟩
  show ((response.settled files).addContent files >>= _) = _
  rw [added]
  rfl

end HttpResponse

namespace HttpConn

variable {env : Environment} {conn next : HttpConn}

/-- Files are not empty and can be mapped when they are opened, and no error page is a directory. -/
structure Serviceable (env : Environment) : Prop where
  srcDir : env.srcDir ≠ []
  sized : env.files.Sized
  nonempty : ∀ name read write file, env.files.disk.node name = .ok (.file read write file) → file.content ≠ []
  maps : ∀ name, env.files.mapFails name = false
  pages : ∀ code page, HttpResponse.CODE_PATH.lookup code = some page → ∀ read write,
    env.files.disk.node (env.srcDir ++ page) ≠ .ok (.directory read write)

theorem Serviceable.makeResponse (serviceable : Serviceable env) {response : HttpResponse} (place : response.srcDir = env.srcDir) :
    ∃ made texts, response.makeResponse env.files = .ok (made, texts) := by
  apply HttpResponse.makeResponse_of_mapped
  intro content opened
  obtain ⟨read, write, file, there, rfl, length⟩ :=
    HttpResponse.settled_opened (HttpResponse.settled_regular (place ▸ serviceable.pages)) opened
  rw [length]
  exact ⟨_, HttpResponse.mmap_file.mpr
    ⟨serviceable.nonempty _ _ _ _ there, serviceable.maps (response.settled env.files).fileName, rfl⟩⟩

theorem appendAll_content {texts : List Bytes} {buff after : Buffer} (valid : buff.Valid) (short : texts.flatten.length ≤ maxSize)
    (appended : appendAll texts buff = .ok after) : after.Valid ∧ after.content = buff.content ++ texts.flatten := by
  induction texts generalizing buff with
  | nil =>
    cases appended
    exact ⟨valid, by simp⟩
  | cons text texts ih =>
    rw [List.flatten_cons, List.length_append] at short
    rw [appendAll] at appended
    split at appended
    next grown added =>
      rcases valid.append (show text.length ≤ maxSize by omega) with ⟨exception, thrown⟩ | ⟨grown', added', valid', content⟩
      · cases added.symm.trans thrown
      · cases added.symm.trans added'
        obtain ⟨valid'', whole⟩ := ih valid' (by omega) appended
        exact ⟨valid'', by rw [whole, content, List.flatten_cons, List.append_assoc]⟩
    next => cases appended

theorem appendAll_fits {texts : List Bytes} {buff : Buffer} (valid : buff.Valid)
    (fits : buff.content.length + 2 * texts.flatten.length + 1 ≤ maxSize) : ∃ after, appendAll texts buff = .ok after := by
  induction texts generalizing buff with
  | nil => exact ⟨buff, rfl⟩
  | cons text texts ih =>
    rw [List.flatten_cons, List.length_append] at fits
    obtain ⟨grown, added, valid', content⟩ := @Buffer.Valid.append_fits _ text valid (by omega)
    obtain ⟨after, appended⟩ := ih valid' (by rw [content, List.length_append]; omega)
    exact ⟨after, by rw [appendAll, added]; exact appended⟩

/-- The response as `Init` leaves it. -/
def started (env : Environment) (code : Int) (isKeepAlive : Bool) (conn : HttpConn) : HttpResponse :=
  { code, isKeepAlive, path := conn.request.path, srcDir := env.srcDir }

/-- What `respond` prepares: the texts behind what the buffer held, and a file if there is one. -/
theorem respond_eq {code : Int} {isKeepAlive : Bool} {made : HttpResponse} {texts : List Bytes} {writeBuff : Buffer}
    (srcDir : env.srcDir ≠ [])
    (done : (conn.started env code isKeepAlive).makeResponse env.files = .ok (made, texts))
    (appended : appendAll texts conn.writeBuff = .ok writeBuff) :
    conn.respond env code isKeepAlive =
      .ok (if 0 < made.fileLen ∧ made.mmFile.isSome then
          { conn with response := made, writeBuff, iov0 := ⟨writeBuff.readPos, writeBuff.readableBytes⟩, iov1 := ⟨0, made.fileLen⟩,
                      iovCnt := 2 }
        else { conn with response := made, writeBuff, iov0 := ⟨writeBuff.readPos, writeBuff.readableBytes⟩, iovCnt := 1 }) := by
  rw [started] at done
  rw [respond, HttpResponse.init, if_neg srcDir]
  simp only [bind, Except.bind, done, appended, pure, Except.pure]
  split <;> rfl

/-- The texts of a response stand behind what the write buffer held, and its file goes with them. -/
structure Responded (conn : HttpConn) (made : HttpResponse) (texts : List Bytes) (next : HttpConn) : Prop where
  valid : next.writeBuff.Valid
  place : next.iov0 = ⟨next.writeBuff.readPos, next.writeBuff.readableBytes⟩
  content : next.writeBuff.content = conn.writeBuff.content ++ texts.flatten
  response : next.response = made
  parts : next.iovCnt = if 0 < made.fileLen ∧ made.mmFile.isSome then 2 else 1
  file : next.iovCnt = 2 → next.iov1 = ⟨0, made.fileLen⟩

variable {made : HttpResponse} {texts : List Bytes} {code : Int} {isKeepAlive : Bool}

theorem Responded.headerPart (responded : Responded conn made texts next) :
    next.headerPart = conn.writeBuff.content ++ texts.flatten := by
  have whole := responded.valid.peek (Nat.le_refl _)
  rw [← responded.valid.content_length, List.take_length, Buffer.peek] at whole
  rw [HttpConn.headerPart, responded.place, ← responded.content, ← responded.valid.content_length]
  exact whole

theorem responded_of_appended (srcDir : env.srcDir ≠ []) (valid : conn.writeBuff.Valid)
    (done : (conn.started env code isKeepAlive).makeResponse env.files = .ok (made, texts))
    (short : texts.flatten.length ≤ maxSize) {writeBuff : Buffer} (appended : appendAll texts conn.writeBuff = .ok writeBuff) :
    ∃ next, conn.respond env code isKeepAlive = .ok next ∧ Responded conn made texts next := by
  obtain ⟨valid', content⟩ := appendAll_content valid short appended
  refine ⟨_, respond_eq srcDir done appended, ?_⟩
  by_cases file : 0 < made.fileLen ∧ made.mmFile.isSome
  · rw [if_pos file]
    exact ⟨valid', rfl, content, rfl, (if_pos file).symm, fun _ => rfl⟩
  · rw [if_neg file]
    refine ⟨valid', rfl, content, rfl, (if_neg file).symm, ?_⟩
    intro two
    cases two

theorem texts_short (done : (conn.started env code isKeepAlive).makeResponse env.files = .ok (made, texts))
    (small : ((conn.started env code isKeepAlive).settled env.files).fileLen < 2 ^ 63) : texts.flatten.length ≤ 1000 := by
  obtain ⟨status, known, _, parts⟩ := HttpResponse.makeResponse_reply done
  rcases parts with ⟨_, page, _⟩ | ⟨_, _, _, _, _, _, file⟩
  · have body := HttpResponse.errorBody_short known
    rw [page]
    exact HttpResponse.reply_short known (by omega) body
  · rw [file]
    exact HttpResponse.reply_short known small (Nat.zero_le _)

/-- Where nothing is left of the last response there is room for the next. -/
theorem respond_fits (srcDir : env.srcDir ≠ []) (valid : conn.writeBuff.Valid) (empty : conn.writeBuff.content = [])
    (done : (conn.started env code isKeepAlive).makeResponse env.files = .ok (made, texts))
    (small : ((conn.started env code isKeepAlive).settled env.files).fileLen < 2 ^ 63) :
    ∃ next, conn.respond env code isKeepAlive = .ok next ∧ Responded conn made texts next := by
  have short := texts_short done small
  obtain ⟨writeBuff, appended⟩ := @appendAll_fits texts _ valid (by rw [empty, maxSize, List.length_nil]; omega)
  exact responded_of_appended srcDir valid done (by rw [maxSize]; omega) appended

/-- The response announces the bytes that follow its header, be they in the header's buffer or in the
file. -/
def Announces (next : HttpConn) : Prop :=
  ∃ reply, Reply.read next.headerPart = some reply ∧
    reply.contentLength = some (decimal (reply.behind.length + if next.iovCnt = 2 then next.iov1.len else 0))

theorem mmap_filled {files : Files} {name mapping : Bytes} {size : Nat} {content : Option Bytes}
    (mapped : files.mmap name size content = some mapping) : 0 < size := by
  rw [Files.mmap] at mapped
  split at mapped
  · cases mapped
  next something => exact Nat.pos_of_ne_zero (not_or.mp something).1

/-- A page of its own needs no second part. -/
theorem Responded.alone (responded : Responded conn ((conn.started env code isKeepAlive).settled env.files) texts next) :
    next.iovCnt ≠ 2 := by
  rw [responded.parts, HttpResponse.settled_mmFile, if_neg]
  · decide
  · exact fun both => nomatch both.2

/-- With a file, the response is ready to be sent. -/
theorem Responded.prepared (responded : Responded conn made texts next) (serviceable : Serviceable env)
    (done : (conn.started env code isKeepAlive).makeResponse env.files = .ok (made, texts)) (both : next.iovCnt = 2) :
    ∃ file, Prepared next.writeBuff.content file next := by
  obtain ⟨status, _, _, cases⟩ := HttpResponse.makeResponse_reply done
  rcases cases with ⟨rfl, _⟩ | ⟨content, mapping, opened, mapped, _, rfl, _⟩
  · exact absurd both responded.alone
  · obtain ⟨_, _, file, _, rfl, length⟩ := HttpResponse.settled_opened (HttpResponse.settled_regular serviceable.pages) opened
    rw [length] at mapped
    obtain ⟨_, _, rfl⟩ := HttpResponse.mmap_file.mp mapped
    refine ⟨file.content, both, responded.valid, rfl, ?_, ?_, ?_⟩
    · rw [responded.place, responded.valid.content_length]
    · rw [responded.response]
    · rw [responded.file both, ← length]
      rfl

theorem Responded.announces (responded : Responded conn made texts next) (empty : conn.writeBuff.content = [])
    (done : (conn.started env code isKeepAlive).makeResponse env.files = .ok (made, texts)) : next.Announces := by
  obtain ⟨reply, read, _, cases⟩ := HttpResponse.makeResponse_read done
  have parts := responded.parts
  rw [Announces, responded.headerPart, empty, List.nil_append]
  refine ⟨reply, read, ?_⟩
  rcases cases with ⟨rfl, _, announced, _⟩ | ⟨content, mapping, _, mapped, _, rfl, behind, announced⟩
  · rw [if_neg responded.alone]
    exact announced
  · have both : next.iovCnt = 2 := parts.trans (if_pos ⟨mmap_filled mapped, rfl⟩)
    rw [if_pos both, responded.file both, behind, List.length_nil, Nat.zero_add]
    exact announced

theorem respond_announces (serviceable : Serviceable env) (valid : conn.writeBuff.Valid) (empty : conn.writeBuff.content = [])
    (code : Int) (isKeepAlive : Bool) : ∃ next, conn.respond env code isKeepAlive = .ok next ∧ next.Announces := by
  obtain ⟨made, texts, done⟩ := @Serviceable.makeResponse _ serviceable (conn.started env code isKeepAlive) rfl
  have small := @HttpResponse.settled_short _ (conn.started env code isKeepAlive) serviceable.sized (show 0 < 2 ^ 63 by decide)
  obtain ⟨next, prepared, responded⟩ := respond_fits serviceable.srcDir valid empty done small
  exact ⟨next, prepared, responded.announces empty done⟩

theorem process_of_parsed {complete : Bool} {request : HttpRequest} {readBuff : Buffer} (input : conn.readBuff.readableBytes ≠ 0)
    (outcome : HttpRequest.init.parse env.userVerify conn.readBuff = .ok (complete, request, readBuff)) :
    conn.process env = (respond env (if complete then 200 else 400) (complete && request.isKeepAlive)
      { conn with request, readBuff }).map fun next => (true, next) := by
  rw [process, if_neg input]
  simp only [outcome, bind, Except.bind]
  cases complete with
  | true =>
    simp only [if_true, Bool.true_and]
    cases respond env 200 request.isKeepAlive { conn with request, readBuff } <;> rfl
  | false =>
    simp only [Bool.false_eq_true, if_false, Bool.false_and]
    cases respond env 400 false { conn with request, readBuff } <;> rfl

/-- Whatever the request comes to, and whatever of its file and of the error pages is there to be read,
the response announces what follows its header. -/
theorem process_announces (serviceable : Serviceable env) (valid : conn.writeBuff.Valid) (empty : conn.writeBuff.content = [])
    (input : conn.readBuff.readableBytes ≠ 0) {parsed : HttpRequest.Parsed}
    (outcome : HttpRequest.init.parse env.userVerify conn.readBuff = .ok parsed) :
    ∃ next, conn.process env = .ok (true, next) ∧ next.Announces := by
  obtain ⟨complete, request, readBuff⟩ := parsed
  obtain ⟨next, responded, announces⟩ := @respond_announces env { conn with request, readBuff } serviceable valid empty
    (if complete then 200 else 400) (complete && request.isKeepAlive)
  exact ⟨next, by rw [process_of_parsed input outcome, responded]; rfl, announces⟩

/-- The resources with one page. -/
def siteFiles : Files where
  disk := {
    tree := (Disk.fresh [ascii "srv", ascii "resources"]).tree.insert [ascii "srv", ascii "resources", ascii "index.html"]
      (.file true true ⟨ascii "hello", 0, 0⟩)
    cwd := [ascii "srv"] }
  othersRead _ := true

def siteEnvironment : Environment where
  files := siteFiles
  userVerify _ _ _ := none
  srcDir := WebServer.srcDir (ascii "/srv")
  isET := true

theorem siteFiles_content {name : Bytes} {read write : Bool} {file : File}
    (there : siteFiles.disk.node name = .ok (.file read write file)) : file.content = ascii "hello" := by
  have entries : ∀ entry ∈ siteFiles.disk.tree.toList, ∀ read write file, entry.2 = .file read write file →
      file.content = ascii "hello" := by
    have listed : siteFiles.disk.tree.toList = [([], .directory true true), ([ascii "srv"], .directory true true),
        ([ascii "srv", ascii "resources"], .directory true true),
        ([ascii "srv", ascii "resources", ascii "index.html"], .file true true ⟨ascii "hello", 0, 0⟩)] := by rfl
    intro entry member read write file same
    rw [listed] at member
    simp only [List.mem_cons, List.not_mem_nil, or_false] at member
    rcases member with rfl | rfl | rfl | rfl <;> cases same
    rfl
  obtain ⟨place, _, found⟩ := Fallible.bind_ok there
  split at found
  next node entry =>
    cases found
    exact entries _ (Std.ExtTreeMap.mem_toList_iff_getElem?_eq_some.mpr entry) _ _ _ rfl
  next => cases found

theorem siteEnvironment_serviceable : Serviceable siteEnvironment where
  srcDir := by decide
  sized name read write file there := by
    rw [siteFiles_content there]
    decide
  nonempty name read write file there := by
    rw [siteFiles_content there]
    decide
  maps _ := rfl
  pages code page known read write := by
    have missing : ∀ entry ∈ HttpResponse.CODE_PATH, (siteFiles.disk.node (siteEnvironment.srcDir ++ entry.2)).toOption = none := by
      decide
    obtain ⟨before, after, shape, _⟩ := List.lookup_eq_some_iff.mp known
    intro there
    have none := missing (code, page) (by rw [shape]; exact List.mem_append_right _ List.mem_cons_self)
    have there : siteFiles.disk.node (siteEnvironment.srcDir ++ page) = .ok (.directory read write) := there
    rw [there] at none
    cases none

/-- A request for the page. -/
def indexRequest : RequestText where
  method := ascii "GET"
  target := ascii "/"
  version := ascii "1.1"
  headers := [{ name := ascii "Host", value := ascii "a" }]

def indexConn : HttpConn where
  readBuff := HttpRequest.filled indexRequest.render
  writeBuff := { buffer := List.replicate 8 0 }

theorem process_announces_index : ∃ next, indexConn.process siteEnvironment = .ok (true, next) ∧ next.Announces :=
  process_announces siteEnvironment_serviceable ⟨by decide, by decide, by decide⟩ (by decide) (by decide)
    (show HttpRequest.init.parse siteEnvironment.userVerify indexConn.readBuff = .ok _ by rfl)

end HttpConn

end HttpFramework.Code
