import HttpFramework.Proofs.ContentLength

/-! The status of a response. A file is sent with 200 unless it begins like a mapping that has failed,
and a request line that cannot be read is answered with 404: what is left of the path is the
directory of the resources. -/

namespace HttpFramework.Code
open Loop Search Storage

set_option maxRecDepth 4000

namespace HttpRequest

variable {userVerify : Verifier} {request : HttpRequest} {buff : Buffer} {text : RequestText} {suffix : Bytes}

theorem parseBody_other (other : request.method ≠ ascii "POST") (line : Bytes) :
    request.parseBody userVerify line = .ok { request with body := line, state := .FINISH } := by
  rw [parseBody, parsePost, if_neg other]
  rfl

theorem parse_bodiless (wellFormed : text.WellFormed) (bodiless : text.body = []) (other : text.method ≠ ascii "POST")
    (valid : buff.Valid) (holds : buff.content = text.render ++ suffix) :
    ∃ request later, parse userVerify init buff = .ok (true, request, later) ∧ request.path = (lineRequest text).path := by
  obtain ⟨later, valid', left, exits⟩ := @exits_head userVerify _ _ _ wellFormed bodiless valid holds
  by_cases empty : suffix = []
  · rw [if_pos empty] at exits
    exact ⟨_, _, exits _ (.leave (pass_finished rfl)), rfl⟩
  · rw [if_neg empty, ← left] at *
    have method : (headRequest text).method ≠ ascii "POST" := by
      rw [headRequest, lineRequest_eq]
      exact other
    have line : ∀ line, parseLine userVerify line later.content.length { headRequest text with state := .BODY } =
        .ok (some { headRequest text with body := line, state := .FINISH }) := by
      intro line
      have body := @parseBody_other userVerify { headRequest text with state := .BODY } method line
      simp only [parseLine, body]
      rfl
    have going : ({ headRequest text with state := .BODY } : HttpRequest).state ≠ .FINISH := by
      intro finished
      cases finished
    cases found : firstPair CR LF later.content with
    | none => exact ⟨_, _, exits _ (.leave (pass_remainder valid' going empty found (line _))), rfl⟩
    | some place =>
      obtain ⟨cut, unbroken⟩ := firstPair_cut found
      obtain ⟨last, again, _, _⟩ := pass_line valid' going cut unbroken (line _)
      exact ⟨_, _, exits _ (.again again (.leave (pass_finished rfl))), rfl⟩

/-- What stands behind the head of a request that is no `POST` changes nothing but its body. -/
theorem parse_path (wellFormed : text.WellFormed) (other : text.method ≠ ascii "POST")
    (valid : buff.Valid) (holds : buff.content = text.render ++ suffix) :
    ∃ request later, parse userVerify init buff = .ok (true, request, later) ∧ request.path = (lineRequest text).path := by
  have head : RequestText.WellFormed { text with body := [] } := { wellFormed with announced := .inl rfl }
  have holds : buff.content = RequestText.render { text with body := [] } ++ (text.body ++ suffix) := by
    rw [holds, RequestText.render, RequestText.render, List.append_nil, List.append_assoc]
    rfl
  exact @parse_bodiless userVerify _ { text with body := [] } _ head rfl other valid holds

/-- A request line that cannot be read leaves the request as it was. -/
theorem parse_unmatched (valid : buff.Valid) (nonempty : buff.content ≠ [])
    (unmatched : matchRequestLine (buff.content.take ((firstPair CR LF buff.content).getD buff.content.length)) = none) :
    parse userVerify init buff = .ok (false, init, buff) := by
  apply parse_of_exits valid nonempty
  apply Exits.leave
  have readable : buff.readableBytes ≠ 0 := by
    rw [Ne, readable_eq_zero valid]
    exact nonempty
  have going : init.state ≠ .FINISH := by decide
  have line : parseLine userVerify (buff.content.take ((firstPair CR LF buff.content).getD buff.content.length))
      buff.readableBytes init = .ok none := by
    simp only [parseLine, init, parseRequestLine, unmatched, Option.map_none]
  simp only [pass, readable, going, or_self, if_false, peek_content valid, line]

end HttpRequest

namespace HttpResponse

variable {files : Files} {response : HttpResponse}

/-- A file that everyone may read keeps the code that it is sent with. -/
theorem settled_readable {read write : Bool} {file : File} (there : files.disk.node response.fileName = .ok (.file read write file))
    (readable : files.othersRead response.fileName = true) (good : response.code = 200) :
    response.settled files = { response with mmFileStat := { othersRead := true, size := file.content.length } } := by
  have found : files.stat response.fileName = some { othersRead := true, size := file.content.length } := by
    rw [Files.stat, there, readable]
  have chosen := chooseCode_readable found rfl rfl
  rw [good, if_neg (by decide)] at chosen
  have page : CODE_PATH.lookup 200 = none := by decide
  have line : CODE_STATUS.lookup 200 = some (ascii "OK") := by decide
  rw [settled, chosen, errorHtml]
  simp only [page, addStateLine, line]
  rw [← good]

/-- A directory is answered like a file that is not there. -/
theorem settled_directory {read write : Bool} (there : files.disk.node response.fileName = .ok (.directory read write)) :
    (response.settled files).code = 404 := by
  have found : files.stat response.fileName = some { isDir := true, othersRead := files.othersRead response.fileName, size := 4096 } := by
    rw [Files.stat, there]
  have chosen : (response.chooseCode files).code = 404 := by
    simp only [chooseCode, statFile, found, Option.getD_some, or_true, if_true]
  have page : CODE_PATH.lookup 404 = some (ascii "/404.html") := by decide
  have line : CODE_STATUS.lookup 404 = some (ascii "Not Found") := by decide
  rw [settled, errorHtml]
  simp only [chosen, page, addStateLine, statFile, line]

/-- Four bytes of a file are taken for the address that `mmap` has failed with. -/
theorem startsWithMinusOne_iff {content : Bytes} (long : 4 ≤ content.length) :
    startsWithMinusOne content = true ↔ content.take 4 = [255, 255, 255, 255] := by
  rw [startsWithMinusOne, List.take_append_of_le_length long, decide_eq_true_iff]

end HttpResponse

namespace HttpConn

variable {env : Environment} {conn next : HttpConn}

/-- A response that has been prepared has been made and appended. -/
theorem respond_made {code : Int} {isKeepAlive : Bool} (prepared : conn.respond env code isKeepAlive = .ok next) :
    env.srcDir ≠ [] ∧ ∃ made texts writeBuff, (conn.started env code isKeepAlive).makeResponse env.files = .ok (made, texts) ∧
      appendAll texts conn.writeBuff = .ok writeBuff := by
  obtain ⟨response, initial, prepared⟩ := Fallible.bind_ok prepared
  obtain ⟨⟨made, texts⟩, done, prepared⟩ := Fallible.bind_ok prepared
  obtain ⟨writeBuff, appended, _⟩ := Fallible.bind_ok prepared
  rw [HttpResponse.init] at initial
  split at initial
  · cases initial
  next srcDir =>
    cases initial
    exact ⟨srcDir, made, texts, writeBuff, done, appended⟩

theorem respond_status {code : Int} {isKeepAlive : Bool} (valid : conn.writeBuff.Valid) (sized : env.files.Sized)
    (prepared : conn.respond env code isKeepAlive = .ok next) :
    ∃ reply, Reply.read (next.headerPart.drop conn.writeBuff.content.length) = some reply ∧
      reply.status = some (decimalInt ((conn.started env code isKeepAlive).settled env.files).code) := by
  obtain ⟨srcDir, made, texts, writeBuff, done, appended⟩ := respond_made prepared
  have small := @HttpResponse.settled_short _ (conn.started env code isKeepAlive) sized (show 0 < 2 ^ 63 by decide)
  have short := texts_short done small
  obtain ⟨next', prepared', responded⟩ := responded_of_appended srcDir valid done (by rw [maxSize]; omega) appended
  cases prepared.symm.trans prepared'
  rw [responded.headerPart, List.drop_left]
  obtain ⟨reply, read, status, _⟩ := HttpResponse.makeResponse_read done
  exact ⟨reply, read, status⟩

/-- What is prepared for a file that can be read: the file, or the page of an error with the status of
success. -/
theorem respond_file {write : Bool} {file : File} (srcDir : env.srcDir ≠ []) (valid : conn.writeBuff.Valid)
    (empty : conn.writeBuff.content = [])
    (there : env.files.disk.node (env.srcDir ++ conn.request.path) = .ok (.file true write file))
    (readable : env.files.othersRead (env.srcDir ++ conn.request.path) = true)
    (maps : env.files.mapFails (env.srcDir ++ conn.request.path) = false) (nonempty : file.content ≠ [])
    (sized : file.content.length < 2 ^ 63) (isKeepAlive : Bool) :
    ∃ next reply, conn.respond env 200 isKeepAlive = .ok next ∧ Reply.read next.headerPart = some reply ∧
      reply.status = some (ascii "200") ∧ reply.behind ++ (if next.iovCnt = 2 then next.filePart else []) =
        if HttpResponse.startsWithMinusOne file.content then HttpResponse.errorBody 200 (ascii "File NotFound!") else file.content := by
  have settled : (conn.started env 200 isKeepAlive).settled env.files =
      { conn.started env 200 isKeepAlive with mmFileStat := { othersRead := true, size := file.content.length } } :=
    HttpResponse.settled_readable there readable rfl
  have opened : env.files.openRead ((conn.started env 200 isKeepAlive).settled env.files).fileName = some (some file.content) := by
    rw [settled]
    exact (HttpResponse.openRead_file there).trans (if_pos rfl)
  have mapped : env.files.mmap ((conn.started env 200 isKeepAlive).settled env.files).fileName
      ((conn.started env 200 isKeepAlive).settled env.files).fileLen (some file.content) = some file.content := by
    rw [settled]
    exact HttpResponse.mmap_file.mpr ⟨nonempty, maps, rfl⟩
  obtain ⟨made, texts, done⟩ := @HttpResponse.makeResponse_of_mapped env.files (conn.started env 200 isKeepAlive)
    fun content again => by
      cases opened.symm.trans again
      exact ⟨_, mapped⟩
  obtain ⟨next, prepared, responded⟩ := respond_fits srcDir valid empty done (by rw [settled]; exact sized)
  obtain ⟨reply, read, status, cases⟩ := HttpResponse.makeResponse_read done
  have good : ((conn.started env 200 isKeepAlive).settled env.files).code = 200 := by
    rw [settled]
    rfl
  have success : reply.status = some (ascii "200") := by
    rw [status, good]
    rfl
  refine ⟨next, reply, prepared, by rw [responded.headerPart, empty]; exact read, success, ?_⟩
  rcases cases with ⟨rfl, page, _, refused⟩ | ⟨content, mapping, again, same, starts, rfl, behind, _⟩
  · rw [if_neg responded.alone, if_pos (refused _ _ opened mapped), List.append_nil, page, good]
  · cases opened.symm.trans again
    cases mapped.symm.trans same
    have both : next.iovCnt = 2 := responded.parts.trans (if_pos ⟨mmap_filled mapped, rfl⟩)
    have length : ((conn.started env 200 isKeepAlive).settled env.files).fileLen = file.content.length := by
      rw [settled]
      rfl
    rw [if_pos both, starts, behind, filePart, responded.response, responded.file both]
    show List.take ((conn.started env 200 isKeepAlive).settled env.files).fileLen (file.content.drop 0) = file.content
    rw [length, List.drop_zero, List.take_length]

/-- The file that a well-formed `GET` asks for is sent with the status of success unless its first bytes
look like a mapping that has failed. -/
theorem process_serves_iff {text : RequestText} {suffix : Bytes} {write : Bool} {file : File} (wellFormed : text.WellFormed)
    (get : text.method = ascii "GET") (readValid : conn.readBuff.Valid) (holds : conn.readBuff.content = text.render ++ suffix)
    (valid : conn.writeBuff.Valid) (empty : conn.writeBuff.content = []) (srcDir : env.srcDir ≠ [])
    (there : env.files.disk.node (env.srcDir ++ (HttpRequest.lineRequest text).path) = .ok (.file true write file))
    (readable : env.files.othersRead (env.srcDir ++ (HttpRequest.lineRequest text).path) = true)
    (maps : env.files.mapFails (env.srcDir ++ (HttpRequest.lineRequest text).path) = false)
    (long : 4 ≤ file.content.length) (sized : file.content.length < 2 ^ 63) :
    (∃ next reply, conn.process env = .ok (true, next) ∧ Reply.read next.headerPart = some reply ∧
      reply.status = some (ascii "200") ∧ reply.behind ++ (if next.iovCnt = 2 then next.filePart else []) = file.content) ↔
      file.content.take 4 ≠ [255, 255, 255, 255] := by
  have other : text.method ≠ ascii "POST" := by
    rw [get]
    decide
  obtain ⟨request, readBuff, parsed, path⟩ := @HttpRequest.parse_path env.userVerify _ _ _ wellFormed other readValid holds
  have input : conn.readBuff.readableBytes ≠ 0 := by
    rw [Ne, HttpRequest.readable_eq_zero readValid, holds]
    simp [RequestText.render, CRLF]
  have nonempty : file.content ≠ [] := List.ne_nil_of_length_pos (Nat.lt_of_lt_of_le (by decide) long)
  rw [← path] at there readable maps
  obtain ⟨next, reply, prepared, read, success, body⟩ := @respond_file env { conn with request, readBuff } _ _
    srcDir valid empty there readable maps nonempty sized request.isKeepAlive
  have processed : conn.process env = .ok (true, next) := by
    rw [process_of_parsed input parsed]
    exact congrArg _ prepared
  rw [Ne, ← HttpResponse.startsWithMinusOne_iff long]
  constructor
  · intro served starts
    obtain ⟨next', reply', processed', read', _, body'⟩ := served
    cases processed.symm.trans processed'
    cases read.symm.trans read'
    rw [body, if_pos starts] at body'
    rw [← body'] at starts
    exact absurd starts (by decide)
  · intro ordinary
    rw [if_neg ordinary] at body
    exact ⟨next, reply, processed, read, success, body⟩

theorem indexRequest_wellFormed : indexRequest.WellFormed :=
  ⟨by decide, by decide, by decide, by decide, by decide, by decide,
    List.forall_mem_singleton.mpr ⟨by decide, by decide, by decide, by decide, nofun⟩, .inl rfl⟩

theorem process_serves_index : (∃ next reply, indexConn.process siteEnvironment = .ok (true, next) ∧
      Reply.read next.headerPart = some reply ∧ reply.status = some (ascii "200") ∧
      reply.behind ++ (if next.iovCnt = 2 then next.filePart else []) = ascii "hello") ↔
    (ascii "hello").take 4 ≠ [255, 255, 255, 255] :=
  @process_serves_iff siteEnvironment indexConn indexRequest [] true ⟨ascii "hello", 0, 0⟩ indexRequest_wellFormed rfl
    ⟨by decide, by decide, by decide⟩ (by decide) ⟨by decide, by decide, by decide⟩ (by decide) (by decide) (by rfl) rfl rfl
    (by decide) (by decide)

/-- The page as a mask of four bytes without a hole. -/
def maskEnvironment : Environment :=
  { siteEnvironment with files := { siteFiles with disk := { siteFiles.disk with
      tree := siteFiles.disk.tree.insert [ascii "srv", ascii "resources", ascii "index.html"]
        (.file true true ⟨[255, 255, 255, 255], 0, 0⟩) } } }

theorem process_loses_mask : indexConn.readBuff.content = indexRequest.render ∧
    maskEnvironment.files.disk.node (maskEnvironment.srcDir ++ (HttpRequest.lineRequest indexRequest).path) =
      .ok (.file true true ⟨[255, 255, 255, 255], 0, 0⟩) ∧
    ¬ ∃ next reply, indexConn.process maskEnvironment = .ok (true, next) ∧ Reply.read next.headerPart = some reply ∧
      reply.status = some (ascii "200") ∧
      reply.behind ++ (if next.iovCnt = 2 then next.filePart else []) = [255, 255, 255, 255] := by
  refine ⟨by decide, by rfl, ?_⟩
  have page : ((indexConn.process maskEnvironment).toOption.bind fun answer => (Reply.read answer.2.headerPart).map fun reply =>
      reply.behind ++ if answer.2.iovCnt = 2 then answer.2.filePart else []) =
        some (HttpResponse.errorBody 200 (ascii "File NotFound!")) := by decide
  intro served
  obtain ⟨next, reply, processed, read, _, body⟩ := served
  rw [processed] at page
  simp only [Except.toOption, Option.bind_some, read, Option.map_some, body] at page
  exact absurd page (by decide)

/-- Where no request line can be read the path that is left is empty, and the directory of the resources
is not to be found. -/
theorem process_unmatched_status {read write : Bool} (readValid : conn.readBuff.Valid) (nonempty : conn.readBuff.content ≠ [])
    (unmatched : HttpRequest.matchRequestLine (conn.readBuff.content.take
      ((firstPair CR LF conn.readBuff.content).getD conn.readBuff.content.length)) = none)
    (valid : conn.writeBuff.Valid) (sized : env.files.Sized)
    (directory : env.files.disk.node env.srcDir = .ok (.directory read write)) (processed : conn.process env = .ok (true, next)) :
    ∃ reply, Reply.read (next.headerPart.drop conn.writeBuff.content.length) = some reply ∧
      reply.status = some (ascii "404") := by
  have input : conn.readBuff.readableBytes ≠ 0 := by
    rw [Ne, HttpRequest.readable_eq_zero readValid]
    exact nonempty
  rw [process_of_parsed input (HttpRequest.parse_unmatched readValid nonempty unmatched)] at processed
  cases prepared : respond env 400 false { conn with request := HttpRequest.init } with
  | error fault =>
    have failed := congrArg (Except.map fun next => (true, next)) prepared
    cases failed.symm.trans processed
  | ok done =>
    have same := congrArg (Except.map fun next => (true, next)) prepared
    cases same.symm.trans processed
    obtain ⟨reply, read, status⟩ := @respond_status env { conn with request := HttpRequest.init } _ _ _ valid sized prepared
    have code : ((({ conn with request := HttpRequest.init } : HttpConn).started env 400 false).settled env.files).code = 404 := by
      apply HttpResponse.settled_directory
      show env.files.disk.node (env.srcDir ++ []) = _
      rw [List.append_nil]
      exact directory
    rw [code] at status
    exact ⟨reply, read, status⟩

/-- A first line that is no request line is never answered with 400. -/
theorem process_never_bad_request {read write : Bool} (readValid : conn.readBuff.Valid) (nonempty : conn.readBuff.content ≠ [])
    (unmatched : HttpRequest.matchRequestLine (conn.readBuff.content.take
      ((firstPair CR LF conn.readBuff.content).getD conn.readBuff.content.length)) = none)
    (valid : conn.writeBuff.Valid) (sized : env.files.Sized)
    (directory : env.files.disk.node env.srcDir = .ok (.directory read write)) :
    ¬ ∃ next reply, conn.process env = .ok (true, next) ∧
      Reply.read (next.headerPart.drop conn.writeBuff.content.length) = some reply ∧ reply.status = some (ascii "400") := by
  intro answered
  obtain ⟨next, reply, processed, found, bad⟩ := answered
  obtain ⟨reply', found', missing⟩ := process_unmatched_status readValid nonempty unmatched valid sized directory processed
  cases found.symm.trans found'
  cases bad.symm.trans missing

/-- A line that is no request line. -/
def strayConn : HttpConn where
  readBuff := HttpRequest.filled (ascii "x" ++ CRLF)
  writeBuff := { buffer := List.replicate 8 0 }

theorem process_never_bad_request_stray : ¬ ∃ next reply, strayConn.process siteEnvironment = .ok (true, next) ∧
    Reply.read (next.headerPart.drop strayConn.writeBuff.content.length) = some reply ∧ reply.status = some (ascii "400") :=
  @process_never_bad_request siteEnvironment strayConn true true ⟨by decide, by decide, by decide⟩ (by decide) (by decide)
    ⟨by decide, by decide, by decide⟩ siteEnvironment_serviceable.sized (by rfl)

/-- The resources with the pages of the errors. -/
def pagesEnvironment : Environment :=
  { siteEnvironment with files := { siteFiles with disk := { siteFiles.disk with
      tree := HttpResponse.CODE_PATH.foldl (fun tree page => tree.insert [ascii "srv", ascii "resources", page.2.tail]
        (.file true true ⟨ascii "error", 0, 0⟩)) siteFiles.disk.tree } } }

theorem process_answers_not_found : HttpRequest.matchRequestLine (ascii "x") = none ∧
    strayConn.readBuff.content = ascii "x" ++ CRLF ∧
    pagesEnvironment.files.disk.node pagesEnvironment.srcDir = .ok (.directory true true) ∧
    (∀ page ∈ HttpResponse.CODE_PATH, pagesEnvironment.files.disk.node (pagesEnvironment.srcDir ++ page.2) =
      .ok (.file true true ⟨ascii "error", 0, 0⟩)) ∧
    ¬ ∃ next reply, strayConn.process pagesEnvironment = .ok (true, next) ∧ Reply.read next.headerPart = some reply ∧
      reply.status = some (ascii "400") := by
  refine ⟨by decide, by decide, by rfl, ?_, ?_⟩
  · intro page member
    fin_cases member <;> rfl
  · have missing : ((strayConn.process pagesEnvironment).toOption.bind fun answer =>
        (Reply.read answer.2.headerPart).bind Reply.status) = some (ascii "404") := by decide
    intro answered
    obtain ⟨next, reply, processed, read, bad⟩ := answered
    rw [processed] at missing
    simp only [Except.toOption, Option.bind_some, read, bad] at missing
    exact absurd missing (by decide)

end HttpConn

end HttpFramework.Code
