import HttpFramework.Code.HttpConn
import HttpFramework.Library.Fallible
import HttpFramework.Proofs.UploadPath

/-! Which file goes out with a response. The path of the request is put behind the directory of
the resources as it is, so with `..` in it the path leads out of the directory; only a file that
cannot be sent is replaced by a page of the directory. -/

namespace HttpFramework.Code
open FileTree Storage

namespace HttpResponse

variable {files : Files} {response made : HttpResponse} {texts : List Bytes}

/-- The file at the path can be sent with a response of the code: it is no error, and the file is
readable and can be mapped, and does not start like a mapping that has failed. -/
structure Serves (files : Files) (code : Int) (name : Bytes) : Prop where
  code : CODE_PATH.lookup code = none
  othersRead : files.othersRead name = true
  maps : files.mapFails name = false
  content : ∃ write file, files.disk.node name = .ok (.file true write file) ∧ file.content ≠ [] ∧
    startsWithMinusOne file.content = false

theorem addContent_mapped (added : response.addContent files = .ok (made, texts)) (fresh : response.mmFile = none)
    (mapped : made.mmFile ≠ none) :
    made.fileName = response.fileName ∧ ∃ content mapping, files.openRead response.fileName = some content ∧
      files.mmap response.fileName response.fileLen content = some mapping ∧ startsWithMinusOne mapping = false := by
  rw [addContent] at added
  split at added
  · cases added
    exact absurd fresh mapped
  next content opened =>
    split at added
    · cases added
    next mapping mappedAs =>
      split at added
      · cases added
        exact absurd fresh mapped
      next starts =>
        cases added
        exact ⟨rfl, content, mapping, opened, mappedAs, Bool.eq_false_of_not_eq_true starts⟩

theorem addContent_file {content : Option Bytes} {mapping : Bytes} (opened : files.openRead response.fileName = some content)
    (mapped : files.mmap response.fileName response.fileLen content = some mapping)
    (starts : startsWithMinusOne mapping = false) :
    response.addContent files = .ok ({ response with mmFile := some mapping },
      [ascii "Content-length: " ++ decimal response.fileLen ++ CRLF ++ CRLF]) := by
  simp only [addContent, opened, mapped, starts, Bool.false_eq_true, if_false]

theorem stat_file {name : Bytes} {stat : FileStat} (found : files.stat name = some stat) (regular : stat.isDir = false) :
    ∃ read write file, files.disk.node name = .ok (.file read write file) ∧
      stat = { othersRead := files.othersRead name, size := file.content.length } := by
  rw [Files.stat] at found
  split at found
  · cases found
    cases regular
  next read write file there =>
    cases found
    exact ⟨read, write, file, there, rfl⟩
  · cases found

theorem openRead_file {name : Bytes} {read write : Bool} {file : File}
    (there : files.disk.node name = .ok (.file read write file)) :
    files.openRead name = if read then some (some file.content) else none := by
  have opened : files.disk.openRead name = if read then .ok (some file.content) else .error .denied := by
    rw [Disk.openRead, there]
    rfl
  rw [Files.openRead, opened]
  cases read <;> rfl

/-- The whole file is mapped, if it is not empty. -/
theorem mmap_file {name content mapping : Bytes} :
    files.mmap name content.length (some content) = some mapping ↔
      content ≠ [] ∧ files.mapFails name = false ∧ mapping = content := by
  simp only [Files.mmap, List.length_eq_zero_iff, Option.map_some, List.take_length]
  by_cases fails : content = [] ∨ files.mapFails name = true
  · rw [if_pos fails]
    constructor
    · intro wrong
      cases wrong
    · intro ⟨nonempty, maps, _⟩
      rcases fails with empty | refused
      · exact absurd empty nonempty
      · cases refused.symm.trans maps
  · rw [if_neg fails]
    obtain ⟨nonempty, maps⟩ := not_or.mp fails
    exact ⟨fun same => ⟨nonempty, Bool.eq_false_of_not_eq_true maps, (Option.some.inj same).symm⟩, fun holds => by rw [holds.2.2]⟩

theorem chooseCode_readable {stat : FileStat} (found : files.stat response.fileName = some stat) (regular : stat.isDir = false)
    (readable : stat.othersRead = true) :
    response.chooseCode files =
      { response with mmFileStat := stat, code := if response.code = -1 then 200 else response.code } := by
  simp only [chooseCode, statFile, found, Option.isNone_some, Option.getD_some, regular, readable, Bool.false_eq_true,
    or_self, not_true_eq_false, if_false]
  split <;> rfl

/-- Either a code of an error has been set, or the file is there for everyone to read. -/
theorem chooseCode_cases (files : Files) (response : HttpResponse) :
    (∃ code page, CODE_PATH.lookup code = some page ∧ (response.chooseCode files).code = code ∧
      (response.chooseCode files).srcDir = response.srcDir ∧ (response.chooseCode files).mmFile = response.mmFile) ∨
    ∃ stat, files.stat response.fileName = some stat ∧ stat.isDir = false ∧ stat.othersRead = true ∧
      response.chooseCode files =
        { response with mmFileStat := stat, code := if response.code = -1 then 200 else response.code } := by
  -- An error sets the code and nothing else but the state of the file.
  have failed {code : Int} {page : Bytes} {stat : FileStat} (error : CODE_PATH.lookup code = some page)
      (chosen : response.chooseCode files = { response with mmFileStat := stat, code }) :
      ∃ code page, CODE_PATH.lookup code = some page ∧ (response.chooseCode files).code = code ∧
        (response.chooseCode files).srcDir = response.srcDir ∧ (response.chooseCode files).mmFile = response.mmFile := by
    rw [chosen]
    exact ⟨code, page, error, rfl, rfl, rfl⟩
  cases found : files.stat response.fileName with
  | none =>
    refine .inl (@failed 404 _ response.mmFileStat rfl ?_)
    simp only [chooseCode, statFile, found, Option.isNone_none, Option.getD_none, true_or, if_true]
  | some stat =>
    cases regular : stat.isDir with
    | true =>
      refine .inl (@failed 404 _ stat rfl ?_)
      simp only [chooseCode, statFile, found, Option.getD_some, regular, or_true, if_true]
    | false =>
      cases readable : stat.othersRead with
      | true => exact .inr ⟨stat, rfl, regular, readable, chooseCode_readable found regular readable⟩
      | false =>
        refine .inl (@failed 403 _ stat rfl ?_)
        simp only [chooseCode, statFile, found, Option.isNone_some, Option.getD_some, regular, readable, Bool.false_eq_true,
          or_self, not_false_eq_true, if_false, if_true]

theorem errorHtml_page {page : Bytes} (error : CODE_PATH.lookup response.code = some page) :
    (response.errorHtml files).fileName = response.srcDir ++ page ∧ (response.errorHtml files).mmFile = response.mmFile := by
  rw [errorHtml, error]
  exact ⟨rfl, rfl⟩

theorem addStateLine_same (response : HttpResponse) :
    response.addStateLine.1 = { response with code := response.addStateLine.1.code } := by
  rw [addStateLine]
  split <;> rfl

theorem lookup_default {code : Int} : CODE_PATH.lookup (if code = -1 then 200 else code) = CODE_PATH.lookup code := by
  split
  next unset =>
    rw [unset]
    rfl
  next => rfl

theorem makeResponse_added (done : response.makeResponse files = .ok (made, texts)) :
    ∃ code content, ({ (response.chooseCode files).errorHtml files with code } : HttpResponse).addContent files =
      .ok (made, content) := by
  obtain ⟨⟨sent, content⟩, added, rest⟩ := Fallible.bind_ok done
  cases rest
  have added : ((response.chooseCode files).errorHtml files).addStateLine.1.addContent files = .ok (made, content) := added
  rw [addStateLine_same] at added
  exact ⟨_, content, added⟩

/-- What goes out is a page of the directory or the file of the request. -/
theorem makeResponse_mapped (fresh : response.mmFile = none) (done : response.makeResponse files = .ok (made, texts))
    (mapped : made.mmFile ≠ none) :
    (∃ code page, CODE_PATH.lookup code = some page ∧ made.fileName = response.srcDir ++ page) ∨
      made.fileName = response.fileName ∧ Serves files response.code response.fileName := by
  obtain ⟨code, content, added⟩ := makeResponse_added done
  -- A page is sent in the place of the file once the code is one of an error.
  have substituted {code : Int} {page : Bytes} (error : CODE_PATH.lookup code = some page)
      (chosen : (response.chooseCode files).code = code) (srcDir : (response.chooseCode files).srcDir = response.srcDir)
      (file : (response.chooseCode files).mmFile = response.mmFile) : made.fileName = response.srcDir ++ page := by
    obtain ⟨name, still⟩ := @errorHtml_page files _ _ (chosen.symm ▸ error)
    have sent := (addContent_mapped added ((still.trans file).trans fresh) mapped).1
    rw [srcDir] at name
    exact sent.trans name
  rcases chooseCode_cases files response with ⟨code, page, error, chosen, srcDir, file⟩ | ⟨stat, found, regular, readable, chosen⟩
  · exact .inl ⟨code, page, error, substituted error chosen srcDir file⟩
  · cases error : CODE_PATH.lookup response.code with
    | some page =>
      have error' : CODE_PATH.lookup (if response.code = -1 then 200 else response.code) = some page :=
        lookup_default.trans error
      exact .inl ⟨_, page, error', substituted error' (by rw [chosen]) (by rw [chosen]) (by rw [chosen])⟩
    | none =>
      have own : (response.chooseCode files).errorHtml files = response.chooseCode files := by
        rw [chosen, errorHtml]
        simp only [lookup_default, error]
      rw [own, chosen] at added
      obtain ⟨name, content, mapping, opened, mapped, starts⟩ := addContent_mapped added fresh mapped
      obtain ⟨read, write, file, there, rfl⟩ := stat_file found regular
      have opened : files.openRead response.fileName = some content := opened
      rw [openRead_file there] at opened
      split at opened
      next opens =>
        cases opened
        have mapped : files.mmap response.fileName file.content.length (some file.content) = some mapping := mapped
        obtain ⟨nonempty, maps, rfl⟩ := mmap_file.mp mapped
        rw [opens] at there
        exact .inr ⟨name, error, readable, maps, write, file, there, nonempty, starts⟩
      next => cases opened

/-- A file that can be sent is sent. -/
theorem makeResponse_serves (serves : Serves files response.code response.fileName) :
    ∃ made texts, response.makeResponse files = .ok (made, texts) ∧ made.mmFile ≠ none ∧ made.fileName = response.fileName := by
  obtain ⟨write, file, there, nonempty, starts⟩ := serves.content
  have found : files.stat response.fileName = some { othersRead := true, size := file.content.length } := by
    rw [Files.stat, there, serves.othersRead]
  let chosen : HttpResponse := { response with
    mmFileStat := { othersRead := true, size := file.content.length }, code := if response.code = -1 then 200 else response.code }
  have settled : (response.chooseCode files).errorHtml files = chosen := by
    rw [chooseCode_readable found rfl rfl, errorHtml]
    simp only [lookup_default, serves.code, chosen]
  let line := chosen.addStateLine
  have name : line.1.fileName = response.fileName ∧ line.1.fileLen = file.content.length := by
    simp only [line, addStateLine]
    split <;> exact ⟨rfl, rfl⟩
  have opened : files.openRead line.1.fileName = some (some file.content) := by
    rw [name.1]
    exact openRead_file there
  have mapped : files.mmap line.1.fileName line.1.fileLen (some file.content) = some file.content := by
    rw [name.1, name.2]
    exact mmap_file.mpr ⟨nonempty, serves.maps, rfl⟩
  refine ⟨{ line.1 with mmFile := some file.content }, line.2 ++ line.1.addHeader ++
    [ascii "Content-length: " ++ decimal line.1.fileLen ++ CRLF ++ CRLF], ?_, fun wrong => ?_, name.1⟩
  · rw [makeResponse]
    simp only [settled]
    show (line.1.addContent files >>= _) = _
    rw [addContent_file opened mapped starts]
    rfl
  · cases wrong

/-- The place of the working directory, given as `getcwd` writes it. -/
def placeOf (cwd : Bytes) : Place := resolve [] (components cwd)

/-- By itself the path does not go up, or it comes down again to where it started. -/
def StaysInResources (cwd path : Bytes) : Prop :=
  let reached := normal (components (cString path))
  reached.1 = 0 ∨ (placeOf cwd).drop ((placeOf cwd).length + 1 - reached.1) ++ [ascii "resources"] <+: reached.2

section
variable {cwd : Bytes}

theorem resolve_srcDir (absolute : cwd.head? = some (chr '/')) (plain : 0 ∉ cwd) (disk : Disk) (path : Bytes) :
    disk.resolve (WebServer.srcDir cwd ++ path) = resolve (placeOf cwd ++ [ascii "resources"]) (components (cString path)) := by
  have absent : 0 ∉ WebServer.srcDir cwd := by
    intro member
    rcases List.mem_append.mp member with inside | fixed
    · exact plain inside
    · exact absurd fixed (by decide)
  have cut : cString (WebServer.srcDir cwd ++ path) = cwd ++ chr '/' :: (ascii "resources" ++ chr '/' :: cString path) := by
    rw [cString_append absent, WebServer.srcDir, List.append_assoc]
    rfl
  have fromRoot : disk.origin (cString (WebServer.srcDir cwd ++ path)) = [] := by
    rw [cut, Disk.origin, List.head?_append, absolute]
    rfl
  rw [Disk.resolve, fromRoot, cut, components_append, components_append, resolve_append, resolve_append]
  rfl

theorem resolve_resources (absolute : cwd.head? = some (chr '/')) (plain : 0 ∉ cwd) (disk : Disk) :
    disk.resolve (WebServer.srcDir cwd) = placeOf cwd ++ [ascii "resources"] := by
  have whole := resolve_srcDir absolute plain disk []
  rwa [List.append_nil] at whole

def LiesInside (disk : Disk) (srcDir name : Bytes) : Prop := disk.resolve srcDir <+: disk.resolve name

theorem liesInside_iff (absolute : cwd.head? = some (chr '/')) (plain : 0 ∉ cwd) (disk : Disk) (path : Bytes) :
    LiesInside disk (WebServer.srcDir cwd) (WebServer.srcDir cwd ++ path) ↔ StaysInResources cwd path := by
  rw [LiesInside, resolve_resources absolute plain, resolve_srcDir absolute plain, prefix_resolve_iff, StaysInResources]
  rcases Nat.eq_zero_or_pos (normal (components (cString path))).1 with stays | climbs
  · simp [stays]
  · simp [climbs, Nat.ne_of_gt climbs]

theorem page_staysInResources {code : Int} {page : Bytes} (error : CODE_PATH.lookup code = some page) :
    StaysInResources cwd page := by
  have pages : page ∈ CODE_PATH.map Prod.snd := by
    obtain ⟨before, after, shape, _⟩ := List.lookup_eq_some_iff.mp error
    apply List.mem_map.mpr
    refine ⟨(code, page), ?_, rfl⟩
    rw [shape]
    exact List.mem_append_right before List.mem_cons_self
  left
  simp only [CODE_PATH, List.map_cons, List.map_nil, List.mem_cons, List.not_mem_nil, or_false] at pages
  rcases pages with rfl | rfl | rfl <;> rfl

/-- Whatever file goes out with the response, it lies in the directory of the resources. -/
def OpensInside (files : Files) (response : HttpResponse) : Prop :=
  ∀ made texts, response.makeResponse files = .ok (made, texts) → made.mmFile ≠ none →
    LiesInside files.disk response.srcDir made.fileName

/-- For every path, the file that goes out lies inside exactly when the path stays there or its
file cannot be sent. -/
theorem opensInside_iff (files : Files) {cwd : Bytes} (absolute : cwd.head? = some (chr '/')) (plain : 0 ∉ cwd)
    {path : Bytes} {isKeepAlive : Bool} {code : Int} {response : HttpResponse}
    (initial : HttpResponse.init (WebServer.srcDir cwd) path isKeepAlive code = .ok response) :
    OpensInside files response ↔ StaysInResources cwd path ∨ ¬ Serves files code (WebServer.srcDir cwd ++ path) := by
  rw [HttpResponse.init] at initial
  split at initial
  · cases initial
  cases initial
  constructor
  · intro inside
    by_cases serves : Serves files code (WebServer.srcDir cwd ++ path)
    · obtain ⟨made, texts, done, mapped, name⟩ := @makeResponse_serves files
        { code, isKeepAlive, path, srcDir := WebServer.srcDir cwd } serves
      have lies := inside made texts done mapped
      rw [name] at lies
      exact .inl ((liesInside_iff absolute plain _ _).mp lies)
    · exact .inr serves
  · intro holds made texts done mapped
    rcases makeResponse_mapped rfl done mapped with ⟨code', page, error, name⟩ | ⟨name, serves⟩
    · rw [name]
      exact (liesInside_iff absolute plain _ _).mpr (page_staysInResources error)
    · rw [name]
      exact (liesInside_iff absolute plain _ _).mpr (holds.resolve_right (not_not.mpr serves))

end

/-- A server in `/srv` with a file beside the resources. -/
def secretFiles : Files where
  disk := {
    tree := (Disk.fresh [ascii "srv", ascii "resources"]).tree.insert [ascii "srv", ascii "secret"]
      (.file true true ⟨ascii "key", 0, 0⟩)
    cwd := [ascii "srv"] }
  othersRead _ := true

theorem opensInside_index :
    OpensInside secretFiles { code := 200, path := ascii "/index.html", srcDir := WebServer.srcDir (ascii "/srv") } := by
  apply (@opensInside_iff secretFiles (ascii "/srv") (by decide) (by decide) (ascii "/index.html") false 200 _ rfl).mpr
  exact .inl (.inl rfl)

/-- The request for the file beside the resources. -/
def secretRequest : HttpRequest :=
  { method := ascii "GET", path := ascii "/../secret", version := ascii "1.1", state := .HEADERS }

theorem secretRequest_parsed :
    HttpRequest.init.parseRequestLine (ascii "GET /../secret HTTP/1.1") = some secretRequest ∧
      secretRequest.parsePath = secretRequest := by
  have matched : HttpRequest.matchRequestLine (ascii "GET /../secret HTTP/1.1") =
      some (ascii "GET", ascii "/../secret", ascii "1.1") := by decide
  constructor
  · rw [HttpRequest.parseRequestLine, matched]
    rfl
  · rw [HttpRequest.parsePath, if_neg (by decide), if_neg (by decide)]

/-- The file beside the resources is asked for with `..` and goes out. -/
theorem secret_goes_out :
    ¬ ∀ (files : Files) (cwd line : Bytes) (request : HttpRequest) (isKeepAlive : Bool) (response : HttpResponse),
      cwd.head? = some (chr '/') → 0 ∉ cwd → HttpRequest.init.parseRequestLine line = some request →
      HttpResponse.init (WebServer.srcDir cwd) request.parsePath.path isKeepAlive 200 = .ok response →
      OpensInside files response := by
  intro inside
  let response : HttpResponse := { code := 200, path := ascii "/../secret", srcDir := WebServer.srcDir (ascii "/srv") }
  have there : secretFiles.disk.node response.fileName = .ok (.file true true ⟨ascii "key", 0, 0⟩) := rfl
  have serves : Serves secretFiles 200 response.fileName := ⟨rfl, rfl, rfl, true, _, there, by decide, by decide⟩
  obtain ⟨made, texts, done, mapped, name⟩ := @makeResponse_serves secretFiles response serves
  have initial : HttpResponse.init (WebServer.srcDir (ascii "/srv")) secretRequest.parsePath.path false 200 = .ok response := by
    rw [secretRequest_parsed.2]
    rfl
  have lies := inside secretFiles (ascii "/srv") _ secretRequest false response (by decide) (by decide) secretRequest_parsed.1
    initial made texts done mapped
  rw [name] at lies
  rcases (liesInside_iff (by decide) (by decide) _ _).mp lies with level | back
  · exact absurd level (by decide)
  · exact absurd back (by decide)

end HttpResponse

end HttpFramework.Code
