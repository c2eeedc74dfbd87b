import HttpFramework.Storage.DataManager

/-! `storage::Service`: the handlers of the storage server. libevent calls them one after
the other on one thread. A handler ends by returning, by a fault that ends the process, or
waiting for a lock; the replies it has sent so far stand in either case. -/

namespace HttpFramework.Storage

structure Config where
  serverPort : Int
  serverIp : Bytes
  downloadPrefix : Bytes
  deepStorageDir : Bytes
  lowStorageDir : Bytes
  bundleFormat : Int
  storageInfo : Bytes

/-- The file `Storage.conf`. -/
def storageConf : Config where
  serverPort := 8081
  serverIp := ascii "127.0.0.1"
  downloadPrefix := ascii "/download/"
  deepStorageDir := ascii "./deep_storage/"
  lowStorageDir := ascii "./low_storage/"
  bundleFormat := 4
  storageInfo := ascii "./storage.data"

/-- The libraries around the service, with the parts of the C++ implementation that decide
something: the values of members that nothing has set, and the texts that depend on the
time zone, on floating point numbers and on regular expressions. -/
structure Platform where
  bundle : Bundle
  jsoncpp : Jsoncpp
  hashing : Hashing
  thread : Thread
  unset : StorageInfo
  unset_paths : unset.storagePath = [] ∧ unset.url = []
  ctime : Int → Option Bytes
  formatSize : Nat → Bytes
  regexReplace : Bytes → Bytes → Bytes → Bytes
  strerror : FileTree.Failure → Bytes

/-- The body of a request. Nothing can be copied out of a buffer that is frozen. -/
structure InputBuffer where
  content : Bytes
  frozen : Bool := false

structure Request where
  path : Bytes
  headers : List (Bytes × Bytes) := []
  inputBuffer : Option InputBuffer := none

def lower (c : UInt8) : UInt8 := if chr 'A' ≤ c ∧ c ≤ chr 'Z' then c + 32 else c

/-- `evhttp_find_header`. -/
def Request.findHeader (request : Request) (name : Bytes) : Option Bytes :=
  (request.headers.find? fun header => header.1.map lower = name.map lower).map Prod.snd

structure Reply where
  code : Nat
  reason : Option Bytes := none
  headers : List (Bytes × Bytes) := []
  body : Bytes := []

structure Server where
  manager : DataManager
  disk : Disk
  replies : List Reply := []
  fault : Option Fault := none
  waiting : Bool := false

namespace Server

/-- `evhttp_send_reply`. -/
def sendReply (server : Server) (reply : Reply) : Server := { server with replies := server.replies ++ [reply] }

def fail (server : Server) (fault : Fault) : Server := { server with fault := some fault }

def wait (server : Server) : Server := { server with waiting := true }

end Server

/-- `std::string::find` against `npos`. -/
def contains (text part : Bytes) : Bool := part <:+: text

section
variable (config : Config) (platform : Platform)

/-- The times are those of access and modification, in this order. A file that is not there
leaves the record unset. -/
def newStorageInfo (disk : Disk) (storagePath : Bytes) : Except Fault StorageInfo := do
  if ← FileUtil.exists? disk storagePath then
    return {
      mtime := FileUtil.lastAccessTime disk storagePath
      atime := FileUtil.lastModifyTime disk storagePath
      fsize := toSizeT (FileUtil.fileSize disk storagePath)
      storagePath := storagePath
      url := config.downloadPrefix ++ FileUtil.fileName storagePath }
  else
    return platform.unset

/-- The end of `Upload`: the file is recorded. -/
def record (storagePath : Bytes) (server : Server) : Server :=
  match newStorageInfo config platform server.disk storagePath with
  | .error fault => server.fail fault
  | .ok info =>
    match server.manager.insert platform.jsoncpp platform.hashing platform.thread info server.disk with
    | none => server.wait
    | some (manager, disk) => { server with manager, disk }.sendReply { code := 200, reason := ascii "Success" }

/-- Whether `Upload` packs the content is read off the path. -/
def saveContent (disk : Disk) (storagePath content : Bytes) : Bool × Disk :=
  if contains storagePath (ascii "low_storage") then FileUtil.setContent disk storagePath content
  else FileUtil.compress platform.bundle disk storagePath content config.bundleFormat

/-- `Upload` from where it knows the directory. -/
def store (directory filename content : Bytes) (server : Server) : Server :=
  match FileUtil.createDirectory server.disk directory with
  | (.error fault, disk) => { server with disk }.fail fault
  | (.ok _, disk) =>
    match saveContent config platform disk (directory ++ filename) content with
    | (true, disk) => record config platform (directory ++ filename) { server with disk }
    | (false, disk) => { server with disk }.sendReply { code := 500, reason := ascii "server error" }

/-- A header that is missing is a null pointer, from which no string can be made. -/
def upload (request : Request) (server : Server) : Server :=
  match request.inputBuffer with
  | none => server
  | some buf =>
    if buf.content.length = 0 then
      server.sendReply { code := 400, reason := ascii "file empty" }
    else if buf.frozen then
      server.sendReply { code := 500 }
    else
      match request.findHeader (ascii "FileName") with
      | none => server.fail .logicError
      | some encoded =>
        match base64Decode encoded with
        | .error fault => server.fail fault
        | .ok filename =>
          match request.findHeader (ascii "StorageType") with
          | none => server.fail .logicError
          | some storageType =>
            if storageType = ascii "low" then store config platform config.lowStorageDir filename buf.content server
            else if storageType = ascii "deep" then store config platform config.deepStorageDir filename buf.content server
            else server.sendReply { code := 400, reason := ascii "Illegal storage type" }

def utf8 (text : String) : Bytes := text.toUTF8.data.toList

/-- `std::to_string` of a signed number. -/
def toString (n : Int) : Bytes := if n < 0 then chr '-' :: decimal n.natAbs else decimal n.natAbs

/-- The entry of one file. A time that `ctime` cannot write is a null pointer. -/
def fileItem (file : StorageInfo) : Except Fault Bytes :=
  let deep := contains file.storagePath (ascii "/deep/")
  match platform.ctime file.mtime with
  | none => .error .logicError
  | some mtime => .ok (utf8 "<div class='file-item'><div class='file-info'><span>📄" ++
      FileUtil.fileName file.storagePath ++ utf8 "</span><span class='file-type'>" ++
      utf8 (if deep then "深度存储" else "普通存储") ++ utf8 "</span><span>" ++ platform.formatSize file.fsize ++
      utf8 "</span><span>" ++ mtime ++ utf8 "</span></div><button onclick=\"window.location='" ++ file.url ++
      utf8 "'\">⬇️ 下载</button></div>")

def generateModernFileList (files : List StorageInfo) : Except Fault Bytes := do
  let items ← files.mapM (fileItem platform)
  return utf8 "<div class='file-list'><h3>已上传文件</h3>" ++ items.flatten ++ utf8 "</div>"

/-- A template that cannot be read is empty. -/
def listShow (server : Server) : Server :=
  match server.manager.getAll platform.thread with
  | none => server.wait
  | some (files, manager) =>
    let template := match server.disk.openRead (ascii "index.html") with
      | .ok (some bytes) => bytes
      | _ => []
    match generateModernFileList platform files with
    | .error fault => { server with manager }.fail fault
    | .ok list =>
      let page := platform.regexReplace template (ascii "\\\x7b\\\x7bFILE_LIST\\\x7d\\\x7d") list
      let page := platform.regexReplace page (ascii "\\\x7b\\\x7bBACKEND_URL\\\x7d\\\x7d")
        (ascii "http://" ++ config.serverIp ++ ascii ":" ++ toString config.serverPort)
      { server with manager }.sendReply
        { code := 200, headers := [(ascii "Content-Type", ascii "text/html;charset=utf-8")], body := page }

def getETag (info : StorageInfo) : Bytes :=
  FileUtil.fileName info.storagePath ++ ascii "-" ++ decimal info.fsize ++ ascii "-" ++ toString info.mtime

/-- The end of `Download`, once the file to send is known to exist. A directory can be
opened, but nothing of it can be added to the reply. -/
def sendFile (request : Request) (info : StorageInfo) (downloadPath : Bytes) (server : Server) : Server :=
  let retrans := request.findHeader (ascii "If-Range") = some (getETag info)
  match server.disk.openRead downloadPath with
  | .error failure => server.sendReply { code := 500, reason := platform.strerror failure }
  | .ok source =>
    let headers := [(ascii "Accept-Ranges", ascii "bytes"), (ascii "ETag", cString (getETag info)),
      (ascii "Content-Type", ascii "application/octet-stream")]
    let body := source.getD []
    let server :=
      if retrans then
        server.sendReply { code := 206, reason := ascii "breakpoint continuous transmission", headers, body }
      else
        server.sendReply { code := 200, reason := ascii "Success", headers, body }
    if downloadPath = info.storagePath then server
    else { server with disk := server.disk.remove downloadPath }

/-- `Download` from where the file is unpacked, if it has to be. The tests that report a
missing file do not return. -/
def sendDownload (request : Request) (info : StorageInfo) (downloadPath : Bytes) (server : Server) : Server :=
  match FileUtil.exists? server.disk downloadPath with
  | .error fault => server.fail fault
  | .ok true => sendFile platform request info downloadPath server
  | .ok false =>
    let server :=
      if contains info.storagePath (ascii "deep_storage") then server.sendReply { code := 500 }
      else if contains info.storagePath (ascii "low_storage") then server
      else server.sendReply { code := 400, reason := ascii "file not exists" }
    server.sendReply { code := 404, reason := cString (downloadPath ++ ascii "not exists") }

def download (request : Request) (server : Server) : Server :=
  match urlDecode request.path with
  | .error fault => server.fail fault
  | .ok resourcePath =>
    match server.manager.getOneByURL platform.thread resourcePath with
    | none => server.wait
    | some (found, manager) =>
      let server := { server with manager }
      let info := found.getD platform.unset
      if contains info.storagePath config.lowStorageDir then
        sendDownload platform request info info.storagePath server
      else
        let downloadPath := config.lowStorageDir ++ FileUtil.fileName info.storagePath
        match FileUtil.createDirectory server.disk config.lowStorageDir with
        | (.error fault, disk) => { server with disk }.fail fault
        | (.ok _, disk) =>
          match FileUtil.unCompress platform.bundle disk info.storagePath downloadPath with
          | .error fault => { server with disk }.fail fault
          | .ok (_, disk) => sendDownload platform request info downloadPath { server with disk }

def genHandler (request : Request) (server : Server) : Server :=
  match urlDecode request.path with
  | .error fault => server.fail fault
  | .ok path =>
    if contains path (ascii "/download/") then download config platform request server
    else if path = ascii "/upload" then upload config platform request server
    else if path = ascii "/" then listShow config platform server
    else server.sendReply { code := 404, reason := ascii "Not Found" }

end

end HttpFramework.Storage
