import HttpFramework.Storage.Service

/-! `Upload` on a medium that fails. Each of its two calls of `SetContent`, for the file and for
the file of the table, has an outcome of its own, whatever the disk allows. -/

namespace HttpFramework.Storage

/-- Whether the stream opens, and how many bytes are written before its error state is set. -/
structure Outcome where
  opens : Bool := true
  room : Option Nat := none

def Disk.under (outcome : Outcome) (disk : Disk) : Disk := { disk with room := fun _ => outcome.room }

namespace Outcome

variable (outcome : Outcome)

/-- A stream that is not good after the writing is closed, and the result is true. -/
def setContent (disk : Disk) (filename content : Bytes) : Bool × Disk :=
  if outcome.opens then
    match (disk.under outcome).write filename content with
    | .ok changed => (true, { changed with room := disk.room })
    | .error _ => (false, disk)
  else
    (false, disk)

def compress (bundle : Bundle) (disk : Disk) (filename content : Bytes) (format : Int) : Bool × Disk :=
  let packed := bundle.pack format content
  if packed.length = 0 then (false, disk) else outcome.setContent disk filename packed

def storage (jsoncpp : Jsoncpp) (thread : Thread) (manager : DataManager) (disk : Disk) : Option (DataManager × Disk) := do
  let (records, manager) ← manager.getAll thread
  let body := JsonUtil.serialize jsoncpp (rootOf records)
  return (manager, (outcome.setContent disk manager.storageFile body).2)

def insert (jsoncpp : Jsoncpp) (hashing : Hashing) (thread : Thread) (info : StorageInfo) (manager : DataManager)
    (disk : Disk) : Option (DataManager × Disk) := do
  let manager ← manager.wrlock thread
  outcome.storage jsoncpp thread { manager with table := manager.table.set hashing info }.unlock disk

end Outcome

/-- How the two calls end. -/
structure Failures where
  file : Outcome := {}
  index : Outcome := {}

namespace Failures

variable (failures : Failures) (config : Config) (platform : Platform)

def record (storagePath : Bytes) (server : Server) : Server :=
  match newStorageInfo config platform server.disk storagePath with
  | .error fault => server.fail fault
  | .ok info =>
    match failures.index.insert platform.jsoncpp platform.hashing platform.thread info server.manager server.disk with
    | none => server.wait
    | some (manager, disk) => { server with manager, disk }.sendReply { code := 200, reason := ascii "Success" }

def saveContent (disk : Disk) (storagePath content : Bytes) : Bool × Disk :=
  if contains storagePath (ascii "low_storage") then failures.file.setContent disk storagePath content
  else failures.file.compress platform.bundle disk storagePath content config.bundleFormat

def store (directory filename content : Bytes) (server : Server) : Server :=
  match FileUtil.createDirectory server.disk directory with
  | (.error fault, disk) => { server with disk }.fail fault
  | (.ok _, disk) =>
    match failures.saveContent config platform disk (directory ++ filename) content with
    | (true, disk) => failures.record config platform (directory ++ filename) { server with disk }
    | (false, disk) => { server with disk }.sendReply { code := 500, reason := ascii "server error" }

end Failures

/-- `Upload`, given what it does when it knows where to store the content. -/
def uploadWith (store : Bytes → Bytes → Bytes → Server → Server) (config : Config) (request : Request) (server : Server) :
    Server :=
  match request.inputBuffer with
  | none => server
  | some buf =>
    if buf.content.length = 0 then
      server.sendReply { code := 400, reason := ascii "file empty" }
    else if buf.frozen then
      server.sendReply { code := 500 }
    else
      match request.findHeader (ascii "FileName") with
      | none => server.fail .logicError
      | some encoded =>
        match base64Decode encoded with
        | .error fault => server.fail fault
        | .ok filename =>
          match request.findHeader (ascii "StorageType") with
          | none => server.fail .logicError
          | some storageType =>
            if storageType = ascii "low" then store config.lowStorageDir filename buf.content server
            else if storageType = ascii "deep" then store config.deepStorageDir filename buf.content server
            else server.sendReply { code := 400, reason := ascii "Illegal storage type" }

theorem upload_eq_uploadWith (config : Config) (platform : Platform) (request : Request) (server : Server) :
    upload config platform request server = uploadWith (store config platform) config request server := rfl

def Failures.upload (failures : Failures) (config : Config) (platform : Platform) (request : Request) (server : Server) :
    Server :=
  uploadWith (failures.store config platform) config request server

end HttpFramework.Storage
