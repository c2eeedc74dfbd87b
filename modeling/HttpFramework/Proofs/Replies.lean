import HttpFramework.Proofs.UploadPath

/-! How many replies a request gets. A handler that ends in a fault, or returns from a
branch that only logs, sends none; the tests of `Download` that report a missing file do not
return, and the last reply is sent after theirs. -/

namespace HttpFramework.Storage

namespace Server

variable (server : Server)

@[simp] theorem sendReply_replies (reply : Reply) :
    (server.sendReply reply).replies.length = server.replies.length + 1 := by
  simp [sendReply]

@[simp] theorem sendReply_disk (reply : Reply) : (server.sendReply reply).disk = server.disk := rfl

@[simp] theorem fail_replies (fault : Fault) : (server.fail fault).replies = server.replies := rfl

@[simp] theorem wait_replies : server.wait.replies = server.replies := rfl

end Server

variable {config : Config} {platform : Platform}

/-- The end of `Download` replies once: the file is there, or nothing is sent about its
path before the last reply. -/
def EndsOnce (disk : Disk) (storagePath downloadPath : Bytes) : Prop :=
  FileUtil.exists? disk downloadPath = .ok true ∨
    FileUtil.exists? disk downloadPath = .ok false ∧
      contains storagePath (ascii "low_storage") ∧ ¬ contains storagePath (ascii "deep_storage")

/-- A file that is stored packed can be read and then be written where it is unpacked to, or
something else is found there. -/
def Unpacks (disk : Disk) (storagePath downloadPath : Bytes) : Prop :=
  ∃ body, FileUtil.getContent disk storagePath = .ok body ∧
    (body.isSome ∧ disk.Writable downloadPath ∨ EndsOnce disk storagePath downloadPath)

def scratchPath (config : Config) (storagePath : Bytes) : Bytes := config.lowStorageDir ++ FileUtil.fileName storagePath

/-- The record that a path stands for: one that is not there is unset. -/
def Server.lookup (platform : Platform) (server : Server) (path : Bytes) : StorageInfo :=
  (server.manager.table.find? path).getD platform.unset

def DownloadsOnce (config : Config) (disk : Disk) (storagePath : Bytes) : Prop :=
  if contains storagePath config.lowStorageDir then EndsOnce disk storagePath storagePath
  else
    (∃ created, (FileUtil.createDirectory disk config.lowStorageDir).1 = .ok created) ∧
      Unpacks (FileUtil.createDirectory disk config.lowStorageDir).2 storagePath (scratchPath config storagePath)

/-- There is nothing to store, or the headers are there and the name can be decoded, and the
directory of a legal type exists or can be made. -/
def UploadsOnce (config : Config) (disk : Disk) (request : Request) : Prop :=
  ∃ buf, request.inputBuffer = some buf ∧
    (buf.content.length = 0 ∨ buf.frozen ∨
      ∃ encoded filename storageType, request.findHeader (ascii "FileName") = some encoded ∧
        base64Decode encoded = .ok filename ∧ request.findHeader (ascii "StorageType") = some storageType ∧
        ∀ directory, directoryOf config storageType = some directory →
          ∃ created, (FileUtil.createDirectory disk directory).1 = .ok created)

def AnswersOnce (config : Config) (platform : Platform) (request : Request) (server : Server) : Prop :=
  ∃ path, urlDecode request.path = .ok path ∧
    if contains path (ascii "/download/") then
      DownloadsOnce config server.disk (server.lookup platform path).storagePath
    else if path = ascii "/upload" then UploadsOnce config server.disk request
    else path = ascii "/" → ∀ file ∈ server.manager.table.records, (platform.ctime file.mtime).isSome

/-- What follows once the file is open: one reply of success with its content, and then the
file is removed unless it is the stored one. -/
theorem sendFile_of_open {server : Server} {downloadPath : Bytes} {source : Option Bytes}
    (opened : server.disk.openRead downloadPath = .ok source) (request : Request) (info : StorageInfo) :
    ∃ reply, reply.body = source.getD [] ∧ (reply.code = 200 ∨ reply.code = 206) ∧
      sendFile platform request info downloadPath server =
        { server.sendReply reply with
          disk := if downloadPath = info.storagePath then server.disk else server.disk.remove downloadPath } := by
  rw [sendFile, opened]
  by_cases retrans : request.findHeader (ascii "If-Range") = some (getETag info)
  · by_cases same : downloadPath = info.storagePath
    · simp only [if_pos retrans, if_pos same]
      exact ⟨_, by rfl, .inr rfl, rfl⟩
    · simp only [if_pos retrans, if_neg same]
      exact ⟨_, by rfl, .inr rfl, rfl⟩
  · by_cases same : downloadPath = info.storagePath
    · simp only [if_neg retrans, if_pos same]
      exact ⟨_, by rfl, .inl rfl, rfl⟩
    · simp only [if_neg retrans, if_neg same]
      exact ⟨_, by rfl, .inl rfl, rfl⟩

theorem sendFile_replies (request : Request) (info : StorageInfo) (downloadPath : Bytes) (server : Server) :
    (sendFile platform request info downloadPath server).replies.length = server.replies.length + 1 := by
  cases opened : server.disk.openRead downloadPath with
  | error failure => simp [sendFile, opened]
  | ok source =>
    obtain ⟨reply, _, _, sent⟩ := @sendFile_of_open platform _ _ _ opened request info
    rw [sent]
    exact Server.sendReply_replies _ _

theorem sendDownload_iff (request : Request) (info : StorageInfo) (downloadPath : Bytes) (server : Server) :
    (sendDownload platform request info downloadPath server).replies.length = server.replies.length + 1 ↔
      EndsOnce server.disk info.storagePath downloadPath := by
  rw [sendDownload, EndsOnce]
  split
  next fault failed => simp [failed]
  next found => simp [found, sendFile_replies]
  next missing =>
    by_cases deep : contains info.storagePath (ascii "deep_storage")
    · simp [missing, deep]
    · by_cases low : contains info.storagePath (ascii "low_storage")
      · simp [missing, deep, low]
      · simp [missing, deep, low]

theorem record_replies {server : Server} {storagePath content : Bytes} {disk : Disk}
    (available : server.manager.Available platform.thread) (written : disk.write storagePath content = .ok server.disk) :
    (record config platform storagePath server).replies.length = server.replies.length + 1 := by
  have present := Disk.exists?_of_written written
  have built : ∃ info, newStorageInfo config platform server.disk storagePath = .ok info := by
    rw [newStorageInfo, present]
    exact ⟨_, rfl⟩
  obtain ⟨info, built⟩ := built
  simp only [record, built, DataManager.insert_of_available available, Server.sendReply_replies]

theorem store_iff {server : Server} (available : server.manager.Available platform.thread)
    (directory filename content : Bytes) :
    (store config platform directory filename content server).replies.length = server.replies.length + 1 ↔
      ∃ created, (FileUtil.createDirectory server.disk directory).1 = .ok created := by
  rw [store]
  split
  next fault disk failed => simp [failed]
  next created disk made =>
    simp only [made, Except.ok.injEq, exists_eq', iff_true]
    split
    next disk' saved =>
      exact @record_replies config platform { server with disk := disk' } _ _ _ available (saveContent_written saved)
    next => simp

theorem upload_iff {server : Server} (available : server.manager.Available platform.thread) (request : Request) :
    (upload config platform request server).replies.length = server.replies.length + 1 ↔
      UploadsOnce config server.disk request := by
  rw [upload, UploadsOnce]
  cases request.inputBuffer with
  | none => simp
  | some buf =>
    simp only [Option.some.injEq, exists_eq_left']
    by_cases empty : buf.content.length = 0
    · simp [empty]
    · by_cases frozen : buf.frozen
      · simp [empty, frozen]
      · simp only [empty, frozen, if_false, false_or, Bool.false_eq_true]
        cases request.findHeader (ascii "FileName") with
        | none => simp
        | some encoded =>
          cases decoded : base64Decode encoded with
          | error fault => simp [decoded]
          | ok filename =>
            cases request.findHeader (ascii "StorageType") with
            | none => simp [decoded]
            | some storageType =>
              simp only [decoded, Option.some.injEq, Except.ok.injEq, exists_and_left, exists_eq_left', directoryOf]
              by_cases low : storageType = ascii "low"
              · simp only [if_pos low, Option.some.injEq, forall_eq']
                exact store_iff available _ _ _
              · by_cases deep : storageType = ascii "deep"
                · simp only [if_neg low, if_pos deep, Option.some.injEq, forall_eq']
                  exact store_iff available _ _ _
                · simp [low, deep]

theorem fileItem_iff (file : StorageInfo) :
    (∃ item, fileItem platform file = .ok item) ↔ (platform.ctime file.mtime).isSome := by
  rw [fileItem]
  cases platform.ctime file.mtime with
  | none => simp
  | some text => simp

theorem mapM_fileItem_iff (files : List StorageInfo) :
    (∃ items, files.mapM (fileItem platform) = .ok items) ↔ ∀ file ∈ files, (platform.ctime file.mtime).isSome := by
  induction files with
  | nil => exact ⟨fun _ => nofun, fun _ => ⟨[], rfl⟩⟩
  | cons file files ih =>
    rw [List.mapM_cons, List.forall_mem_cons, ← ih, ← fileItem_iff]
    cases fileItem platform file with
    | error => simp [bind, Except.bind]
    | ok item => cases files.mapM (fileItem platform) <;> simp [bind, Except.bind, pure, Except.pure]

theorem listShow_iff {server : Server} (available : server.manager.Available platform.thread) :
    (listShow config platform server).replies.length = server.replies.length + 1 ↔
      ∀ file ∈ server.manager.table.records, (platform.ctime file.mtime).isSome := by
  have listed : (∃ list, generateModernFileList platform server.manager.table.records = .ok list) ↔
      ∀ file ∈ server.manager.table.records, (platform.ctime file.mtime).isSome := by
    rw [← mapM_fileItem_iff, generateModernFileList]
    cases server.manager.table.records.mapM (fileItem platform) <;> simp [bind, Except.bind, pure, Except.pure]
  rw [← listed, listShow, DataManager.getAll_of_available available]
  dsimp only
  split
  next fault failed => simp [failed]
  next list made => simp [made]

/-- A file that is unpacked without a fault is there then, unless it could not be written. -/
theorem unCompress_iff (bundle : Bundle) (disk : Disk) (storagePath downloadPath : Bytes) :
    (∃ unpacked, FileUtil.unCompress bundle disk storagePath downloadPath = .ok unpacked ∧
      EndsOnce unpacked.2 storagePath downloadPath) ↔ Unpacks disk storagePath downloadPath := by
  rw [FileUtil.unCompress, Unpacks]
  cases FileUtil.getContent disk storagePath with
  | error fault => simp [bind, Except.bind]
  | ok body =>
    cases body with
    | none => simp [bind, Except.bind, pure, Except.pure]
    | some packed =>
      simp only [bind, Except.bind, pure, Except.pure, Except.ok.injEq, exists_eq_left', Option.isSome_some, true_and,
        FileUtil.setContent, ← Disk.write_iff (bundle.unpack packed)]
      cases written : disk.write downloadPath (bundle.unpack packed) with
      | error failure => simp
      | ok changed =>
        have present := Disk.exists?_of_written written
        simp [EndsOnce, present]

theorem download_iff {server : Server} (available : server.manager.Available platform.thread) {request : Request}
    {path : Bytes} (decoded : urlDecode request.path = .ok path) :
    (download config platform request server).replies.length = server.replies.length + 1 ↔
      DownloadsOnce config server.disk (server.lookup platform path).storagePath := by
  rw [download, decoded]
  dsimp only
  rw [DataManager.getOneByURL_of_available available]
  dsimp only
  rw [Server.lookup, DownloadsOnce]
  generalize (server.manager.table.find? path).getD platform.unset = info
  split
  next low => exact sendDownload_iff _ _ _ _
  next other =>
    split
    next fault disk failed => simp [failed]
    next created disk made =>
      simp only [made, Except.ok.injEq, exists_eq', true_and]
      rw [← unCompress_iff platform.bundle, scratchPath]
      split
      next fault failed => simp [failed]
      next unpacked disk' done =>
        simp only [done, Except.ok.injEq, exists_eq_left']
        exact sendDownload_iff _ _ _ _

def packedRecord : StorageInfo where
  mtime := 0
  atime := 0
  fsize := 5
  storagePath := ascii "./deep_storage/f"
  url := ascii "/download/f"

end HttpFramework.Storage
