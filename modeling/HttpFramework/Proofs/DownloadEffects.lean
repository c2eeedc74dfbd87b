import HttpFramework.Library.Fallible
import HttpFramework.Proofs.Replies

/-! What a download does to the files that uploads have stored. A packed file is unpacked
into the directory of the low storage, under its own name, and removed there when it has
been sent: a file of this name that was stored there is gone then. -/

namespace HttpFramework.Storage
open Transition

namespace Disk

variable {disk changed : Disk} {place : Place}

def IsFile (disk : Disk) (place : Place) : Prop := ∃ read write file, disk.tree[place]? = some (.file read write file)

theorem isFile_of_written {path content : Bytes} (written : disk.write path content = .ok changed) :
    changed.IsFile (disk.resolve path) := by
  obtain ⟨place, located, _, ⟨read, file, found, _⟩, _⟩ := write_spec written
  rw [← resolve_of_locate located]
  exact ⟨read, true, file, found⟩

theorem IsFile.setContent (present : disk.IsFile place) (path content : Bytes) :
    (FileUtil.setContent disk path content).2.IsFile place := by
  by_cases same : place = disk.resolve path
  · rw [FileUtil.setContent]
    split
    next written => exact same ▸ isFile_of_written written
    next => exact present
  · obtain ⟨read, write, file, found⟩ := present
    exact ⟨read, write, file, ((setContent_changes disk path content).kept place same).trans found⟩

theorem IsFile.createDirectory (present : disk.IsFile place) (path : Bytes) :
    (FileUtil.createDirectory disk path).2.tree[place]? = disk.tree[place]? := by
  apply (createDirectory_changes disk path).kept
  rintro ⟨missing, _⟩
  obtain ⟨read, write, file, found⟩ := present
  cases missing.symm.trans found

theorem remove_kept {path : Bytes} (apart : place ≠ disk.resolve path) : (disk.remove path).tree[place]? = disk.tree[place]? := by
  rw [remove]
  split
  next target located =>
    split
    next tree done =>
      apply (FileTree.Tree.remove_spec done).2.1
      exact fun same => apart (same.symm.trans (resolve_of_locate located))
    next => rfl
  next => rfl

end Disk

variable {config : Config} {platform : Platform}

def accepted (before after : Server) : Bool := (after.replies.drop before.replies.length).any (·.code = 200)

/-- Where an upload stores the file, when its headers say so. -/
def uploadPath (config : Config) (request : Request) : Option Bytes := do
  let encoded ← request.findHeader (ascii "FileName")
  let filename ← (base64Decode encoded).toOption
  let directory ← directoryOf config (← request.findHeader (ascii "StorageType"))
  return directory ++ filename

theorem upload_cases (request : Request) (server : Server) :
    (upload config platform request server).disk = server.disk ∧
        accepted server (upload config platform request server) = false ∨
      ∃ directory filename content, uploadPath config request = some (directory ++ filename) ∧
        upload config platform request server = store config platform directory filename content server := by
  rw [upload, uploadPath]
  cases request.inputBuffer with
  | none => simp [accepted]
  | some buf =>
    dsimp only
    split
    next => exact .inl ⟨rfl, by simp [accepted, Server.sendReply]⟩
    next =>
      split
      next => exact .inl ⟨rfl, by simp [accepted, Server.sendReply]⟩
      next =>
        cases request.findHeader (ascii "FileName") with
        | none => exact .inl ⟨rfl, by simp [accepted, Server.fail]⟩
        | some encoded =>
          cases decoded : base64Decode encoded with
          | error fault => exact .inl (by simp [decoded, accepted, Server.fail])
          | ok filename =>
            cases request.findHeader (ascii "StorageType") with
            | none => exact .inl (by simp [decoded, accepted, Server.fail])
            | some storageType =>
              by_cases low : storageType = ascii "low"
              · refine .inr ⟨config.lowStorageDir, filename, buf.content, ?_, ?_⟩
                · simp [decoded, directoryOf, if_pos low, Except.toOption]
                · simp only [decoded, if_pos low]
              · by_cases deep : storageType = ascii "deep"
                · refine .inr ⟨config.deepStorageDir, filename, buf.content, ?_, ?_⟩
                  · simp [decoded, directoryOf, if_neg low, if_pos deep, Except.toOption]
                  · simp only [decoded, if_neg low, if_pos deep]
                · exact .inl (by simp [decoded, low, deep, accepted, Server.sendReply])

theorem record_isFile {server : Server} {place : Place} (present : server.disk.IsFile place) (storagePath : Bytes) :
    (record config platform storagePath server).disk.IsFile place := by
  rw [record]
  split
  next => exact present
  next info built =>
    split
    next => exact present
    next manager disk inserted =>
      have available := DataManager.available_of_insert inserted
      cases (DataManager.insert_of_available available info server.disk).symm.trans inserted
      exact present.setContent _ _

/-- Everything that a successful upload has done. -/
theorem store_accepted {directory filename content : Bytes} {server : Server}
    (success : accepted server (store config platform directory filename content server) = true) :
    ∃ created disk changed info, FileUtil.createDirectory server.disk directory = (.ok created, disk) ∧
      disk.write (directory ++ filename) (storedContent config platform (directory ++ filename) content) = .ok changed ∧
      newStorageInfo config platform changed (directory ++ filename) = .ok info ∧
      info.storagePath = directory ++ filename ∧
      (store config platform directory filename content server).manager =
        { server.manager with rwlock := none, table := server.manager.table.set platform.hashing info } ∧
      (store config platform directory filename content server).disk =
        (FileUtil.setContent changed server.manager.storageFile (JsonUtil.serialize platform.jsoncpp
          (rootOf (server.manager.table.set platform.hashing info).records))).2 := by
  rw [store] at success ⊢
  split at success
  next => simp [accepted, Server.fail] at success
  next created disk made =>
    split at success
    next changed saved =>
      have written := saveContent_written saved
      have present := Disk.exists?_of_written written
      rw [record] at success ⊢
      split at success
      next => simp [accepted, Server.fail] at success
      next info built =>
        have path : info.storagePath = directory ++ filename := by
          rw [newStorageInfo, present] at built
          cases built
          rfl
        split at success
        next => simp [accepted, Server.wait] at success
        next manager disk' inserted =>
          have available := DataManager.available_of_insert inserted
          cases (DataManager.insert_of_available available info changed).symm.trans inserted
          exact ⟨created, disk, changed, info, made, written, built, path, rfl, rfl⟩
    next => simp [accepted, Server.sendReply] at success

theorem store_isFile (directory filename content : Bytes) (server : Server)
    (success : accepted server (store config platform directory filename content server) = true) :
    (store config platform directory filename content server).disk.IsFile (server.disk.resolve (directory ++ filename)) := by
  obtain ⟨created, disk, changed, info, made, written, _, _, _, after⟩ := store_accepted success
  have leads := (Disk.createDirectory_changes server.disk directory).resolve (directory ++ filename)
  rw [made] at leads
  rw [after, ← leads]
  exact (Disk.isFile_of_written written).setContent _ _

theorem store_keeps {server : Server} {place : Place} (present : server.disk.IsFile place)
    (directory filename content : Bytes) :
    (store config platform directory filename content server).disk.IsFile place := by
  have kept : (FileUtil.createDirectory server.disk directory).2.IsFile place := by
    obtain ⟨read, write, file, found⟩ := present
    exact ⟨read, write, file, (Disk.IsFile.createDirectory ⟨read, write, file, found⟩ directory).trans found⟩
  rw [store]
  split
  next fault disk failed => rwa [failed] at kept
  next created disk made =>
    rw [made] at kept
    have saved : (saveContent config platform disk (directory ++ filename) content).2.IsFile place := by
      rcases @saveContent_cases config platform disk (directory ++ filename) content with unsaved | same
      · rwa [unsaved]
      · rw [same]
        exact kept.setContent _ _
    split
    next disk' done =>
      rw [done] at saved
      exact record_isFile saved _
    next disk' done => rwa [done] at saved

theorem upload_keeps {server : Server} {place : Place} (present : server.disk.IsFile place) (request : Request) :
    (upload config platform request server).disk.IsFile place := by
  rcases @upload_cases config platform request server with ⟨same, _⟩ | ⟨directory, filename, content, _, same⟩
  · rwa [same]
  · rw [same]
    exact store_keeps present _ _ _

theorem sendFile_kept {server : Server} {info : StorageInfo} {downloadPath : Bytes} {place : Place}
    (apart : downloadPath ≠ info.storagePath → place ≠ server.disk.resolve downloadPath) (request : Request) :
    (sendFile platform request info downloadPath server).disk.tree[place]? = server.disk.tree[place]? := by
  cases opened : server.disk.openRead downloadPath with
  | error failure => rw [sendFile, opened]; rfl
  | ok source =>
    obtain ⟨reply, _, _, sent⟩ := @sendFile_of_open platform _ _ _ opened request info
    rw [sent]
    dsimp only
    split
    next => rfl
    next other => exact Disk.remove_kept (apart other)

theorem sendDownload_kept {server : Server} {info : StorageInfo} {downloadPath : Bytes} {place : Place}
    (apart : downloadPath ≠ info.storagePath → place ≠ server.disk.resolve downloadPath) (request : Request) :
    (sendDownload platform request info downloadPath server).disk.tree[place]? = server.disk.tree[place]? := by
  rw [sendDownload]
  split
  next => rfl
  next => exact sendFile_kept apart request
  next =>
    dsimp only
    split
    next => rfl
    next =>
      split
      next => rfl
      next => rfl

theorem unCompress_changes {bundle : Bundle} {disk changed : Disk} {storagePath downloadPath : Bytes} {done : Bool}
    (unpacked : FileUtil.unCompress bundle disk storagePath downloadPath = .ok (done, changed)) :
    disk.Changes (· = disk.resolve downloadPath) changed := by
  obtain ⟨body, _, unpacked⟩ := Fallible.bind_ok unpacked
  cases body with
  | none =>
    cases unpacked
    exact .refl _ _
  | some packed =>
    have changes := Disk.setContent_changes disk downloadPath (bundle.unpack packed)
    rwa [Except.ok.inj unpacked] at changes

/-- Of the files, only one where the record that is asked for is unpacked may change. -/
theorem download_kept {server : Server} {place : Place} {request : Request} (present : server.disk.IsFile place)
    (spared : ∀ path, urlDecode request.path = .ok path →
      contains (server.lookup platform path).storagePath config.lowStorageDir ∨
        place ≠ server.disk.resolve (scratchPath config (server.lookup platform path).storagePath)) :
    (download config platform request server).disk.tree[place]? = server.disk.tree[place]? := by
  rw [download]
  cases decoded : urlDecode request.path with
  | error fault => rfl
  | ok path =>
    dsimp only
    split
    next => rfl
    next found manager looked =>
      have same : found.getD platform.unset = server.lookup platform path := by
        rw [Server.lookup, DataManager.found_of_getOneByURL looked]
      rw [same]
      split
      next => exact sendDownload_kept (fun other => absurd rfl other) request
      next packed =>
        have apart := (spared path decoded).resolve_left packed
        have made := Disk.createDirectory_changes server.disk config.lowStorageDir
        have kept := present.createDirectory config.lowStorageDir
        split
        next fault disk failed => rwa [failed] at kept
        next created disk outcome =>
          rw [outcome] at kept made
          split
          next => exact kept
          next done disk' unpacked =>
            have changes := unCompress_changes unpacked
            have away : place ≠ disk.resolve (scratchPath config (server.lookup platform path).storagePath) := by
              rwa [made.resolve]
            apply Eq.trans (sendDownload_kept _ request)
            · exact (changes.kept place away).trans kept
            · intro _
              rwa [changes.resolve]

/-- A server with the places where its uploads have stored files. -/
structure History where
  server : Server
  stored : List Place := []

inductive Call where
  | upload (request : Request)
  | download (request : Request)

namespace History

/-- A call of a handler. An upload that reports success has stored its file. -/
def step (config : Config) (platform : Platform) (history : History) : Call → Option History
  | .upload request =>
    let after := Storage.upload config platform request history.server
    let added := if accepted history.server after then (uploadPath config request).toList else []
    some { server := after, stored := added.map history.server.disk.resolve ++ history.stored }
  | .download request => some { history with server := Storage.download config platform request history.server }

/-- A download asks for a record of the low storage, or no stored file is where the file is
unpacked. -/
def Spares (config : Config) (platform : Platform) (history : History) : Call → Prop
  | .upload _ => True
  | .download request => ∀ path, urlDecode request.path = .ok path →
      contains (history.server.lookup platform path).storagePath config.lowStorageDir ∨
        history.server.disk.resolve (scratchPath config (history.server.lookup platform path).storagePath) ∉ history.stored

def ReadsOnly (before : History) (call : Call) (after : History) : Prop :=
  match call with
  | .upload _ => True
  | .download _ => ∀ place ∈ before.stored, after.server.disk.tree[place]? = before.server.disk.tree[place]?

def Present (history : History) : Prop := ∀ place ∈ history.stored, history.server.disk.IsFile place

theorem step_readsOnly {history next : History} {call : Call} (present : history.Present)
    (taken : step config platform history call = some next) (spares : history.Spares config platform call) :
    history.ReadsOnly call next := by
  cases call with
  | upload request => trivial
  | download request =>
    cases taken
    intro place member
    apply download_kept (present place member)
    intro path decoded
    rcases spares path decoded with low | apart
    · exact .inl low
    · exact .inr fun same => apart (same ▸ member)

theorem step_present {history next : History} {call : Call} (present : history.Present)
    (taken : step config platform history call = some next) (spares : history.Spares config platform call) :
    next.Present := by
  cases call with
  | download request =>
    have kept := step_readsOnly present taken spares
    cases taken
    intro place member
    obtain ⟨read, write, file, found⟩ := present place member
    exact ⟨read, write, file, (kept place member).trans found⟩
  | upload request =>
    cases taken
    intro place member
    rcases List.mem_append.mp member with added | earlier
    · split at added
      next success =>
        rcases @upload_cases config platform request history.server with ⟨_, refused⟩ | ⟨directory, filename, content, path, same⟩
        · cases refused.symm.trans success
        · rw [same] at success ⊢
          rw [path] at added
          cases List.mem_singleton.mp added
          exact store_isFile _ _ _ _ success
      next => cases added
    · exact upload_keeps (present place earlier) request

/-- Uploads and downloads in any order, from any table and disk: as long as no download
unpacks a file where one is stored, every download leaves every stored file as it is. -/
theorem downloads_read_only {server : Server} {calls : List Call}
    (spares : Throughout (step config platform) (fun before call _ => before.Spares config platform call) ⟨server, []⟩ calls) :
    Throughout (step config platform) ReadsOnly ⟨server, []⟩ calls := by
  refine throughout_of_condition Present ?_ ?_ nofun spares
  · intro history call next present taken spared
    exact step_present present taken spared
  · intro history call next present taken spared
    exact step_readsOnly present taken spared

theorem packed_beside_plain :
    Throughout (step storageConf .sample) ReadsOnly ⟨.sample, []⟩
      [.upload (uploadRequest (ascii "low") (ascii "Zg==") (ascii "hello")),
        .upload (uploadRequest (ascii "deep") (ascii "Zw==") (ascii "world")),
        .download { path := ascii "/download/g" }] := by
  apply downloads_read_only
  refine .cons rfl trivial <| .cons rfl trivial <| .cons rfl ?_ <| .nil _
  intro path decoded
  cases decoded
  decide

/-- A plain file and a packed one of the same name: the download of this name removes the
plain one. -/
theorem download_removes_file :
    ∃ history, Run (step storageConf .sample) ⟨.sample, []⟩
        [.upload (uploadRequest (ascii "low") (ascii "Zg==") (ascii "hello")),
          .upload (uploadRequest (ascii "deep") (ascii "Zg==") (ascii "world"))] history ∧
      [ascii "srv", ascii "low_storage", ascii "f"] ∈ history.stored ∧
      history.server.disk.openRead (ascii "./low_storage/f") = .ok (some (ascii "hello")) ∧
      (download storageConf .sample { path := ascii "/download/f" } history.server).disk.openRead
        (ascii "./low_storage/f") = .error .missing := by
  refine ⟨_, .cons rfl <| .cons rfl <| .nil _, ?_⟩
  decide

end History

end HttpFramework.Storage
