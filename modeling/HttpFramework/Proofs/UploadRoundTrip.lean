import HttpFramework.Proofs.DownloadEffects
import HttpFramework.Proofs.IndexFile
import HttpFramework.Storage.Failures

/-! What is uploaded can be downloaded again. `Upload` packs the content unless the path has
`low_storage` in it, and `Download` unpacks it unless the path has the directory of the low
storage in it: a packed file with `low_storage` in its own name is unpacked without having
been packed. -/

namespace HttpFramework.Storage

variable {config : Config} {platform : Platform}

/-- The directory is there or can be made, and what is written under the name is taken in
full and may be read again. -/
def Ready (disk : Disk) (directory filename : Bytes) : Prop :=
  (∃ created, (FileUtil.createDirectory disk directory).1 = .ok created) ∧
    ∃ place, (FileUtil.createDirectory disk directory).2.Usable (directory ++ filename) place

theorem fileName_append {directory name : Bytes} (plain : chr '/' ∉ name) :
    FileUtil.fileName (directory ++ [chr '/'] ++ name) = name := by
  have whole : ∀ c ∈ name.reverse, (c != chr '/') = true := by
    intro c member
    simpa using fun slash : c = chr '/' => plain (slash ▸ List.mem_reverse.mp member)
  rw [FileUtil.fileName, List.rtakeWhile, List.reverse_append, List.takeWhile_append_of_pos whole]
  simp

/-- A name without a slash cannot make a path of the deep storage look like one of the low
storage to `Download`, but it can to `Upload`. -/
theorem contains_deep {name : Bytes} (plain : chr '/' ∉ name) :
    contains (storageConf.deepStorageDir ++ name) storageConf.lowStorageDir = false ∧
      contains (storageConf.deepStorageDir ++ name) (ascii "low_storage") = contains name (ascii "low_storage") := by
  have deep : storageConf.deepStorageDir = [46, 47, 100, 101, 101, 112, 95, 115, 116, 111, 114, 97, 103, 101, 47] := rfl
  have low : storageConf.lowStorageDir = [46, 47, 108, 111, 119, 95, 115, 116, 111, 114, 97, 103, 101, 47] := rfl
  have part : ascii "low_storage" = [108, 111, 119, 95, 115, 116, 111, 114, 97, 103, 101] := rfl
  have apart : ¬ storageConf.lowStorageDir <:+: name := fun inside => plain (inside.subset (by decide))
  rw [low] at apart
  -- No byte of the directory but the first starts one of the two parts.
  simp [contains, deep, low, part, List.infix_cons_iff, apart]

theorem contains_low (name : Bytes) :
    contains (storageConf.lowStorageDir ++ name) storageConf.lowStorageDir = true ∧
      contains (storageConf.lowStorageDir ++ name) (ascii "low_storage") = true := by
  have front : storageConf.lowStorageDir <:+: storageConf.lowStorageDir ++ name := (List.prefix_append _ _).isInfix
  have part : ascii "low_storage" <:+: storageConf.lowStorageDir := by decide
  exact ⟨by simpa [contains] using front, by simpa [contains] using part.trans front⟩

theorem components_plain {name : Bytes} (plain : chr '/' ∉ name) : components name = [component name] := by
  rw [components, List.splitOn_eq_singleton plain]
  rfl

theorem resolve_apart {name own : Bytes} (plain : chr '/' ∉ name) (other : own ≠ ascii "storage.data") (disk : Disk) :
    FileTree.resolve (disk.cwd ++ [own]) (components (cString name)) ≠ disk.resolve storageConf.storageInfo := by
  have table : disk.resolve storageConf.storageInfo = disk.cwd ++ [ascii "storage.data"] := rfl
  have plain' : chr '/' ∉ cString name := fun member => plain ((List.takeWhile_prefix _).subset member)
  rw [table, components_plain plain']
  intro same
  cases piece : component (cString name) with
  | here => simp [piece, FileTree.resolve, FileTree.Component.apply, other] at same
  | up => simp [piece, FileTree.resolve, FileTree.Component.apply] at same
  | child name => simp [piece, FileTree.resolve, FileTree.Component.apply] at same

/-- The path of a stored file leads to what was written, whatever becomes of the table. -/
theorem store_holds {directory filename content : Bytes} {server : Server}
    (success : accepted server (store config platform directory filename content server) = true)
    (ready : Ready server.disk directory filename)
    (apart : server.disk.resolve (directory ++ filename) ≠ server.disk.resolve server.manager.storageFile) :
    ∃ place, (store config platform directory filename content server).disk.Holds (directory ++ filename) place
      (storedContent config platform (directory ++ filename) content) := by
  obtain ⟨created, disk, changed, info, made, written, _, _, _, after⟩ := store_accepted success
  obtain ⟨_, place, usable⟩ := ready
  have leads := Disk.createDirectory_changes server.disk directory
  rw [made] at usable leads
  obtain ⟨changed', written', holds, _⟩ := usable.write (storedContent config platform (directory ++ filename) content)
  cases written.symm.trans written'
  refine ⟨place, ?_⟩
  rw [after]
  apply holds.of_changes (Disk.setContent_changes _ _ _)
  rwa [(Disk.write_changes written).resolve, leads.resolve, Disk.resolve_of_locate usable.located, leads.resolve]

section
variable {server : Server} {info : StorageInfo} {place : Place} {content : Bytes}

theorem sendDownload_of_holds {downloadPath : Bytes} (holds : server.disk.Holds downloadPath place content)
    (request : Request) (info : StorageInfo) :
    ∃ reply, (sendDownload platform request info downloadPath server).replies = server.replies ++ [reply] ∧
      reply.body = content := by
  have present := holds.exists?
  obtain ⟨reply, body, _, sent⟩ := @sendFile_of_open platform _ _ _ holds.openRead request info
  refine ⟨reply, ?_, body⟩
  rw [sendDownload, present]
  dsimp only
  rw [sent]
  rfl

theorem download_plain (available : server.manager.Available platform.thread) {request : Request} {path : Bytes}
    (decoded : urlDecode request.path = .ok path) (found : server.lookup platform path = info)
    (plain : contains info.storagePath config.lowStorageDir) (holds : server.disk.Holds info.storagePath place content) :
    ∃ reply, (download config platform request server).replies = server.replies ++ [reply] ∧ reply.body = content := by
  rw [download, decoded]
  dsimp only
  rw [DataManager.getOneByURL_of_available available]
  dsimp only
  rw [← Server.lookup, found, if_pos plain]
  let locked := { server.manager with rwlock := some platform.thread }
  exact @sendDownload_of_holds platform { server with manager := locked } _ _ _ holds request info

theorem download_packed (available : server.manager.Available platform.thread) {request : Request} {path : Bytes}
    (decoded : urlDecode request.path = .ok path) (found : server.lookup platform path = info)
    (packed : contains info.storagePath config.lowStorageDir = false)
    (holds : server.disk.Holds info.storagePath place content) (small : content.length ≤ stringMaxSize)
    (ready : Ready server.disk config.lowStorageDir (FileUtil.fileName info.storagePath)) :
    ∃ reply, (download config platform request server).replies = server.replies ++ [reply] ∧
      reply.body = platform.bundle.unpack content := by
  obtain ⟨⟨created, made⟩, target, usable⟩ := ready
  have kept : (FileUtil.createDirectory server.disk config.lowStorageDir).2.Holds info.storagePath place content := by
    apply holds.of_changes (Disk.createDirectory_changes _ _)
    rintro ⟨missing, _⟩
    obtain ⟨write, file, stored, _⟩ := holds.stored
    cases missing.symm.trans stored
  rw [download, decoded]
  dsimp only
  rw [DataManager.getOneByURL_of_available available]
  dsimp only
  rw [← Server.lookup, found, if_neg (by simp [packed])]
  cases outcome : FileUtil.createDirectory server.disk config.lowStorageDir with
  | mk result disk =>
    rw [outcome] at made kept usable
    cases made
    obtain ⟨changed, written, unpacked, _⟩ := usable.write (platform.bundle.unpack content)
    have done : FileUtil.unCompress platform.bundle disk info.storagePath
        (config.lowStorageDir ++ FileUtil.fileName info.storagePath) = .ok (true, changed) := by
      simp [FileUtil.unCompress, kept.getContent small, FileUtil.setContent, written, bind, Except.bind, pure, Except.pure]
    dsimp only
    rw [done]
    let locked := { server.manager with rwlock := some platform.thread }
    exact @sendDownload_of_holds platform { server with manager := locked, disk := changed } _ _ _ unpacked request info

end

def Delivers (config : Config) (platform : Platform) (request : Request) (server : Server) (content : Bytes) : Prop :=
  ∃ reply, (download config platform request server).replies = server.replies ++ [reply] ∧ reply.body = content

theorem delivers_iff {server : Server} {request : Request} {content delivered : Bytes}
    (sent : ∃ reply, (download config platform request server).replies = server.replies ++ [reply] ∧
      reply.body = delivered) :
    Delivers config platform request server content ↔ delivered = content := by
  obtain ⟨reply, replies, rfl⟩ := sent
  constructor
  · rintro ⟨other, same, rfl⟩
    cases List.append_cancel_left (replies.symm.trans same)
    rfl
  · rintro rfl
    exact ⟨reply, replies, rfl⟩

theorem lookup_of_mem {server : Server} {entry : StorageInfo} (member : entry ∈ server.manager.table.records) :
    server.lookup platform entry.url = entry := by
  rw [Server.lookup, Table.find?_eq_some_iff.mpr ⟨member, rfl⟩]
  rfl

structure Request.Puts (request : Request) (name storageType content : Bytes) : Prop where
  name : ∃ encoded, request.findHeader (ascii "FileName") = some encoded ∧ base64Decode encoded = .ok name
  type : request.findHeader (ascii "StorageType") = some storageType
  body : ∃ buf, request.inputBuffer = some buf ∧ buf.content = content

theorem uploadWith_of_puts {store : Bytes → Bytes → Bytes → Server → Server} {request : Request}
    {name storageType content directory : Bytes} {server : Server} (puts : request.Puts name storageType content)
    (known : directoryOf config storageType = some directory)
    (success : accepted server (uploadWith store config request server) = true) :
    uploadWith store config request server = store directory name content server := by
  obtain ⟨encoded, header, decoded⟩ := puts.name
  obtain ⟨buf, body, rfl⟩ := puts.body
  simp only [uploadWith, body, header, decoded, puts.type] at success ⊢
  split at success
  next => simp [accepted, Server.sendReply] at success
  next nonempty =>
    split at success
    next => simp [accepted, Server.sendReply] at success
    next thawed =>
      rw [if_neg nonempty, if_neg thawed]
      rw [directoryOf] at known
      split at known
      next low => cases known; rw [if_pos low]
      next other =>
        split at known
        next deep => cases known; rw [if_neg other, if_pos deep]
        next => cases known

theorem upload_of_puts {request : Request} {name storageType content directory : Bytes} {server : Server}
    (puts : request.Puts name storageType content) (known : directoryOf config storageType = some directory)
    (success : accepted server (upload config platform request server) = true) :
    upload config platform request server = store config platform directory name content server := by
  rw [upload_eq_uploadWith] at success ⊢
  exact uploadWith_of_puts puts known success

theorem directoryOf_cases {storageType directory : Bytes} (known : directoryOf storageConf storageType = some directory) :
    storageType = ascii "low" ∧ directory = storageConf.lowStorageDir ∨
      storageType = ascii "deep" ∧ directory = storageConf.deepStorageDir := by
  rw [directoryOf] at known
  split at known
  next low => cases known; exact .inl ⟨low, rfl⟩
  next =>
    split at known
    next deep => cases known; exact .inr ⟨deep, rfl⟩
    next => cases known

theorem storage_apart {storageType directory name : Bytes} (known : directoryOf storageConf storageType = some directory)
    (plain : chr '/' ∉ name) (disk : Disk) :
    disk.resolve (directory ++ name) ≠ disk.resolve storageConf.storageInfo := by
  rcases directoryOf_cases known with ⟨_, rfl⟩ | ⟨_, rfl⟩
  · rw [resolve_low]
    exact resolve_apart plain (by decide) disk
  · rw [resolve_deep]
    exact resolve_apart plain (by decide) disk

/-- Whatever the table and the disk, every name without a slash and every content: a download
of the record of a successful upload delivers what was uploaded exactly when the file is of
the low storage, or has no `low_storage` in its name, or is left alone by unpacking. -/
theorem upload_delivers_iff {server : Server} {request : Request} {name storageType content directory : Bytes}
    (inverse : ∀ format text, platform.bundle.unpack (platform.bundle.pack format text) = text)
    (puts : request.Puts name storageType content) (known : directoryOf storageConf storageType = some directory)
    (plain : chr '/' ∉ name) (table : server.manager.storageFile = storageConf.storageInfo)
    (success : accepted server (upload storageConf platform request server) = true)
    (small : (storedContent storageConf platform (directory ++ name) content).length ≤ stringMaxSize)
    (stored : Ready server.disk directory name)
    (unpacked : storageType = ascii "deep" →
      Ready (upload storageConf platform request server).disk storageConf.lowStorageDir name) :
    (∃ entry ∈ (upload storageConf platform request server).manager.table.records,
      entry.storagePath = directory ++ name) ∧
    ∀ entry ∈ (upload storageConf platform request server).manager.table.records,
      entry.storagePath = directory ++ name → ∀ get : Request, urlDecode get.path = .ok entry.url →
        (Delivers storageConf platform get (upload storageConf platform request server) content ↔
          storageType = ascii "low" ∨ contains name (ascii "low_storage") = false ∨
            platform.bundle.unpack content = content) := by
  have same := upload_of_puts puts known success
  rw [same] at success unpacked ⊢
  have apart : server.disk.resolve (directory ++ name) ≠ server.disk.resolve server.manager.storageFile := by
    rw [table]
    exact storage_apart known plain server.disk
  obtain ⟨place, holds⟩ := store_holds success stored apart
  obtain ⟨_, _, _, info, _, _, _, path, manager, _⟩ := store_accepted success
  have available : (store storageConf platform directory name content server).manager.Available platform.thread := by
    rw [manager]
    exact .inl rfl
  refine ⟨⟨info, ?_, path⟩, ?_⟩
  · rw [manager]
    exact Table.mem_set.mpr (.inl rfl)
  · intro entry member there get decoded
    rw [← there] at holds small
    have found := @lookup_of_mem platform _ _ member
    rcases directoryOf_cases known with ⟨rfl, rfl⟩ | ⟨rfl, rfl⟩
    · have low := contains_low name
      rw [← there] at low
      have sent := download_plain available decoded found low.1 holds
      rw [delivers_iff sent, storedContent, if_pos low.2]
      simp
    · have deep := contains_deep plain
      have last : FileUtil.fileName entry.storagePath = name := by
        rw [there]
        exact @fileName_append (ascii "./deep_storage") name plain
      rw [← there] at deep
      have sent := download_packed available decoded found deep.1 holds small (by rw [last]; exact unpacked rfl)
      have other : ascii "deep" ≠ ascii "low" := by decide
      rw [delivers_iff sent, storedContent, deep.2]
      cases named : contains name (ascii "low_storage") with
      | true => simp [other]
      | false => simp [inverse]

theorem upload_delivers_packed :
    Delivers storageConf .sample { path := ascii "/download/f" }
      (upload storageConf .sample (uploadRequest (ascii "deep") (ascii "Zg==") (ascii "hello")) .sample)
      (ascii "hello") := by
  have stored : Ready Server.sample.disk storageConf.deepStorageDir (ascii "f") :=
    ⟨⟨true, rfl⟩, [ascii "srv", ascii "deep_storage", ascii "f"], rfl, rfl, .inr ⟨rfl, rfl⟩⟩
  have unpacked : Ready (upload storageConf .sample (uploadRequest (ascii "deep") (ascii "Zg==") (ascii "hello"))
      .sample).disk storageConf.lowStorageDir (ascii "f") :=
    ⟨⟨true, rfl⟩, [ascii "srv", ascii "low_storage", ascii "f"], rfl, rfl, .inr ⟨rfl, rfl⟩⟩
  have delivers := @upload_delivers_iff .sample .sample (uploadRequest (ascii "deep") (ascii "Zg==") (ascii "hello"))
    (ascii "f") (ascii "deep") (ascii "hello") storageConf.deepStorageDir (fun _ _ => rfl)
    ⟨⟨_, rfl, rfl⟩, rfl, _, rfl, rfl⟩ rfl (by decide) rfl (by decide) (by decide) stored fun _ => unpacked
  exact (delivers.2 ⟨0, 0, 7, ascii "./deep_storage/f", ascii "/download/f"⟩ List.mem_cons_self rfl _ rfl).mpr
    (.inr (.inl (by decide)))

/-- The name `low_storage`, in base64, and a content that is in the packed format. -/
theorem packed_content_changes :
    (upload storageConf .sample (uploadRequest (ascii "deep") (ascii "bG93X3N0b3JhZ2U=")
      (ascii "p!hello")) .sample).replies.map Reply.code = [200] ∧
    (download storageConf .sample { path := ascii "/download/" ++ ascii "low_storage" }
      (upload storageConf .sample (uploadRequest (ascii "deep") (ascii "bG93X3N0b3JhZ2U=") (ascii "p!hello"))
        .sample)).replies.map Reply.body = [[], ascii "hello"] ∧
    ascii "hello" ≠ ascii "p!hello" := by
  decide

end HttpFramework.Storage
