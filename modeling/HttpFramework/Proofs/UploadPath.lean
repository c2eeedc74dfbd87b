import HttpFramework.Proofs.DiskFiles
import HttpFramework.Proofs.TableLock
import HttpFramework.Storage.Service

/-! Where `Upload` writes. The path is the configured directory with the decoded name behind
it, and nothing looks at the name: with enough `..` in it the path leads anywhere. -/

namespace HttpFramework.Storage
open FileTree

section
variable {config : Config} {platform : Platform}

/-- What `Upload` may touch: the file, the file of the table, and directories on the way to
the one that is configured. -/
def Touched (server : Server) (directory filename : Bytes) (place : Place) : Prop :=
  place = server.disk.resolve (directory ++ filename) ∨ place = server.disk.resolve server.manager.storageFile ∨
    server.disk.tree[place]? = none ∧ server.disk.OnTheWay directory place

theorem insert_changes {jsoncpp : Jsoncpp} {hashing : Hashing} {thread : Thread} {info : StorageInfo}
    {manager next : DataManager} {disk changed : Disk}
    (inserted : manager.insert jsoncpp hashing thread info disk = some (next, changed)) :
    disk.Changes (· = disk.resolve manager.storageFile) changed := by
  have available := DataManager.available_of_insert inserted
  cases (DataManager.insert_of_available available info disk).symm.trans inserted
  exact Disk.setContent_changes _ _ _

theorem record_changes (storagePath : Bytes) (server : Server) :
    server.disk.Changes (· = server.disk.resolve server.manager.storageFile)
      (record config platform storagePath server).disk := by
  rw [record]
  split
  next => exact .refl _ _
  next =>
    split
    next => exact .refl _ _
    next manager disk inserted => exact insert_changes inserted

def storedContent (config : Config) (platform : Platform) (storagePath content : Bytes) : Bytes :=
  if contains storagePath (ascii "low_storage") then content else platform.bundle.pack config.bundleFormat content

theorem saveContent_cases (disk : Disk) (storagePath content : Bytes) :
    saveContent config platform disk storagePath content = (false, disk) ∨
      saveContent config platform disk storagePath content =
        FileUtil.setContent disk storagePath (storedContent config platform storagePath content) := by
  rw [saveContent, storedContent]
  split
  next => exact .inr rfl
  next =>
    rw [FileUtil.compress]
    split
    next => exact .inl rfl
    next => exact .inr rfl

theorem saveContent_changes (disk : Disk) (storagePath content : Bytes) :
    disk.Changes (· = disk.resolve storagePath) (saveContent config platform disk storagePath content).2 := by
  rcases @saveContent_cases config platform disk storagePath content with unsaved | same
  · rw [unsaved]
    exact .refl _ _
  · rw [same]
    exact Disk.setContent_changes _ _ _

theorem saveContent_written {disk changed : Disk} {storagePath content : Bytes}
    (done : saveContent config platform disk storagePath content = (true, changed)) :
    disk.write storagePath (storedContent config platform storagePath content) = .ok changed := by
  rcases @saveContent_cases config platform disk storagePath content with unsaved | same
  · cases unsaved.symm.trans done
  · exact Disk.setContent_written (same.symm.trans done)

theorem store_changes (directory filename content : Bytes) (server : Server) :
    server.disk.Changes (Touched server directory filename) (store config platform directory filename content server).disk := by
  have made := (Disk.createDirectory_changes server.disk directory).mono fun place inside =>
    (Or.inr (Or.inr inside) : Touched server directory filename place)
  rw [store]
  split
  next fault disk same => rw [same] at made; exact made
  next created disk same =>
    rw [same] at made
    have saved : server.disk.Changes (Touched server directory filename)
        (saveContent config platform disk (directory ++ filename) content).2 := by
      apply made.trans
      apply (saveContent_changes disk (directory ++ filename) content).mono
      intro place there
      exact Or.inl (there.trans (made.resolve _))
    split
    next disk' outcome =>
      have saved' : server.disk.Changes (Touched server directory filename) disk' := by rwa [outcome] at saved
      apply saved'.trans
      apply (record_changes (directory ++ filename) { server with disk := disk' }).mono
      intro place there
      exact Or.inr (Or.inl (there.trans (saved'.resolve _)))
    next disk' outcome => rw [outcome] at saved; exact saved

def directoryOf (config : Config) (storageType : Bytes) : Option Bytes :=
  if storageType = ascii "low" then some config.lowStorageDir
  else if storageType = ascii "deep" then some config.deepStorageDir
  else none

theorem upload_changes {request : Request} {encoded filename storageType directory : Bytes}
    (name : request.findHeader (ascii "FileName") = some encoded) (decoded : base64Decode encoded = .ok filename)
    (type : request.findHeader (ascii "StorageType") = some storageType)
    (known : directoryOf config storageType = some directory) (server : Server) :
    server.disk.Changes (Touched server directory filename) (upload config platform request server).disk := by
  simp only [upload, name, decoded, type]
  split
  next => exact .refl _ _
  next buf =>
    split
    next => exact .refl _ _
    next =>
      split
      next => exact .refl _ _
      next =>
        rw [directoryOf] at known
        split
        next low =>
          rw [if_pos low] at known
          cases known
          exact store_changes _ _ _ _
        next other =>
          rw [if_neg other] at known
          split
          next deep =>
            rw [if_pos deep] at known
            cases known
            exact store_changes _ _ _ _
          next => exact .refl _ _

end

def Inside (disk : Disk) (path : Bytes) : Prop :=
  disk.resolve storageConf.lowStorageDir <+: disk.resolve path ∨
    disk.resolve storageConf.deepStorageDir <+: disk.resolve path

/-- By itself the name does not go up, or it comes down again through the directories around
the working directory into one of the two. -/
def StaysInside (cwd : Place) (filename : Bytes) : Prop :=
  let reached := normal (components (cString filename))
  reached.1 = 0 ∨ ∃ name ∈ [ascii "low_storage", ascii "deep_storage"],
    cwd.drop (cwd.length + 1 - reached.1) ++ [name] <+: reached.2

theorem cString_append {text : Bytes} (absent : 0 ∉ text) (more : Bytes) : cString (text ++ more) = text ++ cString more := by
  apply List.takeWhile_append_of_pos
  intro c member
  simpa using fun zero : c = 0 => absent (zero ▸ member)

theorem components_append (first second : Bytes) :
    components (first ++ chr '/' :: second) = components first ++ components second := by
  simp [components, List.splitOn_append_cons_self]

theorem resolve_storage {directory : Bytes} (name : Bytes) (path : directory = ascii "./" ++ name ++ [chr '/'])
    (plain : components (ascii "./" ++ name) = [.here, .child name]) (absent : 0 ∉ directory) (disk : Disk)
    (filename : Bytes) :
    disk.resolve (directory ++ filename) = resolve (disk.cwd ++ [name]) (components (cString filename)) := by
  have cut : cString (directory ++ filename) = (ascii "./" ++ name) ++ chr '/' :: cString filename := by
    rw [cString_append absent, path]
    simp
  have relative : disk.origin (cString (directory ++ filename)) = disk.cwd := by
    rw [cut]
    exact if_neg (show some (chr '.') ≠ some (chr '/') by decide)
  rw [Disk.resolve, relative, cut, components_append, plain, resolve_append]
  rfl

theorem resolve_low (disk : Disk) (filename : Bytes) :
    disk.resolve (storageConf.lowStorageDir ++ filename) =
      resolve (disk.cwd ++ [ascii "low_storage"]) (components (cString filename)) :=
  resolve_storage (ascii "low_storage") rfl rfl (by decide) disk filename

theorem resolve_deep (disk : Disk) (filename : Bytes) :
    disk.resolve (storageConf.deepStorageDir ++ filename) =
      resolve (disk.cwd ++ [ascii "deep_storage"]) (components (cString filename)) :=
  resolve_storage (ascii "deep_storage") rfl rfl (by decide) disk filename

theorem resolve_directories (disk : Disk) :
    disk.resolve storageConf.lowStorageDir = disk.cwd ++ [ascii "low_storage"] ∧
      disk.resolve storageConf.deepStorageDir = disk.cwd ++ [ascii "deep_storage"] := by
  have low := resolve_low disk []
  have deep := resolve_deep disk []
  rw [List.append_nil] at low deep
  exact ⟨low, deep⟩

/-- Whatever the request and the disk, `Upload` writes to one path besides the file of the
table, and this path leads into one of the storage directories exactly when the name by
itself stays there. -/
theorem upload_inside_iff {platform : Platform} {request : Request} {encoded filename storageType directory : Bytes}
    (name : request.findHeader (ascii "FileName") = some encoded) (decoded : base64Decode encoded = .ok filename)
    (type : request.findHeader (ascii "StorageType") = some storageType)
    (known : directoryOf storageConf storageType = some directory) (server : Server) :
    server.disk.Changes (Touched server directory filename) (upload storageConf platform request server).disk ∧
      (Inside server.disk (directory ++ filename) ↔ StaysInside server.disk.cwd filename) := by
  refine ⟨upload_changes name decoded type known server, ?_⟩
  have either (own : Bytes) (member : own ∈ [ascii "low_storage", ascii "deep_storage"])
      (leads : server.disk.resolve (directory ++ filename) =
        resolve (server.disk.cwd ++ [own]) (components (cString filename))) :
      Inside server.disk (directory ++ filename) ↔ StaysInside server.disk.cwd filename := by
    simp only [Inside, resolve_directories, leads, prefix_resolve_iff, StaysInside]
    generalize normal (components (cString filename)) = reached
    rcases Nat.eq_zero_or_pos reached.1 with stays | climbs
    · rcases List.mem_pair.mp member with rfl | rfl <;> simp [stays]
    · simp [climbs, Nat.ne_of_gt climbs]
  rw [directoryOf] at known
  split at known
  next => cases known; exact either _ (by simp) (resolve_low _ _)
  next =>
    split at known
    next => cases known; exact either _ (by simp) (resolve_deep _ _)
    next => cases known

/-- Libraries to run the service with: packing puts two bytes in front. -/
def Platform.sample : Platform where
  bundle.pack format content := 0x70 :: UInt8.ofNat format.toNat :: content
  bundle.unpack packed := if packed.head? = some 0x70 then packed.drop 2 else packed
  jsoncpp := ⟨fun _ => ascii "null", fun _ => (true, .null)⟩
  hashing := ⟨id, fun _ => .refl _⟩
  thread := 1
  unset := { mtime := 0, atime := 0, fsize := 0 }
  unset_paths := ⟨rfl, rfl⟩
  ctime _ := some (ascii "Thu Jan  1 00:00:00 1970\n")
  formatSize _ := ascii "0.00 B"
  regexReplace text _ _ := text
  strerror _ := ascii "Permission denied"

/-- The request to upload a file under a name in base64. -/
def uploadRequest (storageType encoded content : Bytes) : Request where
  path := ascii "/upload"
  headers := [(ascii "FileName", encoded), (ascii "StorageType", storageType)]
  inputBuffer := some { content }

/-- The service just started in the directory `/srv`. -/
def Server.sample : Server where
  manager := { storageFile := storageConf.storageInfo }
  disk := .fresh [ascii "srv"]

theorem upload_plain_name : Inside (Disk.fresh [ascii "srv"]) (storageConf.lowStorageDir ++ ascii "f") :=
  (@upload_inside_iff Platform.sample (uploadRequest (ascii "low") (ascii "Zg==") (ascii "hello")) _ _ _
    storageConf.lowStorageDir rfl rfl rfl rfl Server.sample).2.mpr (.inl rfl)

/-- The name `../f`: the file is written beside the storage directories. -/
theorem upload_escapes :
    ∃ file, (upload storageConf .sample (uploadRequest (ascii "low") (ascii "Li4vZg==") (ascii "hello")) .sample).disk.tree[
        [ascii "srv", ascii "f"]]? = some (.file true true file) ∧
      file.content = ascii "hello" ∧
      (Disk.fresh [ascii "srv"]).resolve (storageConf.lowStorageDir ++ ascii "../f") = [ascii "srv", ascii "f"] ∧
      ¬ Inside (Disk.fresh [ascii "srv"]) (storageConf.lowStorageDir ++ ascii "../f") := by
  refine ⟨_, rfl, rfl, rfl, fun inside => ?_⟩
  rcases inside with low | deep
  · exact absurd low (by decide)
  · exact absurd deep (by decide)

end HttpFramework.Storage
