import HttpFramework.Proofs.RequestFormat
import HttpFramework.Proofs.UploadRoundTrip

/-! Which versions of a file the ETags tell apart. The time in an ETag is the one that the record
has for the modification, and `NewStorageInfo` puts the time of access there. Writing does not
change that time in a file that is there already. -/

namespace HttpFramework.Storage

namespace Disk

variable {disk changed : Disk} {path content : Bytes}

/-- The time of access that a file has once something is written at the path. -/
def accessTime (disk : Disk) (path : Bytes) : Int :=
  match disk.tree[disk.resolve path]? with
  | some (.file _ _ file) => file.atime
  | _ => disk.now

/-- What is stored of a content that is written at the path. -/
def stored (disk : Disk) (path content : Bytes) : Bytes :=
  content.take ((disk.room (disk.resolve path)).getD content.length)

theorem node_of_written (written : disk.write path content = .ok changed) :
    ∃ read, changed.node path =
      .ok (.file read true ⟨disk.stored path content, disk.now, disk.accessTime path⟩) := by
  obtain ⟨place, located, extended, _, _, cwd, _⟩ := write_spec written
  have there := resolve_of_locate located
  obtain ⟨place', located', written⟩ := Fallible.bind_ok written
  cases located.symm.trans located'
  obtain ⟨tree, done, written⟩ := Fallible.bind_ok written
  cases written
  have found : ∃ read, tree[place]? =
      some (.file read true ⟨disk.stored path content, disk.now, disk.accessTime path⟩) := by
    rcases FileTree.Tree.put_cases done with ⟨read, old, found, rfl⟩ | ⟨missing, _, rfl⟩
    · refine ⟨read, ?_⟩
      rw [accessTime, stored, ← there, found, Std.ExtTreeMap.getElem?_insert_self]
      rfl
    · refine ⟨true, ?_⟩
      rw [accessTime, stored, ← there, missing, Std.ExtTreeMap.getElem?_insert_self]
      rfl
  obtain ⟨read, found⟩ := found
  exact ⟨read, by simp [node, bind, Except.bind, locate_of_extends extended cwd located, found]⟩

theorem createDirectory_now (disk : Disk) (path : Bytes) : (FileUtil.createDirectory disk path).2.now = disk.now := by
  have made : (disk.createDirectories path).2.now = disk.now := by
    rw [createDirectories]
    split <;> rfl
  rw [FileUtil.createDirectory]
  split
  next => rfl
  next => rfl
  next =>
    split
    next same => rwa [same] at made
    next same => rwa [same] at made

/-- Directories that are made are no files yet. -/
theorem createDirectory_accessTime (disk : Disk) (directory path : Bytes) :
    (FileUtil.createDirectory disk directory).2.accessTime path = disk.accessTime path := by
  have leads := (createDirectory_changes disk directory).resolve path
  rw [accessTime, accessTime, leads, createDirectory_now]
  rcases createDirectory_spec disk directory (disk.resolve path) with kept | ⟨missing, _, added⟩
  · rw [kept]
  · rw [missing, added]

theorem createDirectory_stored (disk : Disk) (directory path content : Bytes) :
    (FileUtil.createDirectory disk directory).2.stored path content = disk.stored path content := by
  have changes := createDirectory_changes disk directory
  rw [stored, stored, changes.resolve path, changes.room]

end Disk

section
variable {config : Config} {platform : Platform} {disk changed : Disk} {path content : Bytes}

/-- The record of a file that is about to be written. -/
def writtenInfo (config : Config) (disk : Disk) (path content : Bytes) : StorageInfo where
  mtime := disk.accessTime path
  atime := disk.now
  fsize := toSizeT (disk.stored path content).length
  storagePath := path
  url := config.downloadPrefix ++ FileUtil.fileName path

theorem newStorageInfo_of_written (written : disk.write path content = .ok changed) :
    newStorageInfo config platform changed path = .ok (writtenInfo config disk path content) := by
  obtain ⟨read, found⟩ := Disk.node_of_written written
  have stat : changed.stat path = .ok ⟨(disk.stored path content).length, disk.now, disk.accessTime path⟩ := by
    rw [Disk.stat, found]
    rfl
  rw [newStorageInfo, Disk.exists?_of_written written]
  simp only [bind, Except.bind, if_true, FileUtil.lastAccessTime, FileUtil.lastModifyTime, FileUtil.fileSize, stat]
  rfl

end

section Text
variable {front front' digits digits' : Bytes}

/-- A text is cut at the sign before its last digits. -/
private theorem cut_of_digits (number : ∀ c ∈ digits, isdigit c = true) (number' : ∀ c ∈ digits', isdigit c = true)
    (same : front ++ chr '-' :: digits = front' ++ chr '-' :: digits') : front = front' ∧ digits = digits' := by
  have last (front digits : Bytes) (number : ∀ c ∈ digits, isdigit c = true) :
      (front ++ chr '-' :: digits).rtakeWhile isdigit = digits := by
    have whole : ∀ c ∈ digits.reverse, isdigit c = true := fun c member => number c (List.mem_reverse.mp member)
    rw [List.rtakeWhile, List.reverse_append, List.reverse_cons, List.append_assoc, List.takeWhile_append_of_pos whole,
      List.singleton_append, List.takeWhile_cons_of_neg (by decide)]
    simp
  have equal : digits = digits' := by rw [← last front digits number, same, last front' digits' number']
  subst equal
  exact ⟨List.append_cancel_right same, rfl⟩

private theorem digits_decimal (n : Nat) : ∀ c ∈ decimal n, isdigit c = true := (Http.isLength_decimal n).digits

/-- What stands before a sign does not end in a digit. -/
private theorem sign_not_digit {n : Nat} {name : Bytes} (same : name ++ chr '-' :: decimal n = front ++ [chr '-']) : False := by
  have ends : (name ++ chr '-' :: decimal n).getLast? = some (chr '-') := by rw [same, List.getLast?_append]; rfl
  have nonempty := (Http.isLength_decimal n).nonempty
  rw [List.getLast?_append_cons, List.getLast?_cons_of_ne_nil nonempty] at ends
  exact absurd (digits_decimal n _ (List.mem_of_getLast? ends)) (by decide)

/-- The time after the sign is negative exactly when another sign follows. -/
private theorem cut_of_time {name name' : Bytes} {size size' : Nat} {time time' : Int}
    (same : (name ++ chr '-' :: decimal size) ++ chr '-' :: toString time =
      (name' ++ chr '-' :: decimal size') ++ chr '-' :: toString time') :
    name ++ chr '-' :: decimal size = name' ++ chr '-' :: decimal size' ∧ time = time' := by
  have signed (front : Bytes) (n : Nat) : front ++ chr '-' :: chr '-' :: decimal n = (front ++ [chr '-']) ++ chr '-' :: decimal n := by
    simp
  simp only [toString] at same
  split at same <;> split at same
  · rw [signed, signed] at same
    obtain ⟨equal, digits⟩ := cut_of_digits (digits_decimal _) (digits_decimal _) same
    have absolute := Http.decimal_injective digits
    exact ⟨List.append_cancel_right equal, by omega⟩
  · rw [signed] at same
    exact (sign_not_digit (cut_of_digits (digits_decimal _) (digits_decimal _) same).1.symm).elim
  · rw [signed] at same
    exact (sign_not_digit (cut_of_digits (digits_decimal _) (digits_decimal _) same).1).elim
  · obtain ⟨equal, digits⟩ := cut_of_digits (digits_decimal _) (digits_decimal _) same
    have absolute := Http.decimal_injective digits
    exact ⟨equal, by omega⟩

/-- The name, the size and the time can be read off an ETag. -/
theorem getETag_injective {info other : StorageInfo} (same : getETag info = getETag other) :
    FileUtil.fileName info.storagePath = FileUtil.fileName other.storagePath ∧ info.fsize = other.fsize ∧
      info.mtime = other.mtime := by
  have parts (info : StorageInfo) : getETag info =
      (FileUtil.fileName info.storagePath ++ chr '-' :: decimal info.fsize) ++ chr '-' :: toString info.mtime := by
    have dash : ascii "-" = [chr '-'] := rfl
    simp [getETag, dash]
  rw [parts, parts] at same
  obtain ⟨front, time⟩ := cut_of_time same
  obtain ⟨name, size⟩ := cut_of_digits (digits_decimal _) (digits_decimal _) front
  exact ⟨name, Http.decimal_injective size, time⟩

end Text

variable {config : Config} {platform : Platform}

/-- A request to upload a content under a name, which is answered with success. -/
structure Uploads (config : Config) (platform : Platform) (request : Request) (server : Server)
    (directory name content : Bytes) : Prop where
  asked : ∃ storageType, request.Puts name storageType content ∧ directoryOf config storageType = some directory
  success : accepted server (upload config platform request server) = true

/-- The ETag of the record that the table has for a path. -/
def etagOf (config : Config) (server : Server) (path : Bytes) : Option Bytes :=
  (server.manager.table.find? (config.downloadPrefix ++ FileUtil.fileName path)).map getETag

/-- How long a file becomes, in 64 bits, when an upload stores it. -/
def storedSize (config : Config) (platform : Platform) (server : Server) (path content : Bytes) : Nat :=
  toSizeT (server.disk.stored path (storedContent config platform path content)).length

theorem etagOf_upload {request : Request} {server : Server} {directory name content : Bytes}
    (uploads : Uploads config platform request server directory name content) :
    etagOf config (upload config platform request server) (directory ++ name) =
      some (getETag (writtenInfo config server.disk (directory ++ name)
        (storedContent config platform (directory ++ name) content))) := by
  obtain ⟨storageType, puts, known⟩ := uploads.asked
  have success := uploads.success
  have same := upload_of_puts puts known success
  rw [same] at success ⊢
  obtain ⟨created, disk, changed, info, made, written, built, _, manager, _⟩ := store_accepted success
  cases (newStorageInfo_of_written written).symm.trans built
  have info : writtenInfo config disk (directory ++ name) (storedContent config platform (directory ++ name) content) =
      writtenInfo config server.disk (directory ++ name) (storedContent config platform (directory ++ name) content) := by
    have time := Disk.createDirectory_accessTime server.disk directory (directory ++ name)
    have now := Disk.createDirectory_now server.disk directory
    have stored := Disk.createDirectory_stored server.disk directory (directory ++ name)
      (storedContent config platform (directory ++ name) content)
    rw [made] at time now stored
    rw [writtenInfo, writtenInfo, time, now, stored]
  rw [etagOf, manager, info]
  exact congrArg (Option.map getETag) (Table.find?_eq_some_iff.mpr ⟨Table.mem_set.mpr (.inl rfl), rfl⟩)

/-- For every two uploads of one name, whatever happens between them: the ETags differ exactly
when the sizes of what is stored do, or the times of access, or the name stands behind
directories that do not end in a slash. -/
theorem etags_differ_iff {request request' : Request} {server server' : Server} {directory directory' name content content' : Bytes}
    (first : Uploads config platform request server directory name content)
    (second : Uploads config platform request' server' directory' name content') :
    ∃ tag tag', etagOf config (upload config platform request server) (directory ++ name) = some tag ∧
      etagOf config (upload config platform request' server') (directory' ++ name) = some tag' ∧
      (tag ≠ tag' ↔
        storedSize config platform server (directory ++ name) content ≠
            storedSize config platform server' (directory' ++ name) content' ∨
          server.disk.accessTime (directory ++ name) ≠ server'.disk.accessTime (directory' ++ name) ∨
          FileUtil.fileName (directory ++ name) ≠ FileUtil.fileName (directory' ++ name)) := by
  refine ⟨_, _, etagOf_upload first, etagOf_upload second, ?_⟩
  rw [← not_and_or, ← not_and_or, not_iff_not]
  constructor
  · intro same
    obtain ⟨names, sizes, times⟩ := getETag_injective same
    exact ⟨sizes, times, names⟩
  · intro ⟨sizes, times, names⟩
    simp only [storedSize] at sizes
    simp only [getETag, writtenInfo, sizes, times, names]

/-- The service five seconds after `hello` has been uploaded under the name `f`. -/
def Server.later : Server :=
  let server := upload storageConf .sample (uploadRequest (ascii "low") (ascii "Zg==") (ascii "hello")) .sample
  { server with disk := { server.disk with now := 5 } }

theorem uploads_sample {server : Server} {content : Bytes} (success : accepted server
      (upload storageConf .sample (uploadRequest (ascii "low") (ascii "Zg==") content) server) = true) :
    Uploads storageConf .sample (uploadRequest (ascii "low") (ascii "Zg==") content) server storageConf.lowStorageDir
      (ascii "f") content :=
  ⟨⟨_, ⟨⟨_, rfl, rfl⟩, rfl, _, rfl, rfl⟩, rfl⟩, success⟩

theorem etags_differ_shorter :
    etagOf storageConf .later (storageConf.lowStorageDir ++ ascii "f") ≠
      etagOf storageConf (upload storageConf .sample (uploadRequest (ascii "low") (ascii "Zg==") (ascii "hi")) .later)
        (storageConf.lowStorageDir ++ ascii "f") := by
  have first : Uploads storageConf .sample (uploadRequest (ascii "low") (ascii "Zg==") (ascii "hello")) .sample _ _ _ :=
    uploads_sample (by decide)
  have second : Uploads storageConf .sample (uploadRequest (ascii "low") (ascii "Zg==") (ascii "hi")) .later _ _ _ :=
    uploads_sample (by decide)
  obtain ⟨tag, tag', found, found', differ⟩ := etags_differ_iff first second
  have apart := differ.mpr (.inl (by decide))
  rw [found']
  exact fun same => apart (Option.some.inj (found.symm.trans same))

/-- `hello` and then `world`, in different seconds: the client cannot tell them apart. -/
theorem etag_repeated :
    accepted .sample (upload storageConf .sample (uploadRequest (ascii "low") (ascii "Zg==") (ascii "hello")) .sample) = true ∧
      accepted .later (upload storageConf .sample (uploadRequest (ascii "low") (ascii "Zg==") (ascii "world")) .later) = true ∧
      Server.sample.disk.now ≠ Server.later.disk.now ∧
      Server.later.disk.openRead (ascii "./low_storage/f") = .ok (some (ascii "hello")) ∧
      (upload storageConf .sample (uploadRequest (ascii "low") (ascii "Zg==") (ascii "world")) .later).disk.openRead
        (ascii "./low_storage/f") = .ok (some (ascii "world")) ∧
      etagOf storageConf .later (ascii "./low_storage/f") = some (ascii "f-5-0") ∧
      etagOf storageConf (upload storageConf .sample (uploadRequest (ascii "low") (ascii "Zg==") (ascii "world")) .later)
        (ascii "./low_storage/f") = some (ascii "f-5-0") := by
  decide

end HttpFramework.Storage
