import HttpFramework.Storage.Util

/-! `my_storage::DataManager` of the storage client: the table of the uploaded files and the file in
which it is kept, a line for each entry. `my_storage::FileUtil` is a copy of the server's, whose
functions are used here. What `GetPosLen` leaves in the string when it fails is seen only here. -/

namespace HttpFramework.Client
open Storage (Disk Fault stringMaxSize)

namespace FileUtil
export Storage.FileUtil (fileSize lastModifyTime fileName setContent exists?)

/-- The string is resized before it is read into, and keeps what could be read. -/
def getPosLen (disk : Disk) (filename content : Bytes) (pos len : Nat) : Except Fault (Bool × Bytes) :=
  if toSizeT (fileSize disk filename) < (pos + len) % 2 ^ 64 then
    .ok (false, content)
  else
    match disk.openRead filename with
    | .error _ => .ok (false, content)
    | .ok source =>
      if stringMaxSize < len then .error .lengthError
      else
        let resized := content.take len ++ List.replicate (len - content.length) 0
        match source with
        | none => .ok (false, resized)
        | some bytes => .ok (decide (pos + len ≤ bytes.length), copyTo resized 0 (bytes.drop pos))

def getContent (disk : Disk) (filename content : Bytes) : Except Fault (Bool × Bytes) :=
  getPosLen disk filename content 0 (toSizeT (fileSize disk filename))

end FileUtil

/-- `Split` from the start of a field. What has been read of the field comes first, and a
separator is stepped over by one character whatever its length. -/
def splitFrom (sep field : Bytes) : Bytes → List Bytes
  | [] => if field = [] then [] else [field]
  | c :: rest => if sep <+: c :: rest then field :: splitFrom sep [] rest else splitFrom sep (field ++ [c]) rest

def split (body sep : Bytes) : List Bytes := splitFrom sep [] body

/-- The order in which an `unordered_map` is gone over, left to the library. -/
structure Hashing where
  order : Dict → List (Bytes × Bytes)
  perm : ∀ table, (order table).Perm table.toList

structure DataManager where
  storageFile : Bytes
  table : Dict := ∅

/-- One line of the file. `none` is a field read that is not there. -/
def loadLine (table : Dict) (line : Bytes) : Option Dict :=
  match split line (ascii " ") with
  | key :: value :: _ => some (table.insert key value)
  | _ => none

def lineOf (entry : Bytes × Bytes) : Bytes := entry.1 ++ ascii " " ++ entry.2 ++ ascii "\n"

namespace DataManager

/-- Whether the content could be read is not looked at. -/
def initLoad (manager : DataManager) (disk : Disk) : Except Fault (Option DataManager) := do
  if ← FileUtil.exists? disk manager.storageFile then
    let content := (← FileUtil.getContent disk manager.storageFile []).2
    return ((split content (ascii "\n")).foldlM loadLine manager.table).map fun table => { manager with table }
  else
    return some manager

def storage (hashing : Hashing) (manager : DataManager) (disk : Disk) : Disk :=
  (FileUtil.setContent disk manager.storageFile ((hashing.order manager.table).flatMap lineOf)).2

def insert (hashing : Hashing) (manager : DataManager) (key val : Bytes) (disk : Disk) : DataManager × Disk :=
  let manager := { manager with table := manager.table.insert key val }
  (manager, manager.storage hashing disk)

/-- `Update` does what `Insert` does. -/
def update (hashing : Hashing) (manager : DataManager) (key val : Bytes) (disk : Disk) : DataManager × Disk :=
  manager.insert hashing key val disk

end DataManager

end HttpFramework.Client
