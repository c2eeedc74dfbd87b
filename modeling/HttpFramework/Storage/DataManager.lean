import HttpFramework.Storage.Util

/-! `storage::DataManager`: the table of the stored files, the file in which it is kept
as JSON, and the lock around it. -/

namespace HttpFramework.Storage

/-- `Json::Value`, without the booleans and the real numbers. The members of an object are
in the order of their names. -/
inductive Json where
  | null
  | int (value : Int)
  | string (text : Bytes)
  | array (items : List Json)
  | object (members : List (Bytes × Json))

namespace Json

def size : Json → Nat
  | .array items => items.length
  | .object members => members.length
  | _ => 0

def item (index : Nat) : Json → Except Fault Json
  | .null => .ok .null
  | .array items => .ok (items[index]?.getD .null)
  | _ => .error .logicError

/-- What the loop of `InitLoad` goes over. Only an array has items. -/
def items (value : Json) : Except Fault (List Json) :=
  (List.range value.size).mapM fun index => value.item index

/-- A name that is not there yields null. -/
def member (name : Bytes) : Json → Except Fault Json
  | .null => .ok .null
  | .object members => .ok ((members.lookup name).getD .null)
  | _ => .error .logicError

/-- The value must be in the range of `int`, whatever it is assigned to. -/
def asInt : Json → Except Fault Int
  | .null => .ok 0
  | .int value => if - 2 ^ 31 ≤ value ∧ value < 2 ^ 31 then .ok value else .error .logicError
  | _ => .error .logicError

def asString : Json → Except Fault Bytes
  | .null => .ok []
  | .int value => .ok (if value < 0 then chr '-' :: decimal value.natAbs else decimal value.natAbs)
  | .string text => .ok text
  | _ => .error .logicError

end Json

/-- `jsoncpp`. Reading reports whether the text was JSON, and leaves a value either way. -/
structure Jsoncpp where
  write : Json → Bytes
  read : Bytes → Bool × Json

namespace JsonUtil

def serialize (jsoncpp : Jsoncpp) (value : Json) : Bytes := jsoncpp.write value

/-- The result is false in any case. -/
def unSerialize (jsoncpp : Jsoncpp) (text : Bytes) : Bool × Json := (false, (jsoncpp.read text).2)

end JsonUtil

/-- The conversion of a `size_t` to `Json::Int64`. -/
def toInt64 (n : Nat) : Int := if n % 2 ^ 64 < 2 ^ 63 then (n % 2 ^ 64 : Nat) else (n % 2 ^ 64 : Nat) - 2 ^ 64

structure StorageInfo where
  mtime : Int
  atime : Int
  fsize : Nat
  storagePath : Bytes := []
  url : Bytes := []

namespace StorageInfo

def toJson (info : StorageInfo) : Json :=
  .object [(ascii "atime_", .int info.atime), (ascii "fsize_", .int (toInt64 info.fsize)),
    (ascii "mtime_", .int info.mtime), (ascii "storage_path_", .string (cString info.storagePath)),
    (ascii "url_", .string (cString info.url))]

/-- The conversion of one record in `InitLoad`. -/
def ofJson (value : Json) : Except Fault StorageInfo := do
  let fsize ← (← value.member (ascii "fsize_")).asInt
  let atime ← (← value.member (ascii "atime_")).asInt
  let mtime ← (← value.member (ascii "mtime_")).asInt
  let storagePath ← (← value.member (ascii "storage_path_")).asString
  let url ← (← value.member (ascii "url_")).asString
  return { mtime, atime, fsize := toSizeT fsize, storagePath, url }

end StorageInfo

/-- The value that `Storage` fills: it stays null when there is no record. -/
def rootOf (records : List StorageInfo) : Json :=
  if records = [] then .null else .array (records.map StorageInfo.toJson)

/-- `std::unordered_map`: where a new record comes in the order of iteration, and what a
rehash does to that order, is left to the library. -/
structure Hashing where
  arrange : List StorageInfo → List StorageInfo
  perm : ∀ records, (arrange records).Perm records

/-- The records in the order of iteration. The keys are the records' own URLs. -/
structure Table where
  records : List StorageInfo
  distinct : (records.map StorageInfo.url).Nodup

namespace Table

def empty : Table := ⟨[], List.nodup_nil⟩

def find? (table : Table) (url : Bytes) : Option StorageInfo :=
  table.records.find? (·.url = url)

theorem replaced_urls (records : List StorageInfo) (info : StorageInfo) :
    (records.map fun record => if record.url = info.url then info else record).map StorageInfo.url =
      records.map StorageInfo.url := by
  rw [List.map_map]
  apply List.map_congr_left
  intro record _
  simp only [Function.comp_apply]
  split
  next same => exact same.symm
  next => rfl

/-- `table_[info.url_] = info`. -/
def set (hashing : Hashing) (table : Table) (info : StorageInfo) : Table :=
  if known : ∃ record ∈ table.records, record.url = info.url then
    { records := table.records.map fun record => if record.url = info.url then info else record
      distinct := by rw [replaced_urls]; exact table.distinct }
  else
    { records := hashing.arrange (info :: table.records)
      distinct := by
        refine ((hashing.perm _).map _).nodup_iff.mpr ?_
        exact List.nodup_cons.mpr ⟨fun member => known (List.mem_map.mp member), table.distinct⟩ }

end Table

abbrev Thread := Nat

structure DataManager where
  storageFile : Bytes
  rwlock : Option Thread := none
  table : Table := .empty

namespace DataManager

/-- `pthread_rwlock_wrlock`: a thread that holds the lock is told so (`EDEADLK`) and nothing
changes; `none` is a thread that waits for the lock. -/
def wrlock (thread : Thread) (manager : DataManager) : Option DataManager :=
  match manager.rwlock with
  | none => some { manager with rwlock := some thread }
  | some holder => if holder = thread then some manager else none

def unlock (manager : DataManager) : DataManager := { manager with rwlock := none }

def getAll (thread : Thread) (manager : DataManager) : Option (List StorageInfo × DataManager) := do
  let manager ← manager.wrlock thread
  return (manager.table.records, manager.unlock)

/-- A failure to write the file is logged, and the result is true. -/
def storage (jsoncpp : Jsoncpp) (thread : Thread) (manager : DataManager) (disk : Disk) :
    Option (DataManager × Disk) := do
  let (records, manager) ← manager.getAll thread
  let body := JsonUtil.serialize jsoncpp (rootOf records)
  return (manager, (FileUtil.setContent disk manager.storageFile body).2)

/-- `Insert` and `Update` differ in what they log. -/
def insert (jsoncpp : Jsoncpp) (hashing : Hashing) (thread : Thread) (info : StorageInfo)
    (manager : DataManager) (disk : Disk) : Option (DataManager × Disk) := do
  let manager ← manager.wrlock thread
  { manager with table := manager.table.set hashing info }.unlock.storage jsoncpp thread disk

def update (jsoncpp : Jsoncpp) (hashing : Hashing) (thread : Thread) (info : StorageInfo)
    (manager : DataManager) (disk : Disk) : Option (DataManager × Disk) :=
  insert jsoncpp hashing thread info manager disk

/-- The lock is never released: a record that is found asks for it once more, and a miss
returns at once. -/
def getOneByURL (thread : Thread) (key : Bytes) (manager : DataManager) :
    Option (Option StorageInfo × DataManager) := do
  let manager ← manager.wrlock thread
  match manager.table.find? key with
  | none => return (none, manager)
  | some info =>
    let manager ← manager.wrlock thread
    return (some info, manager)

def getOneByStoragePath (thread : Thread) (storagePath : Bytes) (manager : DataManager) :
    Option (Option StorageInfo × DataManager) := do
  let manager ← manager.wrlock thread
  match manager.table.records.find? (·.storagePath = storagePath) with
  | some info =>
    let manager ← manager.wrlock thread
    return (some info, manager)
  | none => return (none, manager.unlock)

/-- How the loop of `InitLoad` ends. -/
inductive Loading where
  | finished
  | thrown (fault : Fault)
  | waiting
deriving DecidableEq, Repr

/-- The records of the file are inserted one by one, and every `Insert` writes the file. -/
def loadRecords (jsoncpp : Jsoncpp) (hashing : Hashing) (thread : Thread) :
    List Json → DataManager × Disk → Loading × DataManager × Disk
  | [], state => (.finished, state)
  | value :: rest, state =>
    match StorageInfo.ofJson value with
    | .error fault => (.thrown fault, state)
    | .ok info =>
      match state.1.insert jsoncpp hashing thread info state.2 with
      | none => (.waiting, state)
      | some state => loadRecords jsoncpp hashing thread rest state

def initLoad (jsoncpp : Jsoncpp) (hashing : Hashing) (thread : Thread) (manager : DataManager) (disk : Disk) :
    Loading × DataManager × Disk :=
  match FileUtil.exists? disk manager.storageFile with
  | .error fault => (.thrown fault, manager, disk)
  | .ok false => (.finished, manager, disk)
  | .ok true =>
    match FileUtil.getContent disk manager.storageFile with
    | .error fault => (.thrown fault, manager, disk)
    | .ok none => (.finished, manager, disk)
    | .ok (some body) =>
      match (JsonUtil.unSerialize jsoncpp body).2.items with
      | .error fault => (.thrown fault, manager, disk)
      | .ok values => loadRecords jsoncpp hashing thread values (manager, disk)

end DataManager

end HttpFramework.Storage
