import HttpFramework.Library.Transition
import HttpFramework.Storage.DataManager

/-! The lock of `storage::DataManager`. Every function takes it, and the two lookups do not
always give it back: where they should unlock they lock again, or return. -/

namespace HttpFramework.Storage
open Transition

inductive Operation where
  | insert (info : StorageInfo)
  | update (info : StorageInfo)
  | getOneByURL (key : Bytes)
  | getOneByStoragePath (storagePath : Bytes)
  | getAll
  | storage

namespace Operation

/-- A call of a thread, as a step of the table and the disk. It has no step while it waits. -/
def step (jsoncpp : Jsoncpp) (hashing : Hashing) (state : DataManager × Disk) (call : Thread × Operation) :
    Option (DataManager × Disk) :=
  match call.2 with
  | .insert info => state.1.insert jsoncpp hashing call.1 info state.2
  | .update info => state.1.update jsoncpp hashing call.1 info state.2
  | .getOneByURL key => (state.1.getOneByURL call.1 key).map fun result => (result.2, state.2)
  | .getOneByStoragePath path => (state.1.getOneByStoragePath call.1 path).map fun result => (result.2, state.2)
  | .getAll => (state.1.getAll call.1).map fun result => (result.2, state.2)
  | .storage => state.1.storage jsoncpp call.1 state.2

def apply (hashing : Hashing) (table : Table) : Operation → Table
  | .insert info | .update info => table.set hashing info
  | _ => table

/-- It is no lookup by URL, and no lookup by path that finds a record. -/
def Releases (table : Table) : Operation → Prop
  | .getOneByURL _ => False
  | .getOneByStoragePath path => ∀ record ∈ table.records, record.storagePath ≠ path
  | _ => True

/-- Every call of a sequence releases the lock, on the table it finds. -/
def Releasing (hashing : Hashing) : Table → List Operation → Prop
  | _, [] => True
  | table, operation :: rest => operation.Releases table ∧ Releasing hashing (operation.apply hashing table) rest

end Operation

namespace DataManager

variable {jsoncpp : Jsoncpp} {hashing : Hashing} {thread : Thread} {manager : DataManager} {disk : Disk}

theorem wrlock_of_free (free : manager.rwlock = none) :
    manager.wrlock thread = some { manager with rwlock := some thread } := by
  simp [wrlock, free]

theorem wrlock_of_held (held : manager.rwlock = some thread) : manager.wrlock thread = some manager := by
  simp [wrlock, held]

def Available (thread : Thread) (manager : DataManager) : Prop :=
  manager.rwlock = none ∨ manager.rwlock = some thread

theorem wrlock_of_available (available : manager.Available thread) :
    manager.wrlock thread = some { manager with rwlock := some thread } := by
  rcases available with free | held
  · exact wrlock_of_free free
  · rw [wrlock_of_held held, ← held]

theorem wrlock_of_unavailable (waits : ¬ manager.Available thread) : manager.wrlock thread = none := by
  rw [wrlock]
  split
  next free => exact absurd (.inl free) waits
  next holder held =>
    apply if_neg
    rintro rfl
    exact waits (.inr held)

theorem getAll_of_available (available : manager.Available thread) :
    manager.getAll thread = some (manager.table.records, manager.unlock) := by
  rw [getAll, wrlock_of_available available]
  rfl

theorem storage_of_available (available : manager.Available thread) (disk : Disk) :
    manager.storage jsoncpp thread disk = some (manager.unlock,
      (FileUtil.setContent disk manager.storageFile (JsonUtil.serialize jsoncpp (rootOf manager.table.records))).2) := by
  rw [storage, getAll_of_available available]
  rfl

theorem insert_of_available (available : manager.Available thread) (info : StorageInfo) (disk : Disk) :
    manager.insert jsoncpp hashing thread info disk =
      some ({ manager with rwlock := none, table := manager.table.set hashing info },
        (FileUtil.setContent disk manager.storageFile
          (JsonUtil.serialize jsoncpp (rootOf (manager.table.set hashing info).records))).2) := by
  have free : Available thread { manager with rwlock := none, table := manager.table.set hashing info } := .inl rfl
  rw [insert, wrlock_of_available available]
  exact storage_of_available free disk

theorem available_of_insert {info : StorageInfo} {result : DataManager × Disk}
    (inserted : manager.insert jsoncpp hashing thread info disk = some result) : manager.Available thread := by
  by_contra waits
  rw [insert, wrlock_of_unavailable waits] at inserted
  cases inserted

/-- A lookup by URL keeps the lock, whether it finds a record or not. -/
theorem getOneByURL_of_available (available : manager.Available thread) (key : Bytes) :
    manager.getOneByURL thread key = some (manager.table.find? key, { manager with rwlock := some thread }) := by
  rw [getOneByURL, wrlock_of_available available]
  cases found : manager.table.find? key with
  | none => simp [found]
  | some info => simp [found, wrlock]

theorem found_of_getOneByURL {key : Bytes} {found : Option StorageInfo} {next : DataManager}
    (looked : manager.getOneByURL thread key = some (found, next)) : found = manager.table.find? key := by
  have available : manager.Available thread := by
    by_contra waits
    rw [getOneByURL, wrlock_of_unavailable waits] at looked
    cases looked
  cases (getOneByURL_of_available available key).symm.trans looked
  rfl

theorem getOneByStoragePath_of_available (available : manager.Available thread) (path : Bytes) :
    manager.getOneByStoragePath thread path = some (manager.table.records.find? (·.storagePath = path),
      { manager with
        rwlock := if ∀ record ∈ manager.table.records, record.storagePath ≠ path then none else some thread }) := by
  rw [getOneByStoragePath, wrlock_of_available available]
  cases found : manager.table.records.find? (·.storagePath = path) with
  | none =>
    have absent : ∀ record ∈ manager.table.records, record.storagePath ≠ path := by simpa using found
    simp [found, unlock, if_pos absent]
  | some info =>
    have present : ¬ ∀ record ∈ manager.table.records, record.storagePath ≠ path := by
      intro absent
      exact absent info (List.mem_of_find?_eq_some found) (by simpa using List.find?_some found)
    simp [found, wrlock, if_neg present]

end DataManager

namespace Operation

variable {jsoncpp : Jsoncpp} {hashing : Hashing}

theorem step_of_free {manager : DataManager} (free : manager.rwlock = none) (disk : Disk) (thread : Thread)
    (operation : Operation) :
    ∃ next, step jsoncpp hashing (manager, disk) (thread, operation) = some next ∧
      next.1.table = operation.apply hashing manager.table ∧
      (operation.Releases manager.table → next.1.rwlock = none) ∧
      (¬ operation.Releases manager.table → next.1.rwlock = some thread) := by
  have available : manager.Available thread := .inl free
  cases operation with
  | insert info => exact ⟨_, DataManager.insert_of_available available info disk, rfl, fun _ => rfl, fun no => absurd trivial no⟩
  | update info => exact ⟨_, DataManager.insert_of_available available info disk, rfl, fun _ => rfl, fun no => absurd trivial no⟩
  | getOneByURL key =>
    refine ⟨_, congrArg (Option.map _) (DataManager.getOneByURL_of_available available key), rfl, nofun, fun _ => rfl⟩
  | getOneByStoragePath path =>
    refine ⟨_, congrArg (Option.map _) (DataManager.getOneByStoragePath_of_available available path), rfl, ?_, ?_⟩
    · exact fun releases => if_pos releases
    · exact fun keeps => if_neg keeps
  | getAll =>
    exact ⟨_, congrArg (Option.map _) (DataManager.getAll_of_available available), rfl, fun _ => rfl, fun no => absurd trivial no⟩
  | storage => exact ⟨_, DataManager.storage_of_available available disk, rfl, fun _ => rfl, fun no => absurd trivial no⟩

/-- Whatever the table and the threads, every call of a sequence returns without the lock
exactly when no call is a lookup by URL or a lookup by path that finds a record. -/
theorem released_throughout_iff {manager : DataManager} (free : manager.rwlock = none) (disk : Disk)
    (calls : List (Thread × Operation)) :
    Throughout (step jsoncpp hashing) (fun _ call next => next.1.rwlock ≠ some call.1) (manager, disk) calls ↔
      Releasing hashing manager.table (calls.map Prod.snd) := by
  induction calls generalizing manager disk with
  | nil => exact ⟨fun _ => trivial, fun _ => .nil _⟩
  | cons call calls ih =>
    obtain ⟨⟨next, after⟩, taken, table, released, kept⟩ :=
      @step_of_free jsoncpp hashing manager free disk call.1 call.2
    rw [throughout_cons taken]
    by_cases releases : call.2.Releases manager.table
    · have free' : next.rwlock = none := released releases
      have table' : next.table = call.2.apply hashing manager.table := table
      simp only [free', ih free' after, table', List.map_cons, Releasing, releases, true_and]
      simp
    · have held : next.rwlock = some call.1 := kept releases
      simp [held, Releasing, releases]

theorem released_three_calls :
    Throughout (step ⟨fun _ => [], fun _ => (true, .null)⟩ ⟨id, fun _ => .refl _⟩)
      (fun _ call next => next.1.rwlock ≠ some call.1)
      (⟨ascii "./storage.data", none, .empty⟩, ⟨∅, [], 0, fun _ => none⟩)
      [(1, .insert { mtime := 1, atime := 1, fsize := 1, url := ascii "/download/f" }),
        (2, .getOneByStoragePath (ascii "./low_storage/f")), (3, .getAll)] := by
  apply (released_throughout_iff rfl _ _).mpr
  refine ⟨trivial, ?_, trivial, trivial⟩
  intro record member
  cases List.mem_singleton.mp member
  decide

/-- A lookup that misses keeps the lock, and another thread has to wait for ever. -/
theorem miss_keeps_lock :
    ∃ next, step ⟨fun _ => [], fun _ => (true, .null)⟩ ⟨id, fun _ => .refl _⟩
        (⟨ascii "./storage.data", none, .empty⟩, ⟨∅, [], 0, fun _ => none⟩) (1, .getOneByURL (ascii "/download/f")) =
          some next ∧
      next.1.rwlock = some 1 ∧
      step ⟨fun _ => [], fun _ => (true, .null)⟩ ⟨id, fun _ => .refl _⟩ next (2, .getAll) = none :=
  ⟨_, rfl, rfl, rfl⟩

end Operation

end HttpFramework.Storage
