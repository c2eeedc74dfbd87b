import HttpFramework.Proofs.DiskFiles
import HttpFramework.Proofs.TableLock

/-! The file that keeps the table. `Storage` writes 64-bit numbers and `InitLoad` reads them
back through `asInt`, which throws outside the range of `int`. `InitLoad` inserts what it
reads, and every `Insert` writes the file again with the records inserted so far. -/

namespace HttpFramework.Storage
open Transition

set_option maxRecDepth 4000

namespace Table

variable {hashing : Hashing} {table : Table} {info record : StorageInfo} {url : Bytes}

theorem find?_eq_some_iff : table.find? url = some info ↔ info ∈ table.records ∧ info.url = url := by
  constructor
  · intro found
    exact ⟨List.mem_of_find?_eq_some found, by simpa using List.find?_some found⟩
  · rintro ⟨member, rfl⟩
    obtain ⟨other, found⟩ : ∃ other, table.find? info.url = some other := by
      apply Option.isSome_iff_exists.mp
      exact List.find?_isSome.mpr ⟨info, member, by simp⟩
    have same : other.url = info.url := by simpa using List.find?_some found
    have equal := List.inj_on_of_nodup_map table.distinct (List.mem_of_find?_eq_some found) member same
    rw [found, equal]

theorem mem_set : record ∈ (table.set hashing info).records ↔
    record = info ∨ record ∈ table.records ∧ record.url ≠ info.url := by
  unfold set
  split
  next known =>
    simp only [List.mem_map]
    constructor
    · rintro ⟨old, member, rfl⟩
      split
      next => exact .inl rfl
      next different => exact .inr ⟨member, different⟩
    · rintro (rfl | ⟨member, different⟩)
      · obtain ⟨old, member, same⟩ := known
        exact ⟨old, member, if_pos same⟩
      · exact ⟨record, member, if_neg different⟩
  next unknown =>
    rw [(hashing.perm _).mem_iff, List.mem_cons]
    refine or_congr_right ⟨fun member => ⟨member, fun same => unknown ?_⟩, And.left⟩
    exact ⟨record, member, same⟩

theorem length_set_le : (table.set hashing info).records.length ≤ table.records.length + 1 := by
  unfold set
  split
  next => simp
  next => simp [(hashing.perm _).length_eq]

theorem mem_foldl_set {infos : List StorageInfo} (distinct : (infos.map StorageInfo.url).Nodup) :
    record ∈ (infos.foldl (Table.set hashing) table).records ↔
      record ∈ infos ∨ record ∈ table.records ∧ record.url ∉ infos.map StorageInfo.url := by
  induction infos generalizing table with
  | nil => simp
  | cons info infos ih =>
    obtain ⟨fresh, distinct⟩ := List.nodup_cons.mp distinct
    rw [List.foldl_cons, ih distinct, mem_set]
    simp only [List.map_cons, List.mem_cons, not_or]
    constructor
    · rintro (later | ⟨rfl | ⟨member, different⟩, absent⟩)
      · exact .inl (.inr later)
      · exact .inl (.inl rfl)
      · exact .inr ⟨member, different, absent⟩
    · rintro ((rfl | later) | ⟨member, different, absent⟩)
      · exact .inr ⟨.inl rfl, fresh⟩
      · exact .inl later
      · exact .inr ⟨.inr ⟨member, different⟩, absent⟩

theorem find?_foldl_set {other : Table} :
    (other.records.foldl (Table.set hashing) Table.empty).find? url = other.find? url := by
  apply Option.ext
  intro info
  rw [find?_eq_some_iff, find?_eq_some_iff, mem_foldl_set other.distinct]
  simp [Table.empty]

end Table

namespace StorageInfo

structure FitsInt (info : StorageInfo) : Prop where
  fsize : info.fsize < 2 ^ 31
  atime : - 2 ^ 31 ≤ info.atime ∧ info.atime < 2 ^ 31
  mtime : - 2 ^ 31 ≤ info.mtime ∧ info.mtime < 2 ^ 31

/-- A record that `Storage` can write: its size is one of `Json::Int64`, and no text of it
is cut at a NUL. -/
structure Writable (info : StorageInfo) : Prop where
  fsize : info.fsize < 2 ^ 63
  storagePath : 0 ∉ info.storagePath
  url : 0 ∉ info.url

private theorem member_toJson (info : StorageInfo) :
    info.toJson.member (ascii "fsize_") = .ok (.int (toInt64 info.fsize)) ∧
      info.toJson.member (ascii "atime_") = .ok (.int info.atime) ∧
      info.toJson.member (ascii "mtime_") = .ok (.int info.mtime) ∧
      info.toJson.member (ascii "storage_path_") = .ok (.string (cString info.storagePath)) ∧
      info.toJson.member (ascii "url_") = .ok (.string (cString info.url)) :=
  ⟨rfl, rfl, rfl, rfl, rfl⟩

private theorem ofJson_of_members {value : Json} {fsize atime mtime : Int} {storagePath url : Bytes}
    (fsizeRead : value.member (ascii "fsize_") = .ok (.int fsize))
    (atimeRead : value.member (ascii "atime_") = .ok (.int atime))
    (mtimeRead : value.member (ascii "mtime_") = .ok (.int mtime))
    (pathRead : value.member (ascii "storage_path_") = .ok (.string storagePath))
    (urlRead : value.member (ascii "url_") = .ok (.string url)) :
    ofJson value =
      if (- 2 ^ 31 ≤ fsize ∧ fsize < 2 ^ 31) ∧ (- 2 ^ 31 ≤ atime ∧ atime < 2 ^ 31) ∧ (- 2 ^ 31 ≤ mtime ∧ mtime < 2 ^ 31)
      then .ok ⟨mtime, atime, toSizeT fsize, storagePath, url⟩ else .error .logicError := by
  simp only [ofJson, fsizeRead, atimeRead, mtimeRead, pathRead, urlRead, bind, Except.bind, pure, Except.pure,
    Json.asInt, Json.asString]
  by_cases fsizeFits : - 2 ^ 31 ≤ fsize ∧ fsize < 2 ^ 31
  · by_cases atimeFits : - 2 ^ 31 ≤ atime ∧ atime < 2 ^ 31
    · by_cases mtimeFits : - 2 ^ 31 ≤ mtime ∧ mtime < 2 ^ 31
      · simp only [fsizeFits, atimeFits, mtimeFits, and_self, if_true]
      · simp only [fsizeFits, atimeFits, mtimeFits, and_self, and_false, if_true, if_false]
    · simp only [fsizeFits, atimeFits, and_self, false_and, and_false, if_true, if_false]
  · simp only [fsizeFits, false_and, if_false]

/-- A record comes back as it was when its numbers fit, and throws otherwise. -/
theorem ofJson_toJson {info : StorageInfo} (writable : info.Writable) :
    (info.FitsInt → ofJson info.toJson = .ok info) ∧
      (¬ info.FitsInt → ofJson info.toJson = .error .logicError) := by
  have bound := writable.fsize
  have size : toInt64 info.fsize = info.fsize := by
    simp only [toInt64]
    omega
  obtain ⟨fsizeRead, atimeRead, mtimeRead, pathRead, urlRead⟩ := member_toJson info
  rw [ofJson_of_members fsizeRead atimeRead mtimeRead pathRead urlRead, size, cString_of_absent writable.storagePath,
    cString_of_absent writable.url]
  constructor
  · intro fits
    have back : toSizeT (info.fsize : Int) = info.fsize := by
      simp only [toSizeT]
      omega
    have small := fits.fsize
    rw [if_pos ⟨by omega, fits.atime, fits.mtime⟩, back]
  · intro large
    apply if_neg
    rintro ⟨fsize, atime, mtime⟩
    exact large ⟨by omega, atime, mtime⟩

end StorageInfo

namespace DataManager

variable {jsoncpp : Jsoncpp} {hashing : Hashing} {thread : Thread} {manager : DataManager} {disk : Disk}

theorem loadRecords_fits {infos : List StorageInfo} (available : manager.Available thread)
    (writable : ∀ info ∈ infos, info.Writable) (fits : ∀ info ∈ infos, info.FitsInt) :
    ∃ loaded after, loadRecords jsoncpp hashing thread (infos.map StorageInfo.toJson) (manager, disk) =
        (.finished, loaded, after) ∧ loaded.table = infos.foldl (Table.set hashing) manager.table := by
  induction infos generalizing manager disk with
  | nil => exact ⟨manager, disk, rfl, rfl⟩
  | cons info infos ih =>
    have converted := (StorageInfo.ofJson_toJson (writable info List.mem_cons_self)).1 (fits info List.mem_cons_self)
    simp only [List.map_cons, loadRecords, converted, insert_of_available available, List.foldl_cons]
    exact ih (.inl rfl) (fun other member => writable other (List.mem_cons_of_mem info member))
      (fun other member => fits other (List.mem_cons_of_mem info member))

theorem loadRecords_throws {infos : List StorageInfo} (available : manager.Available thread)
    (writable : ∀ info ∈ infos, info.Writable) (large : ∃ info ∈ infos, ¬ info.FitsInt) :
    ∃ state, loadRecords jsoncpp hashing thread (infos.map StorageInfo.toJson) (manager, disk) =
        (.thrown .logicError, state) := by
  induction infos generalizing manager disk with
  | nil => simp at large
  | cons info infos ih =>
    have conversion := StorageInfo.ofJson_toJson (writable info List.mem_cons_self)
    by_cases fits : info.FitsInt
    · obtain ⟨other, member, large⟩ := large
      have later : other ∈ infos := by
        rcases List.mem_cons.mp member with rfl | later
        · exact absurd fits large
        · exact later
      simp only [List.map_cons, loadRecords, conversion.1 fits, insert_of_available available]
      exact ih (.inl rfl) (fun other member => writable other (List.mem_cons_of_mem info member)) ⟨other, later, large⟩
    · simp only [List.map_cons, loadRecords, conversion.2 fits]
      exact ⟨_, rfl⟩

theorem items_array (values : List Json) : (Json.array values).items = .ok values := by
  have each : (fun index => (Json.array values).item index) =
      fun index => (pure (values[index]?.getD .null) : Except Fault Json) := rfl
  have whole : (List.range values.length).map (fun index => values[index]?.getD .null) = values := by
    apply List.ext_getElem
    · simp
    · intro index inside _
      have bound : index < values.length := by simpa using inside
      simp [bound]
  rw [Json.items, Json.size, each, List.mapM_pure, whole]
  rfl

theorem items_rootOf (records : List StorageInfo) : (rootOf records).items = .ok (records.map StorageInfo.toJson) := by
  unfold rootOf
  split
  next none => subst none; rfl
  next => exact items_array _

theorem initLoad_of_holds {place : Place} {body : Bytes} {records : List StorageInfo}
    (holds : disk.Holds manager.storageFile place body) (small : body.length ≤ stringMaxSize)
    (read : (jsoncpp.read body).2 = rootOf records) :
    manager.initLoad jsoncpp hashing thread disk =
      loadRecords jsoncpp hashing thread (records.map StorageInfo.toJson) (manager, disk) := by
  have present := holds.exists?
  have values : (JsonUtil.unSerialize jsoncpp body).2.items = .ok (records.map StorageInfo.toJson) := by
    rw [JsonUtil.unSerialize, read, items_rootOf]
  simp only [initLoad, present, holds.getContent small, values]

end DataManager

namespace Operation

variable {jsoncpp : Jsoncpp} {hashing : Hashing}

/-- A call that writes the file, with a record that can be written. -/
def Writes : Operation → Prop
  | .insert info | .update info => info.Writable
  | .storage => True
  | _ => False

/-- What holds of a table and its file while records are written. -/
structure Kept (manager : DataManager) (disk : Disk) (place : Place) : Prop where
  free : manager.rwlock = none
  usable : disk.Usable manager.storageFile place
  writable : ∀ info ∈ manager.table.records, info.Writable

def Saved (jsoncpp : Jsoncpp) (manager : DataManager) (disk : Disk) (place : Place) : Prop :=
  disk.Holds manager.storageFile place (jsoncpp.write (rootOf manager.table.records))

private theorem Kept.written {manager : DataManager} {disk : Disk} {place : Place} (kept : Kept manager disk place)
    {table : Table} (writable : ∀ info ∈ table.records, info.Writable) :
    let manager' := { manager with rwlock := none, table }
    let disk' := (FileUtil.setContent disk manager.storageFile (JsonUtil.serialize jsoncpp (rootOf table.records))).2
    Kept manager' disk' place ∧ Saved jsoncpp manager' disk' place ∧ manager'.storageFile = manager.storageFile := by
  obtain ⟨changed, written, holds, usable⟩ := kept.usable.write (jsoncpp.write (rootOf table.records))
  have stored : (FileUtil.setContent disk manager.storageFile
      (JsonUtil.serialize jsoncpp (rootOf table.records))).2 = changed := by
    simp only [FileUtil.setContent, JsonUtil.serialize, written]
  simp only [stored]
  exact ⟨⟨rfl, usable, writable⟩, holds, trivial⟩

theorem Kept.step {manager next : DataManager} {disk after : Disk} {place : Place} {call : Thread × Operation}
    (kept : Kept manager disk place) (writes : call.2.Writes)
    (taken : step jsoncpp hashing (manager, disk) call = some (next, after)) :
    Kept next after place ∧ Saved jsoncpp next after place ∧ next.storageFile = manager.storageFile := by
  have available : manager.Available call.1 := .inl kept.free
  obtain ⟨thread, operation⟩ := call
  cases operation with
  | insert info | update info =>
    cases (DataManager.insert_of_available available info disk).symm.trans taken
    apply kept.written
    intro record member
    rcases Table.mem_set.mp member with rfl | ⟨member, _⟩
    · exact writes
    · exact kept.writable record member
  | storage =>
    cases (DataManager.storage_of_available available disk).symm.trans taken
    exact kept.written kept.writable
  | getOneByURL => exact writes.elim
  | getOneByStoragePath => exact writes.elim
  | getAll => exact writes.elim

theorem Kept.run {manager final : DataManager} {disk after : Disk} {place : Place} {calls : List (Thread × Operation)}
    (run : Run (Operation.step jsoncpp hashing) (manager, disk) calls (final, after)) (kept : Kept manager disk place)
    (writes : ∀ call ∈ calls, call.2.Writes) :
    Kept final after place ∧ final.storageFile = manager.storageFile ∧
      (calls ≠ [] → Saved jsoncpp final after place) := by
  generalize start : (manager, disk) = state at run
  generalize finish : (final, after) = last at run
  induction run generalizing manager disk with
  | nil =>
    cases start.trans finish.symm
    exact ⟨kept, rfl, fun some => absurd rfl some⟩
  | @cons state next last call calls taken rest ih =>
    subst start
    obtain ⟨middle, between⟩ := next
    obtain ⟨kept', saved, file⟩ := kept.step (writes call List.mem_cons_self) taken
    obtain ⟨keptFinal, fileFinal, savedFinal⟩ :=
      ih kept' (fun other member => writes other (List.mem_cons_of_mem call member)) rfl finish
    refine ⟨keptFinal, fileFinal.trans file, fun _ => ?_⟩
    by_cases more : calls = []
    · subst more
      cases rest
      cases finish
      exact saved
    · exact savedFinal more

section
variable {manager final : DataManager} {disk after : Disk} {place : Place} {calls : List (Thread × Operation)}

theorem initLoad_of_run (new : manager.table = .empty) (free : manager.rwlock = none)
    (usable : disk.Usable manager.storageFile place)
    (run : Run (step jsoncpp hashing) (manager, disk) calls (final, after)) (written : calls ≠ [])
    (writes : ∀ call ∈ calls, call.2.Writes)
    (lossless : (jsoncpp.read (jsoncpp.write (rootOf final.table.records))).2 = rootOf final.table.records)
    (small : (jsoncpp.write (rootOf final.table.records)).length ≤ stringMaxSize) (thread : Thread) :
    DataManager.initLoad jsoncpp hashing thread { storageFile := manager.storageFile } after =
        DataManager.loadRecords jsoncpp hashing thread (final.table.records.map StorageInfo.toJson)
          ({ storageFile := manager.storageFile }, after) ∧
      ∀ info ∈ final.table.records, info.Writable := by
  have kept : Kept manager disk place := by
    refine ⟨free, usable, fun info member => ?_⟩
    rw [new] at member
    cases member
  obtain ⟨keptFinal, file, saved⟩ := Kept.run run kept writes
  have holds : after.Holds manager.storageFile place (jsoncpp.write (rootOf final.table.records)) :=
    file ▸ saved written
  exact ⟨@DataManager.initLoad_of_holds jsoncpp hashing thread { storageFile := manager.storageFile } after
    place _ _ holds small lossless, keptFinal.writable⟩

/-- A table comes back from the file it was last written to exactly when the numbers of
all of its records are in the range of `int`. -/
theorem reload_iff (new : manager.table = .empty) (free : manager.rwlock = none)
    (usable : disk.Usable manager.storageFile place)
    (run : Run (step jsoncpp hashing) (manager, disk) calls (final, after)) (written : calls ≠ [])
    (writes : ∀ call ∈ calls, call.2.Writes)
    (lossless : (jsoncpp.read (jsoncpp.write (rootOf final.table.records))).2 = rootOf final.table.records)
    (small : (jsoncpp.write (rootOf final.table.records)).length ≤ stringMaxSize) (thread : Thread) :
    (∃ loaded rewritten, DataManager.initLoad jsoncpp hashing thread { storageFile := manager.storageFile } after =
        (.finished, loaded, rewritten) ∧ ∀ url, loaded.table.find? url = final.table.find? url) ↔
      ∀ info ∈ final.table.records, info.FitsInt := by
  obtain ⟨loads, writable⟩ := initLoad_of_run new free usable run written writes lossless small thread
  have fresh : DataManager.Available thread { storageFile := manager.storageFile } := .inl rfl
  rw [loads]
  constructor
  · rintro ⟨loaded, rewritten, finished, _⟩
    by_contra some
    obtain ⟨state, thrown⟩ := @DataManager.loadRecords_throws jsoncpp hashing thread _ after _ fresh
      writable (by simpa using some)
    cases finished.symm.trans thrown
  · intro fits
    obtain ⟨loaded, rewritten, finished, table⟩ :=
      @DataManager.loadRecords_fits jsoncpp hashing thread _ after _ fresh writable fits
    refine ⟨loaded, rewritten, finished, fun url => ?_⟩
    rw [table]
    exact Table.find?_foldl_set

end

def sample (name : Bytes) (fsize : Nat) : StorageInfo :=
  { mtime := 5, atime := 5, fsize, storagePath := ascii "./low_storage/" ++ name, url := ascii "/download/" ++ name }

def sampleText (name : Bytes) (fsize : Nat) : Bytes :=
  [ascii "\x7b\n\t\t\"atime_\" : 5,", ascii "\n\t\t\"fsize_\" : ", decimal fsize, ascii ",\n\t\t\"mtime_\" : 5,",
    ascii "\n\t\t\"storage_path_\" : ", ascii "\"./low_storage/", name, ascii "\",\n\t\t\"url_\" : ",
    ascii "\"/download/", name, ascii "\"\n\t\x7d"].flatten

def oneRecord (fsize : Nat) : Jsoncpp where
  write _ := ascii "[\n\t" ++ sampleText (ascii "f") fsize ++ ascii "\n]"
  read _ := (true, rootOf [sample (ascii "f") fsize])

private theorem usable_fresh : (Disk.fresh [ascii "srv"]).Usable (ascii "./storage.data") [ascii "srv", ascii "storage.data"] :=
  ⟨rfl, rfl, .inr ⟨rfl, rfl⟩⟩

private theorem run_sized (fsize : Nat) :
    Run (step (oneRecord fsize) ⟨id, fun _ => .refl _⟩) ({ storageFile := ascii "./storage.data" }, .fresh [ascii "srv"])
      [(1, .insert (sample (ascii "f") fsize))]
      (⟨ascii "./storage.data", none, Table.empty.set ⟨id, fun _ => .refl _⟩ (sample (ascii "f") fsize)⟩,
        (FileUtil.setContent (.fresh [ascii "srv"]) (ascii "./storage.data") ((oneRecord fsize).write .null)).2) :=
  .cons rfl (.nil _)

private theorem writes_sized {fsize : Nat} (bound : fsize < 2 ^ 63) :
    ∀ call ∈ [((1, .insert (sample (ascii "f") fsize)) : Thread × Operation)], call.2.Writes := by
  intro call member
  cases List.mem_singleton.mp member
  exact ⟨bound, show 0 ∉ ascii "./low_storage/" ++ ascii "f" by decide,
    show 0 ∉ ascii "/download/" ++ ascii "f" by decide⟩

theorem reload_small_file :
    ∃ final after, Run (step (oneRecord 3) ⟨id, fun _ => .refl _⟩)
        ({ storageFile := ascii "./storage.data" }, .fresh [ascii "srv"]) [(1, .insert (sample (ascii "f") 3))] (final, after) ∧
      ∃ loaded rewritten, DataManager.initLoad (oneRecord 3) ⟨id, fun _ => .refl _⟩ 1
          { storageFile := ascii "./storage.data" } after = (.finished, loaded, rewritten) ∧
        ∀ url, loaded.table.find? url = final.table.find? url := by
  refine ⟨_, _, run_sized 3, (reload_iff rfl rfl usable_fresh (run_sized 3) nofun (writes_sized (by decide)) rfl
    (by decide) 1).mpr ?_⟩
  intro info member
  cases List.mem_singleton.mp member
  exact ⟨by decide, by decide, by decide⟩

/-- A file of two gibibytes is recorded, and the next start throws. -/
theorem reload_large_file :
    ∃ final after state, Run (step (oneRecord (2 ^ 31)) ⟨id, fun _ => .refl _⟩)
        ({ storageFile := ascii "./storage.data" }, .fresh [ascii "srv"]) [(1, .insert (sample (ascii "f") (2 ^ 31)))] (final, after) ∧
      DataManager.initLoad (oneRecord (2 ^ 31)) ⟨id, fun _ => .refl _⟩ 1 { storageFile := ascii "./storage.data" } after =
        (.thrown .logicError, state) := by
  obtain ⟨loads, writable⟩ := initLoad_of_run rfl rfl usable_fresh (run_sized (2 ^ 31)) nofun
    (writes_sized (by decide)) rfl (by decide) 1
  have large : ∃ info ∈ [sample (ascii "f") (2 ^ 31)], ¬ info.FitsInt :=
    ⟨_, List.mem_singleton_self _, fun fits => absurd fits.fsize (by decide)⟩
  have fresh : DataManager.Available 1 { storageFile := ascii "./storage.data" } := .inl rfl
  obtain ⟨state, thrown⟩ := DataManager.loadRecords_throws fresh writable large
  exact ⟨_, _, state, run_sized (2 ^ 31), loads.trans thrown⟩

end Operation

namespace DataManager

variable {jsoncpp : Jsoncpp} {hashing : Hashing} {thread : Thread} {manager loaded : DataManager} {disk after : Disk}
  {place : Place} {values : List Json}

theorem loadRecords_append {first : List Json} {state : DataManager × Disk}
    (stopped : loadRecords jsoncpp hashing thread first (manager, disk) = (.finished, state)) (rest : List Json) :
    loadRecords jsoncpp hashing thread (first ++ rest) (manager, disk) =
      loadRecords jsoncpp hashing thread rest state := by
  generalize (manager, disk) = start at stopped ⊢
  induction first generalizing start with
  | nil =>
    simp only [loadRecords, Prod.mk.injEq, true_and] at stopped
    rw [List.nil_append, stopped]
  | cons value first ih =>
    rw [List.cons_append]
    simp only [loadRecords] at stopped ⊢
    split at stopped
    next => cases stopped
    next info converted =>
      split at stopped
      next => cases stopped
      next next inserted => exact ih next stopped

/-- Every record that is loaded is inserted. What one `Insert` keeps, loading keeps. -/
theorem loadRecords_induction (invariant : List Json → DataManager → Disk → Prop)
    (step : ∀ {value rest info} {manager : DataManager} {disk : Disk} {next : DataManager × Disk},
      invariant (value :: rest) manager disk → StorageInfo.ofJson value = .ok info →
      manager.insert jsoncpp hashing thread info disk = some next → invariant rest next.1 next.2)
    (start : invariant values manager disk)
    (finished : loadRecords jsoncpp hashing thread values (manager, disk) = (.finished, loaded, after)) :
    invariant [] loaded after := by
  induction values generalizing manager disk with
  | nil => cases finished; exact start
  | cons value values ih =>
    simp only [loadRecords] at finished
    split at finished
    next => cases finished
    next info converted =>
      split at finished
      next => cases finished
      next next inserted => exact ih (step start converted inserted) finished

theorem loadRecords_denied (available : manager.Available thread)
    (denied : ∀ content, FileUtil.setContent disk manager.storageFile content = (false, disk))
    (finished : loadRecords jsoncpp hashing thread values (manager, disk) = (.finished, loaded, after)) :
    after = disk := by
  let invariant (_ : List Json) (current : DataManager) (now : Disk) : Prop :=
    current.Available thread ∧ current.storageFile = manager.storageFile ∧ now = disk
  have kept : invariant [] loaded after := by
    apply loadRecords_induction invariant ?_ ⟨available, rfl, rfl⟩ finished
    rintro value rest info current now next ⟨available, file, rfl⟩ _ inserted
    cases (insert_of_available available info _).symm.trans inserted
    refine ⟨.inl rfl, file, ?_⟩
    rw [file, denied]
  exact kept.2.2

/-- Once a record is loaded, the file holds the records loaded so far. -/
theorem loadRecords_saved (available : manager.Available thread) (usable : disk.Usable manager.storageFile place)
    (some : values ≠ [])
    (finished : loadRecords jsoncpp hashing thread values (manager, disk) = (.finished, loaded, after)) :
    after.Holds manager.storageFile place (jsoncpp.write (rootOf loaded.table.records)) := by
  let invariant (rest : List Json) (current : DataManager) (now : Disk) : Prop :=
    current.Available thread ∧ current.storageFile = manager.storageFile ∧ now.Usable manager.storageFile place ∧
      (rest = [] → now.Holds manager.storageFile place (jsoncpp.write (rootOf current.table.records)))
  have kept : invariant [] loaded after := by
    apply loadRecords_induction invariant ?_ ⟨available, rfl, usable, fun none => absurd none some⟩ finished
    rintro value rest info current now next ⟨available, file, usable, _⟩ _ inserted
    cases (insert_of_available available info now).symm.trans inserted
    obtain ⟨changed, written, holds, usable⟩ :=
      usable.write (jsoncpp.write (rootOf (current.table.set hashing info).records))
    have stored : (FileUtil.setContent now current.storageFile
        (JsonUtil.serialize jsoncpp (rootOf (current.table.set hashing info).records))).2 = changed := by
      simp only [FileUtil.setContent, JsonUtil.serialize, file, written]
    rw [stored]
    exact ⟨.inl rfl, file, usable, fun _ => holds⟩
  exact kept.2.2.2 rfl

theorem loadRecords_length (available : manager.Available thread)
    (finished : loadRecords jsoncpp hashing thread values (manager, disk) = (.finished, loaded, after)) :
    loaded.table.records.length ≤ manager.table.records.length + values.length := by
  let invariant (rest : List Json) (current : DataManager) (_ : Disk) : Prop :=
    current.Available thread ∧
      current.table.records.length + rest.length ≤ manager.table.records.length + values.length
  have kept : invariant [] loaded after := by
    apply loadRecords_induction invariant ?_ ⟨available, Nat.le_refl _⟩ finished
    rintro value rest info current now next ⟨available, bound⟩ _ inserted
    cases (insert_of_available available info now).symm.trans inserted
    have one : (current.table.set hashing info).records.length ≤ current.table.records.length + 1 :=
      Table.length_set_le
    refine ⟨.inl rfl, ?_⟩
    simp only [List.length_cons] at bound ⊢
    omega
  exact kept.2

/-- The file holds these records, in some order. -/
def Decodes (jsoncpp : Jsoncpp) (disk : Disk) (file : Bytes) (records : List StorageInfo) : Prop :=
  ∃ body others, FileUtil.getContent disk file = .ok (some body) ∧ (jsoncpp.read body).2 = rootOf others ∧
    others.Perm records

theorem length_of_rootOf {records others : List StorageInfo} (same : rootOf records = rootOf others) :
    records.length = others.length := by
  have sizes := congrArg Json.size same
  have size (records : List StorageInfo) : (rootOf records).size = records.length := by
    unfold rootOf
    split
    next none => subst none; rfl
    next => exact List.length_map _
  rwa [size, size] at sizes

/-- With one record loaded and one to come, the file no longer holds them all. -/
theorem not_decodes_of_loaded {records : List StorageInfo} {k : Nat} (new : manager.table = .empty)
    (available : manager.Available thread) (usable : disk.Usable manager.storageFile place) (started : 0 < k)
    (early : k < records.length)
    (stopped : loadRecords jsoncpp hashing thread ((records.map StorageInfo.toJson).take k) (manager, disk) =
      (.finished, loaded, after))
    (lossless : (jsoncpp.read (jsoncpp.write (rootOf loaded.table.records))).2 = rootOf loaded.table.records)
    (short : (jsoncpp.write (rootOf loaded.table.records)).length ≤ stringMaxSize) :
    ¬ Decodes jsoncpp after manager.storageFile records := by
  rintro ⟨body, others, read, decoded, perm⟩
  have length : ((records.map StorageInfo.toJson).take k).length = k := by
    rw [List.length_take, List.length_map]
    omega
  have some : (records.map StorageInfo.toJson).take k ≠ [] := by
    apply List.ne_nil_of_length_pos
    omega
  have bound := loadRecords_length available stopped
  cases ((loadRecords_saved available usable some stopped).getContent short).symm.trans read
  have sizes := length_of_rootOf (lossless.symm.trans decoded)
  have none : Table.empty.records.length = 0 := rfl
  rw [perm.length_eq] at sizes
  rw [length, new] at bound
  omega

/-- When `InitLoad` is stopped after some of the records, all of them are still in the file
exactly when it had inserted none, or may not write the file. It is in the same place when
the next record throws. -/
theorem interrupted_iff {write : Bool} {file : File} {records : List StorageInfo} (new : manager.table = .empty)
    (free : manager.rwlock = none) (located : disk.locate manager.storageFile = .ok place)
    (found : disk.tree[place]? = some (.file true write file)) (ample : disk.room place = none)
    (small : file.content.length ≤ stringMaxSize) (encodes : (jsoncpp.read file.content).2 = rootOf records)
    {k : Nat} (early : k < records.length)
    (stopped : loadRecords jsoncpp hashing thread ((records.map StorageInfo.toJson).take k) (manager, disk) =
      (.finished, loaded, after))
    (lossless : (jsoncpp.read (jsoncpp.write (rootOf loaded.table.records))).2 = rootOf loaded.table.records)
    (short : (jsoncpp.write (rootOf loaded.table.records)).length ≤ stringMaxSize) :
    (Decodes jsoncpp after manager.storageFile records ↔ k = 0 ∨ write = false) ∧
      ∀ fault, StorageInfo.ofJson records[k].toJson = .error fault →
        manager.initLoad jsoncpp hashing thread disk = (.thrown fault, loaded, after) := by
  have available : manager.Available thread := .inl free
  have holds : disk.Holds manager.storageFile place file.content := ⟨located, write, file, found, rfl⟩
  have untouched (same : after = disk) : Decodes jsoncpp after manager.storageFile records := by
    subst same
    exact ⟨file.content, records, holds.getContent small, encodes, .refl _⟩
  refine ⟨⟨fun decodes => ?_, fun safe => ?_⟩, fun fault thrown => ?_⟩
  · by_contra rewritten
    obtain ⟨started, writable⟩ := not_or.mp rewritten
    have usable : disk.Usable manager.storageFile place :=
      ⟨located, ample, .inl ⟨file, by rw [found, Bool.eq_true_of_not_eq_false writable]⟩⟩
    exact not_decodes_of_loaded new available usable (Nat.pos_of_ne_zero started) early stopped lossless short decodes
  · rcases safe with rfl | rfl
    · cases stopped
      exact untouched rfl
    · apply untouched
      apply loadRecords_denied available ?_ stopped
      intro content
      simp [FileUtil.setContent, Disk.write, bind, Except.bind, located, FileTree.Tree.put, found]
  · have split : records.map StorageInfo.toJson =
        (records.map StorageInfo.toJson).take k ++
          records[k].toJson :: (records.map StorageInfo.toJson).drop (k + 1) := by
      conv_lhs => rw [← List.take_append_drop k (records.map StorageInfo.toJson)]
      rw [List.drop_eq_getElem_cons (by simpa using early), List.getElem_map]
    rw [initLoad_of_holds holds small encodes, split, loadRecords_append stopped]
    simp only [loadRecords, thrown]

def bothText : Bytes :=
  ascii "[\n\t" ++ Operation.sampleText (ascii "f") 3 ++ ascii ",\n\t" ++ Operation.sampleText (ascii "g") 4 ++ ascii "\n]"

def both : List StorageInfo := [Operation.sample (ascii "f") 3, Operation.sample (ascii "g") 4]

/-- The library on the files that occur while the two records are loaded. -/
def twoRecords : Jsoncpp where
  write
    | .null => ascii "null"
    | value => (Operation.oneRecord 3).write value
  read body :=
    if body = bothText then (true, rootOf both)
    else if body = ascii "null" then (true, .null)
    else (Operation.oneRecord 3).read body

def indexed : Disk :=
  { Disk.fresh [ascii "srv"] with
    tree := (Disk.fresh [ascii "srv"]).tree.insert [ascii "srv", ascii "storage.data"] (.file true true ⟨bothText, 9, 9⟩) }

private theorem found_indexed : indexed.tree[[ascii "srv", ascii "storage.data"]]? =
    some (.file true true ⟨bothText, 9, 9⟩) :=
  Std.ExtTreeMap.getElem?_insert_self

private theorem small_bothText : bothText.length ≤ stringMaxSize := by decide

private theorem read_bothText : (twoRecords.read bothText).2 = rootOf both := by
  simp only [twoRecords, if_true]

theorem interrupted_at_start :
    Decodes twoRecords indexed (ascii "./storage.data") both := by
  have read_null : (twoRecords.read (ascii "null")).2 = rootOf [] := by
    have other : ascii "null" ≠ bothText := by decide
    simp only [twoRecords, other, if_true, if_false]
    rfl
  exact (@interrupted_iff twoRecords ⟨id, fun _ => .refl _⟩ 1 { storageFile := ascii "./storage.data" }
    { storageFile := ascii "./storage.data" } indexed indexed [ascii "srv", ascii "storage.data"] true _ _ rfl rfl rfl
    found_indexed rfl small_bothText read_bothText 0 (by decide) rfl read_null (by decide)).1.mpr (.inl rfl)

/-- Stopped after the first of two records, `InitLoad` has left the first one only. -/
theorem interrupted_after_first :
    Decodes twoRecords indexed (ascii "./storage.data") both ∧
      ∃ loaded after, loadRecords twoRecords ⟨id, fun _ => .refl _⟩ 1 ((both.map StorageInfo.toJson).take 1)
          ({ storageFile := ascii "./storage.data" }, indexed) = (.finished, loaded, after) ∧
        ¬ Decodes twoRecords after (ascii "./storage.data") both := by
  have holds : indexed.Holds (ascii "./storage.data") [ascii "srv", ascii "storage.data"] bothText :=
    ⟨rfl, true, _, found_indexed, rfl⟩
  have usable : indexed.Usable (ascii "./storage.data") [ascii "srv", ascii "storage.data"] :=
    ⟨rfl, rfl, .inl ⟨_, found_indexed⟩⟩
  refine ⟨⟨bothText, both, holds.getContent small_bothText, read_bothText, .refl _⟩, ?_⟩
  have fresh : Available 1 { storageFile := ascii "./storage.data" } := .inl rfl
  have writable : (Operation.sample (ascii "f") 3).Writable := ⟨by decide, by decide, by decide⟩
  have fits : (Operation.sample (ascii "f") 3).FitsInt := ⟨by decide, by decide, by decide⟩
  obtain ⟨loaded, after, stopped, table⟩ := @loadRecords_fits twoRecords ⟨id, fun _ => .refl _⟩ 1 _ indexed
    [Operation.sample (ascii "f") 3] fresh (List.forall_mem_singleton.mpr writable) (List.forall_mem_singleton.mpr fits)
  have taken : (both.map StorageInfo.toJson).take 1 = [Operation.sample (ascii "f") 3].map StorageInfo.toJson := rfl
  have records : loaded.table.records = [Operation.sample (ascii "f") 3] := congrArg Table.records table
  rw [← taken] at stopped
  refine ⟨loaded, after, stopped, @not_decodes_of_loaded twoRecords ⟨id, fun _ => .refl _⟩ 1
    { storageFile := ascii "./storage.data" } loaded indexed after _ both 1 rfl fresh usable Nat.one_pos (by decide)
    stopped ?_ ?_⟩
  · have others : (Operation.oneRecord 3).write .null ≠ bothText ∧ (Operation.oneRecord 3).write .null ≠ ascii "null" := by
      decide
    have text : twoRecords.write (rootOf [Operation.sample (ascii "f") 3]) = (Operation.oneRecord 3).write .null := rfl
    rw [records, text]
    simp only [twoRecords, others, if_false]
    rfl
  · rw [records]
    exact (by decide : ((Operation.oneRecord 3).write .null).length ≤ stringMaxSize)

end DataManager

end HttpFramework.Storage
