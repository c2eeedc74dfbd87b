import HttpFramework.Proofs.ETags
import HttpFramework.Storage.Failures

/-! What an upload that reports success has left behind on a medium that fails. `SetContent` returns
true for a stream that is not good, and nobody looks at what `Insert` returns, so the report
says only that the file could be opened. -/

namespace HttpFramework.Storage
open FileTree

namespace Disk

variable {disk changed : Disk} {path other content : Bytes} {place : Place}

def HasFile (disk : Disk) (path content : Bytes) : Prop :=
  ∃ read write file, disk.tree[disk.resolve path]? = some (.file read write file) ∧ file.content = content

theorem HasFile.unique {text : Bytes} (has : disk.HasFile path content) (has' : disk.HasFile path text) : content = text := by
  obtain ⟨_, _, file, found, rfl⟩ := has
  obtain ⟨_, _, file', found', rfl⟩ := has'
  cases found.symm.trans found'
  rfl

theorem hasFile_of_same_place (same : disk.resolve path = disk.resolve other) :
    disk.HasFile path content ↔ disk.HasFile other content := by
  rw [HasFile, HasFile, same]

/-- The two disks have the same directories. -/
structure SameWays (disk changed : Disk) : Prop where
  cwd : changed.cwd = disk.cwd
  forth : disk.tree.Extends changed.tree
  back : changed.tree.Extends disk.tree

theorem SameWays.symm (ways : disk.SameWays changed) : changed.SameWays disk := ⟨ways.cwd.symm, ways.back, ways.forth⟩

theorem SameWays.resolve (ways : disk.SameWays changed) (path : Bytes) : changed.resolve path = disk.resolve path := by
  simp only [Disk.resolve, origin, ways.cwd]

theorem SameWays.locate (ways : disk.SameWays changed) (located : disk.locate path = .ok place) :
    changed.locate path = .ok place := locate_of_extends ways.forth ways.cwd located

theorem sameWays_of_written (written : disk.write path content = .ok changed) : disk.SameWays changed := by
  obtain ⟨place, _, written⟩ := Fallible.bind_ok written
  obtain ⟨tree, done, written⟩ := Fallible.bind_ok written
  cases written
  exact ⟨rfl, Tree.put_extends done, Tree.extends_put done⟩

theorem writable_of_written (written : disk.write path content = .ok changed) : disk.Writable path := write_iff content |>.mp ⟨_, written⟩

/-- A write changes nothing about which files can be opened. -/
theorem writable_iff_of_written (written : disk.write path content = .ok changed) : changed.Writable other ↔ disk.Writable other := by
  have ways := sameWays_of_written written
  obtain ⟨target, located, _, ⟨read, file, stored, _⟩, kept, _, _⟩ := write_spec written
  obtain ⟨target', located', before⟩ := writable_of_written written
  cases located.symm.trans located'
  constructor
  · intro ⟨place, there, allowed⟩
    refine ⟨place, ways.symm.locate there, ?_⟩
    by_cases same : target = place
    · exact same ▸ before
    · rw [kept place same] at allowed
      exact allowed.imp_right fun ⟨missing, writable⟩ => ⟨missing, ways.back.parentWritable writable⟩
  · intro ⟨place, there, allowed⟩
    refine ⟨place, ways.locate there, ?_⟩
    by_cases same : target = place
    · exact .inl ⟨read, file, same ▸ stored⟩
    · rw [kept place same]
      exact allowed.imp_right fun ⟨missing, writable⟩ => ⟨missing, ways.forth.parentWritable writable⟩

end Disk

namespace Outcome

variable {outcome : Outcome} {disk changed : Disk} {path other content : Bytes}

/-- What a stream that opens leaves in the file. -/
def stored (outcome : Outcome) (content : Bytes) : Bytes := content.take (outcome.room.getD content.length)

/-- The whole content is written. -/
def Takes (outcome : Outcome) (content : Bytes) : Prop := ∀ room, outcome.room = some room → content.length ≤ room

theorem stored_eq_iff : outcome.stored content = content ↔ outcome.Takes content := by
  rw [stored, Takes]
  cases outcome.room with
  | none => simp
  | some room => simp

def Opens (outcome : Outcome) (disk : Disk) (path : Bytes) : Prop := outcome.opens = true ∧ disk.Writable path

theorem setContent_refused (refused : ¬ outcome.Opens disk path) : outcome.setContent disk path content = (false, disk) := by
  rw [setContent]
  split
  next opens =>
    split
    next changed written =>
      have writable : (disk.under outcome).Writable path := Disk.writable_of_written written
      exact absurd ⟨opens, writable⟩ refused
    next => rfl
  next => rfl

theorem setContent_opened (opens : outcome.Opens disk path) : ∃ changed, outcome.setContent disk path content = (true, changed) := by
  obtain ⟨written, done⟩ := (@Disk.write_iff (disk.under outcome) path content).mpr opens.2
  exact ⟨_, by rw [setContent, if_pos opens.1, done]⟩

theorem setContent_done (done : outcome.setContent disk path content = (true, changed)) :
    ∃ written, (disk.under outcome).write path content = .ok written ∧ changed = { written with room := disk.room } := by
  rw [setContent] at done
  split at done
  next =>
    split at done
    next written wrote => cases done; exact ⟨written, wrote, rfl⟩
    next => cases done
  next => cases done

section
variable (done : outcome.setContent disk path content = (true, changed))
include done

theorem setContent_hasFile : changed.HasFile path (outcome.stored content) := by
  obtain ⟨written, wrote, rfl⟩ := setContent_done done
  obtain ⟨place, located, _, ⟨read, file, found, same⟩, _, cwd, _⟩ := Disk.write_spec wrote
  refine ⟨read, true, file, ?_, same⟩
  have leads : written.resolve path = place := by
    rw [Disk.resolve_of_locate located]
    exact (Disk.write_changes wrote).resolve path
  exact (congrArg (written.tree[·]?) leads).trans found

theorem hasFile_iff_takes : changed.HasFile path content ↔ outcome.Takes content := by
  have has := setContent_hasFile done
  rw [← stored_eq_iff]
  exact ⟨fun whole => has.unique whole, fun same => same ▸ has⟩

theorem setContent_resolve (other : Bytes) : changed.resolve other = disk.resolve other := by
  obtain ⟨written, wrote, rfl⟩ := setContent_done done
  exact (Disk.write_changes wrote).resolve other

/-- Elsewhere nothing changes. -/
theorem setContent_hasFile_iff {text : Bytes} (apart : disk.resolve path ≠ disk.resolve other) :
    changed.HasFile other text ↔ disk.HasFile other text := by
  rw [Disk.HasFile, Disk.HasFile, setContent_resolve done]
  obtain ⟨written, wrote, rfl⟩ := setContent_done done
  have kept := (Disk.write_changes wrote).kept (disk.resolve other) fun same => apart same.symm
  have kept' : written.tree[disk.resolve other]? = disk.tree[disk.resolve other]? := kept
  simp only [kept']

theorem setContent_opens_iff {other : Bytes} {next : Outcome} : next.Opens changed other ↔ next.Opens disk other := by
  obtain ⟨written, wrote, rfl⟩ := setContent_done done
  have same : written.Writable other ↔ (disk.under outcome).Writable other := Disk.writable_iff_of_written wrote
  exact and_congr_right fun _ => same

end

end Outcome

/-- Two texts that are written one after the other stand in their files afterwards. The second
one may have been there before, and may be the first one itself. -/
structure Failures.Whole (failures : Failures) (disk : Disk) (path table form text : Bytes) : Prop where
  file : disk.resolve path ≠ disk.resolve table → failures.file.Takes form
  index : failures.index.Opens disk table → failures.index.Takes text
  closed : ¬ failures.index.Opens disk table →
    failures.file.Takes form ∧ (disk.resolve path ≠ disk.resolve table → disk.HasFile table text)
  apart : disk.resolve path = disk.resolve table → form = text

section
variable {failures : Failures} {disk changed : Disk} {path table form text : Bytes}

/-- With the second file open, its text is there as far as the medium takes it. -/
theorem Failures.whole_iff_of_opens (done : failures.file.setContent disk path form = (true, changed))
    (opens : failures.index.Opens disk table) :
    (failures.index.setContent changed table text).2.HasFile path form ∧
        (failures.index.setContent changed table text).2.HasFile table text ↔
      failures.Whole disk path table form text := by
  obtain ⟨final, done'⟩ := @Outcome.setContent_opened failures.index changed table text
    ((Outcome.setContent_opens_iff done).mpr opens)
  have places (other : Bytes) : final.resolve other = disk.resolve other :=
    (Outcome.setContent_resolve done' other).trans (Outcome.setContent_resolve done other)
  have second : final.HasFile table text ↔ failures.index.Takes text := Outcome.hasFile_iff_takes done'
  rw [done', second]
  by_cases same : disk.resolve path = disk.resolve table
  · have equal : final.resolve path = final.resolve table := by rw [places, places, same]
    constructor
    · intro ⟨has, takes⟩
      have one := has.unique ((Disk.hasFile_of_same_place equal).mpr (second.mpr takes))
      exact ⟨fun apart => absurd same apart, fun _ => takes, fun closed => absurd opens closed, fun _ => one⟩
    · intro whole
      have takes := whole.index opens
      refine ⟨?_, takes⟩
      rw [whole.apart same]
      exact (Disk.hasFile_of_same_place equal).mpr (second.mpr takes)
  · have other : changed.resolve table ≠ changed.resolve path := by
      rw [Outcome.setContent_resolve done, Outcome.setContent_resolve done]
      exact fun equal => same equal.symm
    rw [Outcome.setContent_hasFile_iff done' other, Outcome.hasFile_iff_takes done]
    constructor
    · intro ⟨first, takes⟩
      exact ⟨fun _ => first, fun _ => takes, fun closed => absurd opens closed, fun equal => absurd equal same⟩
    · intro whole
      exact ⟨whole.file same, whole.index opens⟩

/-- With the second file closed, it stays as the first call has left it. -/
theorem Failures.whole_iff_of_closed (done : failures.file.setContent disk path form = (true, changed))
    (closed : ¬ failures.index.Opens disk table) :
    (failures.index.setContent changed table text).2.HasFile path form ∧
        (failures.index.setContent changed table text).2.HasFile table text ↔
      failures.Whole disk path table form text := by
  have places (other : Bytes) : changed.resolve other = disk.resolve other := Outcome.setContent_resolve done other
  have first : changed.HasFile path form ↔ failures.file.Takes form := Outcome.hasFile_iff_takes done
  rw [Outcome.setContent_refused fun opens => closed ((Outcome.setContent_opens_iff done).mp opens), first]
  by_cases same : disk.resolve path = disk.resolve table
  · have equal : changed.resolve path = changed.resolve table := by rw [places, places, same]
    constructor
    · intro ⟨takes, has⟩
      have one := (first.mpr takes).unique ((Disk.hasFile_of_same_place equal).mpr has)
      exact ⟨fun _ => takes, fun opens => absurd opens closed, fun _ => ⟨takes, fun apart => absurd same apart⟩, fun _ => one⟩
    · intro whole
      have takes := (whole.closed closed).1
      refine ⟨takes, ?_⟩
      rw [← whole.apart same]
      exact (Disk.hasFile_of_same_place equal).mp (first.mpr takes)
  · rw [Outcome.setContent_hasFile_iff done same]
    constructor
    · intro ⟨takes, has⟩
      exact ⟨fun _ => takes, fun opens => absurd opens closed, fun _ => ⟨takes, fun _ => has⟩, fun equal => absurd equal same⟩
    · intro whole
      obtain ⟨takes, has⟩ := whole.closed closed
      exact ⟨takes, has same⟩

theorem Failures.whole_iff (done : failures.file.setContent disk path form = (true, changed)) :
    (failures.index.setContent changed table text).2.HasFile path form ∧
        (failures.index.setContent changed table text).2.HasFile table text ↔
      failures.Whole disk path table form text := by
  by_cases opens : failures.index.Opens disk table
  · exact whole_iff_of_opens done opens
  · exact whole_iff_of_closed done opens

end

section
variable {config : Config} {platform : Platform} {failures : Failures} {directory filename content : Bytes} {server : Server}

theorem Outcome.insert_cases (outcome : Outcome) (jsoncpp : Jsoncpp) (hashing : Hashing) (thread : Thread)
    (info : StorageInfo) (manager : DataManager) (disk : Disk) :
    outcome.insert jsoncpp hashing thread info manager disk = none ∨
      outcome.insert jsoncpp hashing thread info manager disk =
        some ({ manager with rwlock := none, table := manager.table.set hashing info },
          (outcome.setContent disk manager.storageFile
            (JsonUtil.serialize jsoncpp (rootOf (manager.table.set hashing info).records))).2) := by
  by_cases available : manager.Available thread
  · right
    rw [Outcome.insert, DataManager.wrlock_of_available available]
    rfl
  · left
    rw [Outcome.insert, DataManager.wrlock_of_unavailable available]
    rfl

theorem Failures.saveContent_done {disk changed : Disk} {path : Bytes}
    (done : failures.saveContent config platform disk path content = (true, changed)) :
    failures.file.setContent disk path (storedContent config platform path content) = (true, changed) := by
  rw [Failures.saveContent] at done
  rw [storedContent]
  split at done
  next low => rwa [if_pos low]
  next deep =>
    rw [if_neg deep]
    rw [Outcome.compress] at done
    split at done
    next => cases done
    next => exact done

/-- The record that an upload leaves when its file is written with this outcome. -/
def Failures.recordOf (failures : Failures) (config : Config) (server : Server) (path form : Bytes) : StorageInfo :=
  writtenInfo config (server.disk.under failures.file) path form

/-- The text that the file of the table should have afterwards. -/
def Failures.tableText (failures : Failures) (config : Config) (platform : Platform) (server : Server)
    (path form : Bytes) : Bytes :=
  JsonUtil.serialize platform.jsoncpp
    (rootOf (server.manager.table.set platform.hashing (failures.recordOf config server path form)).records)

theorem Failures.newStorageInfo_done {disk changed : Disk} {path form : Bytes} {created : Bool}
    (made : FileUtil.createDirectory server.disk directory = (.ok created, disk))
    (done : failures.file.setContent disk path form = (true, changed)) :
    newStorageInfo config platform changed path = .ok (failures.recordOf config server path form) := by
  obtain ⟨written, wrote, rfl⟩ := Outcome.setContent_done done
  have built : newStorageInfo config platform written path =
      .ok (writtenInfo config (disk.under failures.file) path form) := newStorageInfo_of_written wrote
  have time := Disk.createDirectory_accessTime server.disk directory path
  have now := Disk.createDirectory_now server.disk directory
  rw [made] at time now
  have same : writtenInfo config (disk.under failures.file) path form = failures.recordOf config server path form := by
    have time' : (disk.under failures.file).accessTime path = (server.disk.under failures.file).accessTime path := time
    have now' : (disk.under failures.file).now = (server.disk.under failures.file).now := now
    rw [Failures.recordOf, writtenInfo, writtenInfo, time', now']
    rfl
  rw [← same]
  exact built

/-- Everything that an upload with a report of success has done. -/
theorem Failures.store_accepted
    (success : accepted server (failures.store config platform directory filename content server) = true) :
    ∃ created disk changed, FileUtil.createDirectory server.disk directory = (.ok created, disk) ∧
      failures.file.setContent disk (directory ++ filename) (storedContent config platform (directory ++ filename) content) =
        (true, changed) ∧
      failures.store config platform directory filename content server =
        Server.sendReply
          { server with
            manager :=
              { server.manager with
                rwlock := none
                table := server.manager.table.set platform.hashing (failures.recordOf config server (directory ++ filename)
                  (storedContent config platform (directory ++ filename) content)) }
            disk := (failures.index.setContent changed server.manager.storageFile
              (failures.tableText config platform server (directory ++ filename)
                (storedContent config platform (directory ++ filename) content))).2 }
          { code := 200, reason := ascii "Success" } := by
  rw [Failures.store] at success ⊢
  split at success
  next => simp [accepted, Server.fail] at success
  next created disk made =>
    split at success
    next changed saved =>
      have done := Failures.saveContent_done saved
      refine ⟨created, disk, changed, made, done, ?_⟩
      rw [Failures.record, Failures.newStorageInfo_done made done] at success ⊢
      dsimp only at success ⊢
      rcases failures.index.insert_cases platform.jsoncpp platform.hashing platform.thread
        (failures.recordOf config server (directory ++ filename) (storedContent config platform (directory ++ filename) content))
        server.manager changed with waits | inserted
      · rw [waits] at success
        simp [accepted, Server.wait] at success
      · rw [inserted]
        rfl
    next => simp [accepted, Server.sendReply] at success

/-- What a report of success stands for: the file has the whole content, or its packed form,
and the file of the table has the record. -/
structure Lasting (config : Config) (platform : Platform) (after : Server) (path content : Bytes) : Prop where
  file : after.disk.HasFile path (storedContent config platform path content)
  table : after.disk.HasFile after.manager.storageFile
    (JsonUtil.serialize platform.jsoncpp (rootOf after.manager.table.records))
  entry : ∃ info ∈ after.manager.table.records, info.storagePath = path ∧
    info.url = config.downloadPrefix ++ FileUtil.fileName path

end

/-- The outcome that a disk itself gives to a call at a path. -/
def Disk.outcome (disk : Disk) (path : Bytes) : Outcome where
  room := disk.room (disk.resolve path)

theorem Disk.outcome_write (disk : Disk) (path content : Bytes) :
    (disk.under (disk.outcome path)).write path content =
      (disk.write path content).map (Disk.under (disk.outcome path)) := by
  cases located : disk.locate path with
  | error failure =>
    have located' : (disk.under (disk.outcome path)).locate path = .error failure := located
    simp [Disk.write, bind, Except.bind, Except.map, located, located']
  | ok place =>
    have located' : (disk.under (disk.outcome path)).locate path = .ok place := located
    have room : (disk.under (disk.outcome path)).room place = disk.room place := by
      rw [Disk.resolve_of_locate located]
      rfl
    have tree : (disk.under (disk.outcome path)).tree = disk.tree := rfl
    have now : (disk.under (disk.outcome path)).now = disk.now := rfl
    simp only [Disk.write, bind, Except.bind, located, located', room, tree, now]
    cases disk.tree.put place _ with
    | error failure => rfl
    | ok tree => rfl

theorem Disk.outcome_setContent (disk : Disk) (path content : Bytes) :
    (disk.outcome path).setContent disk path content = FileUtil.setContent disk path content := by
  have opens : (disk.outcome path).opens = true := rfl
  rw [Outcome.setContent, if_pos opens, FileUtil.setContent, Disk.outcome_write]
  cases written : disk.write path content with
  | error failure => rfl
  | ok changed =>
    have room := (Disk.write_changes written).room
    rw [← room]
    rfl

/-- A change that keeps the working directory and the limits keeps the outcomes. -/
theorem Disk.Changes.outcome {disk changed : Disk} {touched : Place → Prop} (changes : disk.Changes touched changed)
    (path : Bytes) : changed.outcome path = disk.outcome path := by
  rw [Disk.outcome, Disk.outcome, changes.room, changes.resolve]

theorem Disk.outcome_insert (jsoncpp : Jsoncpp) (hashing : Hashing) (thread : Thread) (info : StorageInfo)
    (manager : DataManager) (disk : Disk) :
    (disk.outcome manager.storageFile).insert jsoncpp hashing thread info manager disk =
      manager.insert jsoncpp hashing thread info disk := by
  by_cases available : manager.Available thread
  · rw [DataManager.insert_of_available available, ← Disk.outcome_setContent, Outcome.insert,
      DataManager.wrlock_of_available available]
    rfl
  · rw [Outcome.insert, DataManager.insert, DataManager.wrlock_of_unavailable available]
    rfl

/-- On a disk with limits of its own, `Upload` is the upload with the outcomes that it gives. -/
theorem store_eq_failures (config : Config) (platform : Platform) (directory filename content : Bytes) (server : Server) :
    store config platform directory filename content server =
      Failures.store ⟨server.disk.outcome (directory ++ filename), server.disk.outcome server.manager.storageFile⟩ config
        platform directory filename content server := by
  have changes := Disk.createDirectory_changes server.disk directory
  rw [store, Failures.store]
  cases made : FileUtil.createDirectory server.disk directory with
  | mk result disk =>
    rw [made] at changes
    cases result with
    | error fault => rfl
    | ok created =>
      have saved : Failures.saveContent ⟨server.disk.outcome (directory ++ filename), server.disk.outcome server.manager.storageFile⟩
          config platform disk (directory ++ filename) content = saveContent config platform disk (directory ++ filename) content := by
        simp only [Failures.saveContent, saveContent, Outcome.compress, FileUtil.compress, ← changes.outcome, Disk.outcome_setContent]
      have kept := @saveContent_changes config platform disk (directory ++ filename) content
      dsimp only
      rw [saved]
      cases done : saveContent config platform disk (directory ++ filename) content with
      | mk good changed =>
        rw [done] at kept
        cases good with
        | false => rfl
        | true =>
          have outcome : changed.outcome server.manager.storageFile = server.disk.outcome server.manager.storageFile :=
            (kept.outcome _).trans (changes.outcome _)
          dsimp only
          rw [record, Failures.record]
          cases newStorageInfo config platform changed (directory ++ filename) with
          | error fault => rfl
          | ok info =>
            have inserted := Disk.outcome_insert platform.jsoncpp platform.hashing platform.thread info server.manager changed
            rw [outcome] at inserted
            cases result : server.manager.insert platform.jsoncpp platform.hashing platform.thread info changed with
            | none => simp only [inserted, result]
            | some stored => simp only [inserted, result]

end HttpFramework.Storage
