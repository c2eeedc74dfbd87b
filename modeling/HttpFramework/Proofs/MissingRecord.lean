import HttpFramework.Proofs.Replies

/-! A download of something that was never stored. `Download` does not look at what the lookup
returns and goes on with a record that nothing has set. Its path is empty, so that the file
to send becomes the directory of the low storage itself: it can be opened, and it is removed
when the reply has been sent. -/

namespace HttpFramework.Storage
open FileTree

namespace Disk

variable {disk changed : Disk} {path : Bytes}

/-- There is nothing to unpack under the empty path. -/
theorem unCompress_empty (bundle : Bundle) (disk : Disk) (downloadPath : Bytes) :
    FileUtil.unCompress bundle disk [] downloadPath = .ok (false, disk) := by
  have closed : disk.openRead [] = .error .missing := rfl
  have size : FileUtil.fileSize disk [] = -1 := rfl
  have content : FileUtil.getContent disk [] = .ok none := by
    rw [FileUtil.getContent, FileUtil.getPosLen, size, closed]
    split <;> rfl
  rw [FileUtil.unCompress, content]
  rfl

theorem exists?_of_open {source : Option Bytes} (opened : disk.openRead path = .ok source) :
    FileUtil.exists? disk path = .ok true := by
  obtain ⟨node, found, _⟩ := Fallible.bind_ok opened
  simp [FileUtil.exists?, exists?, found, Except.mapError]

theorem exists?_of_locate {place : Place} (located : disk.locate path = .ok place) :
    ∃ found, FileUtil.exists? disk path = .ok found := by
  cases found : disk.tree[place]? with
  | none => exact ⟨false, by simp [FileUtil.exists?, exists?, node, bind, Except.bind, located, found, Except.mapError]⟩
  | some node => exact ⟨true, by simp [FileUtil.exists?, exists?, Disk.node, bind, Except.bind, located, found, Except.mapError]⟩

/-- A directory that was there, or has been made, can be looked for. -/
theorem exists?_of_createDirectory {created : Bool} (made : FileUtil.createDirectory disk path = (.ok created, changed)) :
    ∃ found, FileUtil.exists? changed path = .ok found := by
  rw [FileUtil.createDirectory] at made
  split at made
  next => cases made
  next present => cases made; exact ⟨true, present⟩
  next absent =>
    split at made
    next directory created' =>
      cases made
      rw [createDirectories] at created'
      split at created'
      next => cases created'
      next =>
        obtain ⟨complete, rfl⟩ := Prod.mk.inj created'
        by_cases empty : cString path = []
        · refine ⟨false, ?_⟩
          simp [FileUtil.exists?, exists?, node, bind, Except.bind, locate, empty, Except.mapError]
        · obtain ⟨target, walked⟩ := Tree.makeDirectories_walk complete
          exact exists?_of_locate ((if_neg empty).trans walked)
    next => cases made

end Disk

variable {config : Config} {platform : Platform}

def Reply.Successful (reply : Reply) : Prop := 200 ≤ reply.code ∧ reply.code < 300

/-- Nothing has changed but that the storage directories, and directories on the way to
them, may have been made. -/
def OnlyDirectories (config : Config) (before after : Disk) : Prop :=
  ∀ place, after.tree[place]? = before.tree[place]? ∨
    before.tree[place]? = none ∧ after.tree[place]? = some (.directory true true) ∧
      (before.OnTheWay config.lowStorageDir place ∨ before.OnTheWay config.deepStorageDir place)

/-- There is an answer, it is none of success, and no file is touched. -/
structure Refuses (config : Config) (before after : Server) : Prop where
  answer : ∃ replies, replies ≠ [] ∧ after.replies = before.replies ++ replies ∧ ∀ reply ∈ replies, ¬ reply.Successful
  disk : OnlyDirectories config before.disk after.disk

/-- The name of the low storage is empty, or its directory is there, or can be made, and
cannot be opened. -/
def LowStorageClosed (config : Config) (disk : Disk) : Prop :=
  config.lowStorageDir = [] ∨
    ∃ created made failure, FileUtil.createDirectory disk config.lowStorageDir = (.ok created, made) ∧
      made.openRead config.lowStorageDir = .error failure

/-- Every reply to a file that cannot be opened is a refusal, also where there are two. -/
theorem sendDownload_refuses {server : Server} {info : StorageInfo} {downloadPath : Bytes} {failure : Failure}
    (looked : ∃ found, FileUtil.exists? server.disk downloadPath = .ok found)
    (closed : server.disk.openRead downloadPath = .error failure) (request : Request) :
    ∃ replies, replies ≠ [] ∧ (∀ reply ∈ replies, ¬ reply.Successful) ∧
      sendDownload platform request info downloadPath server = { server with replies := server.replies ++ replies } := by
  obtain ⟨found, looked⟩ := looked
  rw [sendDownload, looked]
  cases found with
  | true =>
    refine ⟨[{ code := 500, reason := platform.strerror failure }], List.cons_ne_nil _ _, by simp [Reply.Successful], ?_⟩
    simp [sendFile, closed, Server.sendReply]
  | false =>
    let last : Reply := { code := 404, reason := cString (downloadPath ++ ascii "not exists") }
    dsimp only
    split
    next =>
      refine ⟨[{ code := 500 }, last], List.cons_ne_nil _ _, by simp [Reply.Successful, last], ?_⟩
      simp [Server.sendReply, last]
    next =>
      split
      next => exact ⟨[last], List.cons_ne_nil _ _, by simp [Reply.Successful, last], rfl⟩
      next =>
        refine ⟨[{ code := 400, reason := ascii "file not exists" }, last], List.cons_ne_nil _ _, ?_, ?_⟩
        · simp [Reply.Successful, last]
        · simp [Server.sendReply, last]

theorem not_refuses_of_unanswered {before after : Server} (same : after.replies = before.replies) :
    ¬ Refuses config before after := by
  intro ⟨⟨replies, nonempty, added, _⟩, _⟩
  rw [same] at added
  exact nonempty (List.append_right_eq_self.mp added.symm)

theorem not_refuses_of_success {before after : Server} {reply : Reply} (sent : after.replies = before.replies ++ [reply])
    (successful : reply.Successful) : ¬ Refuses config before after := by
  intro ⟨⟨replies, _, added, refused⟩, _⟩
  have only : [reply] = replies := List.append_cancel_left (sent.symm.trans added)
  exact refused reply (only ▸ List.mem_singleton_self _) successful

section
variable {server : Server} {request : Request} {url : Bytes} {disk : Disk}
variable (decoded : urlDecode request.path = .ok url) (missing : server.manager.table.find? url = none)
variable (available : server.manager.Available platform.thread)
include decoded missing available

theorem download_unnamed (unnamed : config.lowStorageDir = []) :
    download config platform request server =
      sendDownload platform request platform.unset []
        { server with manager := { server.manager with rwlock := some platform.thread } } := by
  have inside : contains [] config.lowStorageDir = true := by simp [contains, unnamed]
  rw [download, decoded]
  dsimp only
  rw [DataManager.getOneByURL_of_available available, missing]
  simp only [Option.getD_none, platform.unset_paths.1, inside, if_true]

theorem download_fault {fault : Fault} (named : config.lowStorageDir ≠ [])
    (failed : FileUtil.createDirectory server.disk config.lowStorageDir = (.error fault, disk)) :
    (download config platform request server).replies = server.replies := by
  have outside : contains [] config.lowStorageDir = false := by simpa [contains] using named
  rw [download, decoded]
  dsimp only
  rw [DataManager.getOneByURL_of_available available, missing]
  simp only [Option.getD_none, platform.unset_paths.1, outside, failed, Bool.false_eq_true, if_false, Server.fail_replies]

/-- With the directory there, it is sent as if it were the file. -/
theorem download_directory {created : Bool} (named : config.lowStorageDir ≠ [])
    (made : FileUtil.createDirectory server.disk config.lowStorageDir = (.ok created, disk)) :
    download config platform request server =
      sendDownload platform request platform.unset config.lowStorageDir
        { server with manager := { server.manager with rwlock := some platform.thread }, disk } := by
  have outside : contains [] config.lowStorageDir = false := by simpa [contains] using named
  have scratch : config.lowStorageDir ++ FileUtil.fileName [] = config.lowStorageDir := List.append_nil _
  rw [download, decoded]
  dsimp only
  rw [DataManager.getOneByURL_of_available available, missing]
  simp only [Option.getD_none, platform.unset_paths.1, outside, made, scratch, Disk.unCompress_empty, Bool.false_eq_true,
    if_false]

theorem refuses_iff_closed :
    Refuses config server (download config platform request server) ↔ LowStorageClosed config server.disk := by
  by_cases named : config.lowStorageDir = []
  · refine iff_of_true ?_ (.inl named)
    have looked : ∃ found, FileUtil.exists? server.disk [] = .ok found := ⟨false, rfl⟩
    let locked := { server with manager := { server.manager with rwlock := some platform.thread } }
    obtain ⟨replies, nonempty, refused, sent⟩ := @sendDownload_refuses platform locked platform.unset [] .missing looked rfl request
    rw [download_unnamed decoded missing available named, sent]
    exact ⟨⟨replies, nonempty, rfl, refused⟩, fun _ => .inl rfl⟩
  · cases outcome : FileUtil.createDirectory server.disk config.lowStorageDir with
    | mk result disk =>
      cases result with
      | error fault =>
        refine iff_of_false (not_refuses_of_unanswered (download_fault decoded missing available named outcome)) ?_
        rintro (unnamed | ⟨created, made, failure, opened, _⟩)
        · exact named unnamed
        · cases outcome.symm.trans opened
      | ok created =>
        have same := download_directory decoded missing available named outcome
        let locked := { server with manager := { server.manager with rwlock := some platform.thread }, disk }
        cases opened : disk.openRead config.lowStorageDir with
        | error failure =>
          refine iff_of_true ?_ (.inr ⟨created, disk, failure, outcome, opened⟩)
          obtain ⟨replies, nonempty, refused, sent⟩ := @sendDownload_refuses platform locked platform.unset _ _
            (Disk.exists?_of_createDirectory outcome) opened request
          rw [same, sent]
          refine ⟨⟨replies, nonempty, rfl, refused⟩, fun place => ?_⟩
          have made := Disk.createDirectory_spec server.disk config.lowStorageDir place
          rw [outcome] at made
          exact made.imp_right fun ⟨absent, way, added⟩ => ⟨absent, added, .inl way⟩
        | ok source =>
          obtain ⟨reply, _, success, sent⟩ := @sendFile_of_open platform locked _ _ opened request platform.unset
          refine iff_of_false ?_ ?_
          · have replies : (download config platform request server).replies = server.replies ++ [reply] := by
              rw [same, sendDownload, Disk.exists?_of_open opened]
              exact congrArg Server.replies sent
            apply not_refuses_of_success replies
            simp only [Reply.Successful]
            omega
          · rintro (unnamed | ⟨created', made, failure, outcome', closed⟩)
            · exact named unnamed
            · cases outcome.symm.trans outcome'
              cases opened.symm.trans closed

end

/-- A service whose directory for the low storage is there, with nothing in it. -/
def Server.prepared (search write : Bool) : Server where
  manager := { storageFile := storageConf.storageInfo }
  disk :=
    let disk := Disk.fresh [ascii "srv"]
    { disk with tree := disk.tree.insert [ascii "srv", ascii "low_storage"] (.directory search write) }

/-- The name of the directory without the slash at its end. -/
def closedConf : Config := { storageConf with lowStorageDir := ascii "./low_storage" }

end HttpFramework.Storage
