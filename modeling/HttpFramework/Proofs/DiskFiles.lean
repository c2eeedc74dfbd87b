import HttpFramework.Library.Fallible
import HttpFramework.Storage.Util

/-! Files on the disk: what is written at a path is read back there, and at no other place
does a write change anything. -/

namespace HttpFramework.Storage
open FileTree

namespace Disk

variable {disk changed : Disk} {path content : Bytes} {place : Place}

/-- A path leads to a file that may be read, with the given content. -/
structure Holds (disk : Disk) (path : Bytes) (place : Place) (content : Bytes) : Prop where
  located : disk.locate path = .ok place
  stored : ∃ write file, disk.tree[place]? = some (.file true write file) ∧ file.content = content

/-- A path leads to a place where a file can be written in full and read again. -/
structure Usable (disk : Disk) (path : Bytes) (place : Place) : Prop where
  located : disk.locate path = .ok place
  ample : disk.room place = none
  open' : (∃ file, disk.tree[place]? = some (.file true true file)) ∨
    disk.tree[place]? = none ∧ disk.tree.parentWritable place

theorem write_spec (written : disk.write path content = .ok changed) :
    ∃ place, disk.locate path = .ok place ∧ disk.tree.Extends changed.tree ∧
      (∃ read file, changed.tree[place]? = some (.file read true file) ∧
        file.content = content.take ((disk.room place).getD content.length)) ∧
      (∀ other, place ≠ other → changed.tree[other]? = disk.tree[other]?) ∧
      changed.cwd = disk.cwd ∧ changed.room = disk.room := by
  obtain ⟨place, located, written⟩ := Fallible.bind_ok written
  obtain ⟨tree, done, written⟩ := Fallible.bind_ok written
  cases written
  refine ⟨place, located, Tree.put_extends done, ?_, (Tree.put_spec done).2, rfl, rfl⟩
  rcases Tree.put_cases done with ⟨read, old, _, rfl⟩ | ⟨_, _, rfl⟩
  · exact ⟨read, _, Std.ExtTreeMap.getElem?_insert_self, rfl⟩
  · exact ⟨true, _, Std.ExtTreeMap.getElem?_insert_self, rfl⟩

/-- Directories that stay where they are keep every path where it leads. -/
theorem locate_of_extends (extended : disk.tree.Extends changed.tree) (cwd : changed.cwd = disk.cwd)
    (located : disk.locate path = .ok place) : changed.locate path = .ok place := by
  simp only [locate, origin, cwd] at located ⊢
  split at located
  next => cases located
  next nonempty => exact (if_neg nonempty).trans (extended.walk located)

theorem Usable.write (usable : disk.Usable path place) (content : Bytes) :
    ∃ changed, disk.write path content = .ok changed ∧ changed.Holds path place content ∧
      changed.Usable path place := by
  have put : ∃ file : File, file.content = content ∧
      disk.tree.put place (fun old => ⟨content, disk.now, (old.map File.atime).getD disk.now⟩) =
        .ok (disk.tree.insert place (.file true true file)) := by
    rcases usable.open' with ⟨old, found⟩ | ⟨missing, writable⟩
    · exact ⟨⟨content, disk.now, old.atime⟩, rfl, by simp [Tree.put, found]⟩
    · exact ⟨⟨content, disk.now, disk.now⟩, rfl, by simp [Tree.put, missing, writable]⟩
  obtain ⟨file, same, done⟩ := put
  have written : disk.write path content =
      .ok { disk with tree := disk.tree.insert place (.file true true file) } := by
    simp [Disk.write, bind, Except.bind, pure, Except.pure, usable.located, usable.ample, done]
  have located := @locate_of_extends disk { disk with tree := disk.tree.insert place (.file true true file) } path place
    (Tree.put_extends done) rfl usable.located
  have found : (disk.tree.insert place (.file true true file))[place]? = some (.file true true file) :=
    Std.ExtTreeMap.getElem?_insert_self
  exact ⟨_, written, ⟨located, true, file, found, same⟩, located, usable.ample, .inl ⟨file, found⟩⟩

theorem resolve_of_locate (located : disk.locate path = .ok place) : place = disk.resolve path := by
  simp only [locate] at located
  split at located
  next => cases located
  next => exact Tree.walk_eq_resolve located

/-- A change of the disk that leaves its directories, and every place but some, alone. -/
structure Changes (disk : Disk) (touched : Place → Prop) (changed : Disk) : Prop where
  cwd : changed.cwd = disk.cwd
  room : changed.room = disk.room
  extended : disk.tree.Extends changed.tree
  kept : ∀ place, ¬ touched place → changed.tree[place]? = disk.tree[place]?

namespace Changes

variable {touched wider : Place → Prop} {further : Disk}

theorem refl (disk : Disk) (touched : Place → Prop) : disk.Changes touched disk :=
  ⟨rfl, rfl, fun _ _ _ found => found, fun _ _ => rfl⟩

theorem trans (first : disk.Changes touched changed) (second : changed.Changes touched further) :
    disk.Changes touched further where
  cwd := second.cwd.trans first.cwd
  room := second.room.trans first.room
  extended place search write found := second.extended place search write (first.extended place search write found)
  kept place apart := (second.kept place apart).trans (first.kept place apart)

theorem mono (changes : disk.Changes touched changed) (within : ∀ place, touched place → wider place) :
    disk.Changes wider changed where
  cwd := changes.cwd
  room := changes.room
  extended := changes.extended
  kept place apart := changes.kept place fun inside => apart (within place inside)

theorem locate (changes : disk.Changes touched changed) (located : disk.locate path = .ok place) :
    changed.locate path = .ok place := locate_of_extends changes.extended changes.cwd located

theorem resolve (changes : disk.Changes touched changed) (path : Bytes) : changed.resolve path = disk.resolve path := by
  simp only [Disk.resolve, origin, changes.cwd]

end Changes

theorem setContent_written (done : FileUtil.setContent disk path content = (true, changed)) :
    disk.write path content = .ok changed := by
  rw [FileUtil.setContent] at done
  split at done
  next written => cases done; exact written
  next => cases done

theorem write_changes (written : disk.write path content = .ok changed) :
    disk.Changes (· = disk.resolve path) changed := by
  obtain ⟨place, located, extended, _, kept, cwd, room⟩ := write_spec written
  refine ⟨cwd, room, extended, fun other apart => kept other fun same => apart ?_⟩
  exact same.symm.trans (resolve_of_locate located)

theorem setContent_changes (disk : Disk) (path content : Bytes) :
    disk.Changes (· = disk.resolve path) (FileUtil.setContent disk path content).2 := by
  rw [FileUtil.setContent]
  split
  next changed written => exact write_changes written
  next => exact .refl _ _

def OnTheWay (disk : Disk) (path : Bytes) (place : Place) : Prop :=
  ∃ front, front <+: components (cString path) ∧ place = FileTree.resolve (disk.origin (cString path)) front

theorem createDirectory_spec (disk : Disk) (path : Bytes) (place : Place) :
    (FileUtil.createDirectory disk path).2.tree[place]? = disk.tree[place]? ∨
      disk.tree[place]? = none ∧ disk.OnTheWay path place ∧
        (FileUtil.createDirectory disk path).2.tree[place]? = some (.directory true true) := by
  have made : (disk.createDirectories path).2.tree[place]? = disk.tree[place]? ∨
      disk.tree[place]? = none ∧ disk.OnTheWay path place ∧
        (disk.createDirectories path).2.tree[place]? = some (.directory true true) := by
    rw [createDirectories]
    split
    next => exact .inl rfl
    next =>
      rcases Tree.makeDirectories_spec disk.tree (disk.origin (cString path)) (components (cString path)) place with
        kept | ⟨missing, added, way⟩
      · exact .inl kept
      · exact .inr ⟨missing, way, added⟩
  rw [FileUtil.createDirectory]
  split
  next => exact .inl rfl
  next => exact .inl rfl
  next =>
    split
    next same => rwa [same] at made
    next same => rwa [same] at made

theorem createDirectory_changes (disk : Disk) (path : Bytes) :
    disk.Changes (fun place => disk.tree[place]? = none ∧ disk.OnTheWay path place)
      (FileUtil.createDirectory disk path).2 := by
  have same : (FileUtil.createDirectory disk path).2.cwd = disk.cwd ∧
      (FileUtil.createDirectory disk path).2.room = disk.room := by
    have made : (disk.createDirectories path).2.cwd = disk.cwd ∧ (disk.createDirectories path).2.room = disk.room := by
      rw [createDirectories]
      split <;> exact ⟨rfl, rfl⟩
    rw [FileUtil.createDirectory]
    split
    next => exact ⟨rfl, rfl⟩
    next => exact ⟨rfl, rfl⟩
    next =>
      split
      next same => rwa [same] at made
      next same => rwa [same] at made
  refine ⟨same.1, same.2, fun place search write found => ?_, fun place apart => ?_⟩
  · rcases createDirectory_spec disk path place with kept | ⟨missing, _⟩
    · exact kept.trans found
    · cases missing.symm.trans found
  · rcases createDirectory_spec disk path place with kept | ⟨missing, way, _⟩
    · exact kept
    · exact absurd ⟨missing, way⟩ apart

def Writable (disk : Disk) (path : Bytes) : Prop :=
  ∃ place, disk.locate path = .ok place ∧
    ((∃ read file, disk.tree[place]? = some (.file read true file)) ∨
      disk.tree[place]? = none ∧ disk.tree.parentWritable place)

theorem write_iff (content : Bytes) : (∃ changed, disk.write path content = .ok changed) ↔ disk.Writable path := by
  constructor
  · intro ⟨changed, written⟩
    obtain ⟨place, located, written⟩ := Fallible.bind_ok written
    obtain ⟨tree, done, _⟩ := Fallible.bind_ok written
    refine ⟨place, located, ?_⟩
    rcases Tree.put_cases done with ⟨read, old, found, _⟩ | ⟨missing, writable, _⟩
    · exact .inl ⟨read, old, found⟩
    · exact .inr ⟨missing, writable⟩
  · intro ⟨place, located, allowed⟩
    rcases allowed with ⟨read, file, found⟩ | ⟨missing, writable⟩
    · simp [write, bind, Except.bind, pure, Except.pure, located, Tree.put, found]
    · simp [write, bind, Except.bind, pure, Except.pure, located, Tree.put, missing, writable]

theorem exists?_of_written (written : disk.write path content = .ok changed) :
    FileUtil.exists? changed path = .ok true := by
  obtain ⟨place, located, extended, ⟨read, file, found, _⟩, _, cwd, _⟩ := write_spec written
  simp [FileUtil.exists?, exists?, node, bind, Except.bind, locate_of_extends extended cwd located, found, Except.mapError]

namespace Holds

theorem of_changes {touched : Place → Prop} (holds : disk.Holds path place content) (changes : disk.Changes touched changed)
    (away : ¬ touched place) : changed.Holds path place content := by
  obtain ⟨write, file, found, same⟩ := holds.stored
  exact ⟨changes.locate holds.located, write, file, (changes.kept place away).trans found, same⟩

theorem node (holds : disk.Holds path place content) :
    ∃ write file, disk.node path = .ok (.file true write file) ∧ file.content = content := by
  obtain ⟨write, file, found, same⟩ := holds.stored
  refine ⟨write, file, ?_, same⟩
  simp [Disk.node, bind, Except.bind, holds.located, found]

theorem exists? (holds : disk.Holds path place content) : FileUtil.exists? disk path = .ok true := by
  obtain ⟨write, file, node, _⟩ := holds.node
  simp [FileUtil.exists?, Disk.exists?, node, Except.mapError]

theorem openRead (holds : disk.Holds path place content) : disk.openRead path = .ok (some content) := by
  obtain ⟨write, file, node, same⟩ := holds.node
  simp [Disk.openRead, bind, Except.bind, node, same]

theorem fileSize (holds : disk.Holds path place content) : FileUtil.fileSize disk path = content.length := by
  obtain ⟨write, file, node, same⟩ := holds.node
  simp [FileUtil.fileSize, stat, node, Except.map, same]

theorem getContent (holds : disk.Holds path place content) (small : content.length ≤ stringMaxSize) :
    FileUtil.getContent disk path = .ok (some content) := by
  have size : toSizeT (content.length : Int) = content.length := by
    simp only [toSizeT, stringMaxSize] at small ⊢
    omega
  simp [FileUtil.getContent, FileUtil.getPosLen, holds.fileSize, size, holds.openRead, Nat.not_lt.mpr small,
    Nat.mod_le]

end Holds

end Disk

end HttpFramework.Storage
