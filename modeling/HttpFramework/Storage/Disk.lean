import HttpFramework.Cpp
import HttpFramework.Library.FileTree

/-! The file system as the storage service uses it: paths are resolved from the working
directory, and the functions of the C and C++ libraries report failures in their own ways. -/

namespace HttpFramework.Storage
open FileTree

structure File where
  content : Bytes
  mtime : Int
  atime : Int

abbrev Place := List Bytes

instance : Std.TransOrd Place := inferInstance

/-- `room` is how many bytes the medium takes at a place, when it does not take them all. -/
structure Disk where
  tree : Tree Bytes File
  cwd : Place
  now : Int := 0
  room : Place → Option Nat := fun _ => none

structure Stat where
  size : Nat
  mtime : Int
  atime : Int

def component (name : Bytes) : Component Bytes :=
  if name = [] ∨ name = ascii "." then .here
  else if name = ascii ".." then .up
  else .child name

def components (path : Bytes) : List (Component Bytes) := (path.splitOn (chr '/')).map component

namespace Disk

/-- A disk with nothing on it but the way to the working directory. -/
def fresh (cwd : Place) : Disk where
  tree := cwd.inits.foldl (fun tree place => tree.insert place (.directory true true)) ∅
  cwd := cwd

def origin (disk : Disk) (path : Bytes) : Place := if path.head? = some (chr '/') then [] else disk.cwd

/-- Where a path leads once its dots are resolved, whatever stands on the way. -/
def resolve (disk : Disk) (path : Bytes) : Place :=
  FileTree.resolve (disk.origin (cString path)) (components (cString path))

/-- The place that a path leads to. The system sees the path up to its first NUL. -/
def locate (disk : Disk) (path : Bytes) : Except Failure Place :=
  if cString path = [] then .error .missing
  else disk.tree.walk (disk.origin (cString path)) (components (cString path))

def node (disk : Disk) (path : Bytes) : Except Failure (Node File) := do
  let place ← disk.locate path
  match disk.tree[place]? with
  | some node => .ok node
  | none => .error .missing

/-- The size of a directory says nothing about what it holds. -/
def stat (disk : Disk) (path : Bytes) : Except Failure Stat :=
  (disk.node path).map fun
    | .directory _ _ => ⟨4096, disk.now, disk.now⟩
    | .file _ _ file => ⟨file.content.length, file.mtime, file.atime⟩

/-- `open` with `O_RDONLY`, which a directory allows. The result is what can be read. -/
def openRead (disk : Disk) (path : Bytes) : Except Failure (Option Bytes) := do
  match ← disk.node path with
  | .directory search _ => if search then .ok none else .error .denied
  | .file read _ file => if read then .ok (some file.content) else .error .denied

/-- A file opened for writing loses its content, and keeps as much of the new content as
the medium takes. The time of access is set for a file that was not there. -/
def write (disk : Disk) (path content : Bytes) : Except Failure Disk := do
  let place ← disk.locate path
  let stored := content.take ((disk.room place).getD content.length)
  let tree ← disk.tree.put place fun old => ⟨stored, disk.now, (old.map File.atime).getD disk.now⟩
  return { disk with tree }

/-- `remove` of the C library. Its result is not looked at. -/
def remove (disk : Disk) (path : Bytes) : Disk :=
  match disk.locate path with
  | .ok place =>
    match disk.tree.remove place with
    | .ok tree => { disk with tree }
    | .error _ => disk
  | .error _ => disk

/-- `fs::exists`: a name that is not found is no error, anything else is thrown. -/
def exists? (disk : Disk) (path : Bytes) : Except Failure Bool :=
  match disk.node path with
  | .ok _ => .ok true
  | .error .missing | .error .notDirectory => .ok false
  | .error failure => .error failure

/-- `fs::create_directories`, which does not take the empty path. -/
def createDirectories (disk : Disk) (path : Bytes) : Option Failure × Disk :=
  if path = [] then
    (some .missing, disk)
  else
    let made := disk.tree.makeDirectories (disk.origin (cString path)) (components (cString path))
    (made.1, { disk with tree := made.2 })

end Disk

end HttpFramework.Storage
