import HttpFramework.Cpp

/-! `RollFileFlush`, which puts the data of each `Flush` into the log file that is open and goes on
to another one when that has become large. The steps are those in which the file operations
succeed. A file is taken with what its stream has not passed on yet. -/

namespace HttpFramework.Mylog

/-- What `localtime_r` makes of the clock, with the year in full. The month counts from 0. -/
structure Tm where
  year : Fin (2 ^ 31)
  mon : Fin 12
  mday : Fin 32
  hour : Fin 24
  min : Fin 60
  sec : Fin 61
deriving DecidableEq, Repr

/-- The numbers in the name of a file, in order. -/
def Tm.fields (t : Tm) : List Nat := [t.year, t.mon + 1, t.mday, t.hour + 1, t.min + 1, t.sec + 1]

/-- The files on the disk, from the oldest. The numbers of files have 64 bits, and at least one of
them is that of a directory. -/
structure LogFiles where
  files : List (Bytes × Bytes) := []
  distinct : (files.map Prod.fst).Nodup := by simp
  few : files.length + 1 < 2 ^ 64 := by decide
deriving DecidableEq

namespace LogFiles

def content? (name : Bytes) (disk : LogFiles) : Option Bytes := disk.files.lookup name

theorem not_mem_of_content? {name : Bytes} {disk : LogFiles} (absent : disk.content? name = none) :
    name ∉ disk.files.map Prod.fst := by
  intro member
  obtain ⟨file, there, rfl⟩ := List.mem_map.mp member
  have different := List.lookup_eq_none_iff.mp absent file there
  simp at different

/-- `fopen` with the mode `ab`. A file that is not there is created, as long as there is a number for it. -/
def fopen (name : Bytes) (disk : LogFiles) : Option LogFiles :=
  if absent : disk.content? name = none then
    if room : disk.files.length + 2 < 2 ^ 64 then
      some {
        files := disk.files ++ [(name, [])]
        distinct := by
          rw [List.map_append, List.map_singleton, ← List.concat_eq_append]
          exact disk.distinct.concat (not_mem_of_content? absent)
        few := by
          rw [List.length_append]
          exact room }
    else none
  else some disk

/-- `fwrite` at the end of the file. No file is longer than `off_t` can tell. -/
def fwrite (name data : Bytes) (disk : LogFiles) : Option LogFiles := do
  let content ← disk.content? name
  if content.length + data.length < 2 ^ 63 then
    some {
      files := disk.files.map fun file => if file.1 = name then (file.1, file.2 ++ data) else file
      distinct := by
        rw [List.map_map, List.map_congr_left]
        · exact disk.distinct
        · intro file _
          dsimp only [Function.comp]
          split <;> rfl
      few := by
        rw [List.length_map]
        exact disk.few }
  else none

end LogFiles

structure RollFileFlush where
  cnt : Nat := 1
  curSize : Nat := 0
  maxSize : Nat
  basename : Bytes
  /-- The name of the file that is open. -/
  fs : Option Bytes := none
deriving DecidableEq, Repr

namespace RollFileFlush

/-- The name, for a value of the counter. -/
def fileName (basename : Bytes) (t : Tm) (cnt : Nat) : Bytes :=
  basename ++ t.fields.flatMap decimal ++ ascii "-" ++ decimal cnt ++ ascii ".log"

def createFilename (t : Tm) (roll : RollFileFlush) : Bytes × RollFileFlush :=
  (fileName roll.basename t roll.cnt, { roll with cnt := (roll.cnt + 1) % 2 ^ 64 })

def initLogFile (t : Tm) (roll : RollFileFlush) (disk : LogFiles) : Option (RollFileFlush × LogFiles) :=
  if roll.fs = none ∨ roll.curSize ≥ roll.maxSize then do
    let (filename, roll) := roll.createFilename t
    let disk ← disk.fopen filename
    return ({ roll with fs := some filename, curSize := 0 }, disk)
  else some (roll, disk)

def flush (t : Tm) (data : Bytes) (roll : RollFileFlush) (disk : LogFiles) : Option (RollFileFlush × LogFiles) := do
  let (roll, disk) ← roll.initLogFile t disk
  let disk ← disk.fwrite (← roll.fs) data
  return ({ roll with curSize := (roll.curSize + data.length) % 2 ^ 64 }, disk)

end RollFileFlush

end HttpFramework.Mylog
