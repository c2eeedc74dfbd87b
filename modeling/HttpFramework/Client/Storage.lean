import HttpFramework.Client.DataManage
import HttpFramework.Storage.Service

/-! `my_storage::Storage`, the client that uploads the files of two directories. `RunModule` goes over
the files it has scanned one after the other, while their owner may write to them. `Insert` also writes
the table to its file, which is not read again while the client runs. -/

namespace HttpFramework.Client

structure File where
  content : Bytes
  mtime : Int
deriving DecidableEq, Repr

/-- The text of `GetFileIdentifier`, given what it is told about the file. -/
def identifier (filename : Bytes) (size : Nat) (mtime : Int) : Bytes :=
  FileUtil.fileName filename ++ ascii "-" ++ decimal size ++ ascii "-" ++ decimalInt mtime

def getFileIdentifier (filename : Bytes) (file : File) : Bytes :=
  identifier filename file.content.length file.mtime

/-- How the dispatch of a request ends for `upload_callback`. -/
inductive Outcome where
  | status (code : Int)
  /-- It is called with a null pointer. -/
  | null
  | uncalled
deriving DecidableEq, Repr

/-- With the table of `dm_` and the global flag. -/
structure Uploads where
  table : Dict := ∅
  ifUploadSuccess : Bool := false

namespace Uploads

def uploadCallback (uploads : Uploads) : Outcome → Uploads
  | .status code => { uploads with ifUploadSuccess := code = 200 }
  | .null | .uncalled => uploads

def ifNeedUpload (uploads : Uploads) (now : Int) (filename : Bytes) (file : File) : Bool :=
  uploads.table[filename]? ≠ some (getFileIdentifier filename file) ∧ ¬ now - file.mtime < 5

def insert (uploads : Uploads) (key val : Bytes) : Uploads := { uploads with table := uploads.table.insert key val }

/-- The loop of `RunModule` for one file, when nothing else happens meanwhile. -/
def run (files : Bytes → File) (uploads : Uploads) (now : Int) (a : Bytes) (outcome : Outcome) : Uploads :=
  if uploads.ifNeedUpload now a (files a) then
    let uploads := uploads.uploadCallback outcome
    if uploads.ifUploadSuccess then uploads.insert a (getFileIdentifier a (files a)) else uploads
  else
    uploads

end Uploads

/-- Where `RunModule` stands. -/
inductive Phase where
  | scanning
  /-- `IfNeedUpload` has returned true. -/
  | needed (a : Bytes)
  | sent (a body : Bytes)
  /-- `Upload` has returned. -/
  | returned (a : Bytes)
  | identified (a id : Bytes)
deriving DecidableEq, Repr

structure RunModule where
  uploads : Uploads := {}
  files : Bytes → File
  arry : List Bytes := []
  phase : Phase := .scanning
  /-- The content of a file that the server has last answered with 200. -/
  acknowledged : Bytes → Option Bytes := fun _ => none

namespace RunModule

inductive Action where
  | modify (filename : Bytes) (file : File)
  | scan (found : List Bytes)
  | check (now : Int)
  | read
  | answer (outcome : Outcome)
  | identify
  | insert

/-- A modification is one that changes the identifier. -/
def step (state : RunModule) : Action → Option RunModule
  | .modify filename file =>
    if getFileIdentifier filename file = getFileIdentifier filename (state.files filename) then none
    else some { state with files := Function.update state.files filename file }
  | .scan found =>
    if state.phase = .scanning ∧ state.arry = [] then some { state with arry := found } else none
  | .check now =>
    match state.phase, state.arry with
    | .scanning, a :: arry =>
      if state.uploads.ifNeedUpload now a (state.files a) then some { state with arry, phase := .needed a }
      else some { state with arry }
    | _, _ => none
  | .read =>
    match state.phase with
    | .needed a => some { state with phase := .sent a (state.files a).content }
    | _ => none
  | .answer outcome =>
    match state.phase with
    | .sent a body =>
      some { state with
        uploads := state.uploads.uploadCallback outcome
        phase := .returned a
        acknowledged :=
          if outcome = .status 200 then Function.update state.acknowledged a (some body) else state.acknowledged }
    | _ => none
  | .identify =>
    match state.phase with
    | .returned a =>
      if state.uploads.ifUploadSuccess then
        some { state with phase := .identified a (getFileIdentifier a (state.files a)) }
      else
        some { state with phase := .scanning }
    | _ => none
  | .insert =>
    match state.phase with
    | .identified a id => some { state with uploads := state.uploads.insert a id, phase := .scanning }
    | _ => none

end RunModule

/-- What libevent makes of the value of a header on its way to the server: it may refuse to
add it, and it trims what it has read. -/
structure Evhttp where
  received : Bytes → Option Bytes
  trims : ∀ {sent got}, received sent = some got → got.length ≤ sent.length

/-- The headers that `Upload` adds. -/
def outputHeaders (filename : Bytes) : List (Bytes × Bytes) :=
  [(ascii "Host", ascii "127.0.0.1"), (ascii "FileName", cString (FileUtil.fileName filename)),
    (ascii "Content-Type", ascii "application/octet-stream"),
    (ascii "StorageType", if Storage.contains filename (ascii "low_storage") then ascii "low" else ascii "deep")]

/-- The request of `Upload` as the server receives it. -/
def uploadRequest (evhttp : Evhttp) (filename body : Bytes) : Storage.Request where
  path := ascii "/upload"
  headers := (outputHeaders filename).filterMap fun header => (evhttp.received header.2).map (header.1, ·)
  inputBuffer := some { content := body }

end HttpFramework.Client
