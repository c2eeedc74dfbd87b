import HttpFramework.Code.HttpRequest
import HttpFramework.Storage.Disk

/-! `HttpResponse` of the web server: the status, the header and the file that goes with them.
The response writes to the buffer with `Append` only, so what is modelled is the texts it appends,
in their order. The files do not change while a response is made. -/

namespace HttpFramework.Code

/-- The file system with what `stat` tells of the mode of a file. -/
structure Files where
  disk : Storage.Disk
  /-- The bit `S_IROTH` of what a path leads to. -/
  othersRead : Bytes → Bool
  /-- `mmap` of what a path leads to fails for want of memory. -/
  mapFails : Bytes → Bool := fun _ => false

/-- What the response reads of a `struct stat`. -/
structure FileStat where
  isDir : Bool := false
  othersRead : Bool := false
  size : Nat := 0
deriving DecidableEq

namespace Files

def stat (files : Files) (path : Bytes) : Option FileStat :=
  match files.disk.node path with
  | .ok (.directory _ _) => some { isDir := true, othersRead := files.othersRead path, size := 4096 }
  | .ok (.file _ _ file) => some { othersRead := files.othersRead path, size := file.content.length }
  | .error _ => none

/-- What `open` makes readable; a directory is opened as well, but has nothing to be read. -/
def openRead (files : Files) (path : Bytes) : Option (Option Bytes) :=
  match files.disk.openRead path with
  | .ok content => some content
  | .error _ => none

/-- `mmap` of a file that has been opened. It maps neither a directory nor nothing. -/
def mmap (files : Files) (path : Bytes) (size : Nat) (content : Option Bytes) : Option Bytes :=
  if size = 0 ∨ files.mapFails path then none else content.map (·.take size)

end Files

structure HttpResponse where
  code : Int := -1
  isKeepAlive : Bool := false
  path : Bytes := []
  srcDir : Bytes := []
  mmFile : Option Bytes := none
  mmFileStat : FileStat := {}

namespace HttpResponse

def SUFFIX_TYPE : List (Bytes × Bytes) :=
  [(ascii ".html", ascii "text/html"),
   (ascii ".xml", ascii "text/xml"),
   (ascii ".xhtml", ascii "application/xhtml+xml"),
   (ascii ".txt", ascii "text/plain"),
   (ascii ".rtf", ascii "application/rtf"),
   (ascii ".pdf", ascii "application/pdf"),
   (ascii ".word", ascii "application/nsword"),
   (ascii ".png", ascii "image/png"),
   (ascii ".gif", ascii "image/gif"),
   (ascii ".jpg", ascii "image/jpeg"),
   (ascii ".jpeg", ascii "image/jpeg"),
   (ascii ".au", ascii "audio/basic"),
   (ascii ".mpeg", ascii "video/mpeg"),
   (ascii ".mpg", ascii "video/mpeg"),
   (ascii ".avi", ascii "video/x-msvideo"),
   (ascii ".gz", ascii "application/x-gzip"),
   (ascii ".tar", ascii "application/x-tar"),
   (ascii ".css", ascii "text/css "),
   (ascii ".js", ascii "text/javascript ")]

def CODE_STATUS : List (Int × Bytes) :=
  [(200, ascii "OK"), (400, ascii "Bad Request"), (403, ascii "Forbidden"), (404, ascii "Not Found")]

def CODE_PATH : List (Int × Bytes) := [(400, ascii "/400.html"), (403, ascii "/403.html"), (404, ascii "/404.html")]

/-- `Init`. A mapping that is still there is given up. -/
def init (srcDir path : Bytes) (isKeepAlive : Bool) (code : Int) : Except Fault HttpResponse :=
  if srcDir = [] then .error (.failed .asserted) else .ok { code, isKeepAlive, path, srcDir }

def fileLen (response : HttpResponse) : Nat := response.mmFileStat.size

/-- The name that is given to `stat` and `open`. -/
def fileName (response : HttpResponse) : Bytes := response.srcDir ++ response.path

/-- `stat` writes to `mmFileStat_` only when it succeeds. -/
def statFile (files : Files) (response : HttpResponse) : HttpResponse :=
  { response with mmFileStat := (files.stat response.fileName).getD response.mmFileStat }

/-- The first part of `MakeResponse`, which settles the code. -/
def chooseCode (files : Files) (response : HttpResponse) : HttpResponse :=
  let failed := (files.stat response.fileName).isNone
  let response := response.statFile files
  if failed ∨ response.mmFileStat.isDir then { response with code := 404 }
  else if ¬ response.mmFileStat.othersRead then { response with code := 403 }
  else if response.code = -1 then { response with code := 200 }
  else response

def errorHtml (files : Files) (response : HttpResponse) : HttpResponse :=
  match CODE_PATH.lookup response.code with
  | some path => ({ response with path } : HttpResponse).statFile files
  | none => response

def addStateLine (response : HttpResponse) : HttpResponse × List Bytes :=
  match CODE_STATUS.lookup response.code with
  | some status => (response, [ascii "HTTP/1.1 " ++ decimalInt response.code ++ ascii " " ++ status ++ CRLF])
  | none => ({ response with code := 400 }, [ascii "HTTP/1.1 " ++ decimalInt 400 ++ ascii " " ++ ascii "Bad Request" ++ CRLF])

def getFileType (response : HttpResponse) : Bytes :=
  if response.path.contains (chr '.') then
    let suffix := chr '.' :: (response.path.reverse.takeWhile (· != chr '.')).reverse
    (SUFFIX_TYPE.lookup suffix).getD (ascii "text/plain")
  else
    ascii "text/plain"

def addHeader (response : HttpResponse) : List Bytes :=
  [ascii "Connection: "] ++
    (if response.isKeepAlive then [ascii "keep-alive" ++ CRLF, ascii "keep-alive: max=6, timeout=120" ++ CRLF]
      else [ascii "close" ++ CRLF]) ++
    [ascii "Content-type: " ++ response.getFileType ++ CRLF]

def errorContent (response : HttpResponse) (message : Bytes) : List Bytes :=
  let status := (CODE_STATUS.lookup response.code).getD (ascii "Bad Request")
  let body := ascii "<html><title>Error</title>" ++ ascii "<body bgcolor=\"ffffff\">" ++
    decimalInt response.code ++ ascii " : " ++ status ++ ascii "\n" ++ ascii "<p>" ++ message ++ ascii "</p>" ++
    ascii "<hr><em>TinyWebServer</em></body></html>"
  [ascii "Content-length: " ++ decimal body.length ++ CRLF ++ CRLF, body]

/-- `*mmRet == -1`: the first bytes of the mapping as an `int`. A mapping has whole pages, filled up with zeros. -/
def startsWithMinusOne (mapped : Bytes) : Bool := (mapped ++ [0, 0, 0, 0]).take 4 = [255, 255, 255, 255]

/-- A mapping that has failed is read all the same, at an address where nothing is. -/
def addContent (files : Files) (response : HttpResponse) : Except Fault (HttpResponse × List Bytes) :=
  match files.openRead response.fileName with
  | none => .ok (response, response.errorContent (ascii "File NotFound!"))
  | some content =>
    match files.mmap response.fileName response.fileLen content with
    | none => .error .outside
    | some mapped =>
      if startsWithMinusOne mapped then .ok (response, response.errorContent (ascii "File NotFound!"))
      else .ok ({ response with mmFile := some mapped }, [ascii "Content-length: " ++ decimal response.fileLen ++ CRLF ++ CRLF])

/-- `MakeResponse`, with the texts that it appends. -/
def makeResponse (files : Files) (response : HttpResponse) : Except Fault (HttpResponse × List Bytes) := do
  let response := (response.chooseCode files).errorHtml files
  let (response, stateLine) := response.addStateLine
  let (made, content) ← response.addContent files
  return (made, stateLine ++ response.addHeader ++ content)

def unmapFile (response : HttpResponse) : HttpResponse := { response with mmFile := none }

end HttpResponse

end HttpFramework.Code
