import HttpFramework.Storage.Disk

/-! `storage::FileUtil` and the decoders of `Util.hpp` and `base64.cpp`. -/

namespace HttpFramework.Storage

/-- What ends a handler before it returns: a failed assertion or an exception. -/
inductive Fault where
  | assertion
  | logicError
  | lengthError
  | outOfRange
  | runtimeError
  | filesystemError
deriving DecidableEq, Repr

/-- Letters beyond `F` are taken as digits too. -/
def fromHex (x : UInt8) : Except Fault UInt8 :=
  if chr 'A' ≤ x ∧ x ≤ chr 'Z' then .ok (x - chr 'A' + 10)
  else if chr 'a' ≤ x ∧ x ≤ chr 'z' then .ok (x - chr 'a' + 10)
  else if chr '0' ≤ x ∧ x ≤ chr '9' then .ok (x - chr '0')
  else .error .assertion

def urlDecode : Bytes → Except Fault Bytes
  | [] => .ok []
  | [c] => if c = chr '%' then .error .assertion else .ok [c]
  | [c, d] =>
    if c = chr '%' then .error .assertion else do return c :: (← urlDecode [d])
  | c :: d :: e :: rest =>
    if c = chr '%' then do
      let high ← fromHex d
      let low ← fromHex e
      return (high * 16 + low) :: (← urlDecode rest)
    else do
      return c :: (← urlDecode (d :: e :: rest))

def posOfChar (c : UInt8) : Except Fault Nat :=
  if chr 'A' ≤ c ∧ c ≤ chr 'Z' then .ok (c - chr 'A').toNat
  else if chr 'a' ≤ c ∧ c ≤ chr 'z' then .ok ((c - chr 'a').toNat + 26)
  else if chr '0' ≤ c ∧ c ≤ chr '9' then .ok ((c - chr '0').toNat + 52)
  else if c = chr '+' ∨ c = chr '-' then .ok 62
  else if c = chr '/' ∨ c = chr '_' then .ok 63
  else .error .runtimeError

/-- A group of four characters. The last two may be padding, or missing at the end. -/
def decodeGroup (a b : UInt8) (c d : Option UInt8) : Except Fault Bytes := do
  let second ← posOfChar b
  let first ← posOfChar a
  let byte := UInt8.ofNat (first * 4 + second / 16)
  match c with
  | none => return [byte]
  | some c =>
    if c = chr '=' ∨ c = chr '.' then return [byte]
    else
      let third ← posOfChar c
      let next := UInt8.ofNat (second % 16 * 16 + third / 4)
      match d with
      | none => return [byte, next]
      | some d =>
        if d = chr '=' ∨ d = chr '.' then return [byte, next]
        else return [byte, next, UInt8.ofNat (third % 4 * 64 + (← posOfChar d))]

/-- A single character at the end is read past. -/
def base64Decode : Bytes → Except Fault Bytes
  | [] => .ok []
  | [_] => .error .outOfRange
  | [a, b] => decodeGroup a b none none
  | [a, b, c] => decodeGroup a b (some c) none
  | a :: b :: c :: d :: rest => do return (← decodeGroup a b (some c) (some d)) ++ (← base64Decode rest)

def base64Chars : Bytes := ascii "ABCDEFGHIJKLMNOPQRSTUVWXYZabcdefghijklmnopqrstuvwxyz0123456789+/"

def base64Char (n : Nat) : UInt8 := base64Chars.getD n 0

/-- `base64_encode`, not for URLs. -/
def base64Encode : Bytes → Bytes
  | [] => []
  | [a] => [base64Char (a.toNat / 4), base64Char (a.toNat % 4 * 16), chr '=', chr '=']
  | [a, b] =>
    [base64Char (a.toNat / 4), base64Char (a.toNat % 4 * 16 + b.toNat / 16), base64Char (b.toNat % 16 * 4), chr '=']
  | a :: b :: c :: rest =>
    base64Char (a.toNat / 4) :: base64Char (a.toNat % 4 * 16 + b.toNat / 16) ::
      base64Char (b.toNat % 16 * 4 + c.toNat / 64) :: base64Char (c.toNat % 64) :: base64Encode rest

/-- `std::string::max_size`. -/
def stringMaxSize : Nat := 2 ^ 63 - 1

/-- `bundle`, the library that packs the files of the deep storage. -/
structure Bundle where
  pack : Int → Bytes → Bytes
  unpack : Bytes → Bytes

namespace FileUtil

def fileSize (disk : Disk) (filename : Bytes) : Int :=
  match disk.stat filename with
  | .ok s => s.size
  | .error _ => -1

def lastAccessTime (disk : Disk) (filename : Bytes) : Int :=
  match disk.stat filename with
  | .ok s => s.atime
  | .error _ => -1

def lastModifyTime (disk : Disk) (filename : Bytes) : Int :=
  match disk.stat filename with
  | .ok s => s.mtime
  | .error _ => -1

/-- What follows the last slash, or everything. -/
def fileName (filename : Bytes) : Bytes := filename.rtakeWhile (· != chr '/')

/-- The comparison with a size of -1 is one of unsigned numbers. `none` is the result false. -/
def getPosLen (disk : Disk) (filename : Bytes) (pos len : Nat) : Except Fault (Option Bytes) :=
  if toSizeT (fileSize disk filename) < (pos + len) % 2 ^ 64 then
    .ok none
  else
    match disk.openRead filename with
    | .error _ => .ok none
    | .ok source =>
      if stringMaxSize < len then .error .lengthError
      else
        match source with
        | none => .ok none
        | some bytes => if pos + len ≤ bytes.length then .ok (some ((bytes.drop pos).take len)) else .ok none

def getContent (disk : Disk) (filename : Bytes) : Except Fault (Option Bytes) :=
  getPosLen disk filename 0 (toSizeT (fileSize disk filename))

/-- Only a failure to open the file is reported: one to write is logged. -/
def setContent (disk : Disk) (filename content : Bytes) : Bool × Disk :=
  match disk.write filename content with
  | .ok disk => (true, disk)
  | .error _ => (false, disk)

def compress (bundle : Bundle) (disk : Disk) (filename content : Bytes) (format : Int) : Bool × Disk :=
  let packed := bundle.pack format content
  if packed.length = 0 then (false, disk) else setContent disk filename packed

def unCompress (bundle : Bundle) (disk : Disk) (filename downloadPath : Bytes) : Except Fault (Bool × Disk) := do
  match ← getContent disk filename with
  | none => return (false, disk)
  | some body => return setContent disk downloadPath (bundle.unpack body)

def exists? (disk : Disk) (filename : Bytes) : Except Fault Bool :=
  (disk.exists? filename).mapError fun _ => .filesystemError

def createDirectory (disk : Disk) (filename : Bytes) : Except Fault Bool × Disk :=
  match exists? disk filename with
  | .error fault => (.error fault, disk)
  | .ok true => (.ok true, disk)
  | .ok false =>
    match disk.createDirectories filename with
    | (none, disk) => (.ok true, disk)
    | (some _, disk) => (.error .filesystemError, disk)

end FileUtil

end HttpFramework.Storage
