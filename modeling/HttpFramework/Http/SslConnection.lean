import HttpFramework.Cpp

/-! `SslConnection`, as `HttpServer` makes it for a connection when `useSSL_` is on. What OpenSSL does
is open: every call of it comes with its result and with the bytes that it adds to `writeBio_`. The
SSL object and the two memory BIOs have been made. -/

namespace HttpFramework.Http

inductive SSLState where
  | HANDSHAKE | ESTABLISHED | SHUTDOWN | ERROR
deriving DecidableEq, Repr

/-- A call of `SSL_do_handshake`. It has succeeded, wants to be called again, or has failed. -/
structure SslHandshake where
  result : Option Bool
  produced : Bytes := []
deriving DecidableEq

/-- A call of `SSL_read`. No data stands for a result that is not positive. -/
structure SslRead where
  data : Bytes
  produced : Bytes := []
deriving DecidableEq

/-- A call of `SSL_write`. -/
structure SslWrite where
  written : Int
  produced : Bytes := []
deriving DecidableEq

structure SslConnection where
  state : SSLState := .HANDSHAKE
  /-- The buffer that `onRead` is given. -/
  inputBuffer : Bytes := []
  /-- What is pending in `writeBio_`. -/
  writeBio : Bytes := []
  decryptedBuffer : Bytes := []
  connected : Bool := true
  /-- The calls of `conn_->send`. -/
  sent : List Bytes := []
  /-- What has been received, and written to `readBio_`. -/
  received : Bytes := []
  readBio : Bytes := []
  /-- What `SSL_read` has returned, and what has been handed to `parseRequest`. -/
  decrypted : Bytes := []
  parsed : Bytes := []
  /-- All that OpenSSL has added to `writeBio_`. -/
  produced : Bytes := []
deriving DecidableEq

namespace SslConnection

def produce (bytes : Bytes) (conn : SslConnection) : SslConnection :=
  { conn with writeBio := conn.writeBio ++ bytes, produced := conn.produced ++ bytes }

def handleHandshake (handshake : SslHandshake) (conn : SslConnection) : SslConnection :=
  let conn := conn.produce handshake.produced
  match handshake.result with
  | some true => { conn with state := .ESTABLISHED }
  | none => conn
  | some false => { conn with connected := false }

/-- `HttpServer::onMessage` behind its call of `onRead`. -/
def parseDecrypted (conn : SslConnection) : SslConnection :=
  if conn.state ≠ .ESTABLISHED then conn
  else if conn.decryptedBuffer = [] then conn
  else { conn with parsed := conn.parsed ++ conn.decryptedBuffer }

/-- `onRead` of an established connection. The message callback is `onMessage`, which calls
`onRead` again, with a buffer that is looked at no more. -/
def readDecrypted : List SslRead → SslConnection → Option SslConnection
  | [], _ => none
  | read :: reads, conn =>
    let conn := conn.produce read.produced
    if read.data = [] then if reads = [] then some conn else none
    else do
      let conn ← readDecrypted reads { conn with decrypted := conn.decrypted ++ read.data }
      return conn.parseDecrypted

/-- The bytes come into the buffer of the connection, and the callback is called with it. -/
def onRead (chunk : Bytes) (handshake : SslHandshake) (reads : List SslRead) (conn : SslConnection) :
    Option SslConnection :=
  let conn := { conn with inputBuffer := conn.inputBuffer ++ chunk, received := conn.received ++ chunk }
  match conn.state with
  | .HANDSHAKE =>
    some (handleHandshake handshake { conn with readBio := conn.readBio ++ conn.inputBuffer, inputBuffer := [] })
  | .ESTABLISHED => conn.readDecrypted reads
  | .SHUTDOWN | .ERROR => some conn

/-- The loop of `send`: the pieces in which what is pending goes out, at most as many as there are
bytes. -/
def pieces : Nat → Bytes → List Bytes
  | 0, _ => []
  | fuel + 1, pending => if pending = [] then [] else pending.take 4096 :: pieces fuel (pending.drop 4096)

def drain (conn : SslConnection) : SslConnection :=
  { conn with sent := conn.sent ++ pieces conn.writeBio.length conn.writeBio, writeBio := [] }

def send (write : SslWrite) (conn : SslConnection) : SslConnection :=
  if conn.state ≠ .ESTABLISHED then conn
  else
    let conn := conn.produce write.produced
    if write.written ≤ 0 then conn else conn.drain

/-- A call, with what the calls of OpenSSL in it do. -/
inductive Action where
  | startHandshake (handshake : SslHandshake)
  | onRead (chunk : Bytes) (handshake : SslHandshake) (reads : List SslRead)
  | send (write : SslWrite)
deriving DecidableEq

/-- Nothing is received without a byte. -/
def step (conn : SslConnection) : Action → Option SslConnection
  | .startHandshake handshake => some (conn.handleHandshake handshake)
  | .onRead chunk handshake reads => if chunk = [] then none else conn.onRead chunk handshake reads
  | .send write => some (conn.send write)

end SslConnection

end HttpFramework.Http
