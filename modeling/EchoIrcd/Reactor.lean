import EchoIrcd.Proxy

/-!
# The reactor

A connection of the reactor in `socketengine.rs`.  The reading half strips a
PROXY header, cuts what arrives into lines and hands them to the core; the
writing half queues the lines of the core and writes as much as the socket
takes.  One turn of the reactor reads until the socket has nothing left, and
only then sends what it collected.
-/

namespace EchoIrcd

open Octets

structure Conn where
  addr : SocketAddr
  rbuf : Octets := []
  wbuf : Octets := []
  wpos : Nat := 0
  closing : Bool := false
  paused : Bool := false
  recvq : Nat
  hardsendq : Nat
  softsendq : Nat
  proxyPending : Bool := false
  deriving DecidableEq, Repr

def Conn.accept (addr : SocketAddr) (maxLine maxSendq : Nat) (viaProxy : Bool) : Conn where
  addr := addr
  recvq := maxLine
  hardsendq := maxSendq
  softsendq := maxSendq
  proxyPending := viaProxy

inductive CoreEvent where
  | connect (addr : SocketAddr) (secure : Bool) (certfp : Option Str)
  | line (text : Str)
  | lineTooLong
  | disconnect
  deriving DecidableEq, Repr

/-! ## Lines -/

def lineText (raw : Octets) : Str :=
  (fromUtf8Lossy raw).rdropWhile fun char => char = '\r' || char = '\n'

def takeLines : Nat → Octets → List Str → Octets × List Str
  | 0, buf, lines => (buf, lines)
  | fuel + 1, buf, lines =>
    match buf.findIdx? (· = 10) with
    | none => (buf, lines)
    | some pos =>
      let text := lineText (buf.take (pos + 1))
      takeLines fuel (buf.drop (pos + 1)) (if text = [] then lines else lines ++ [text])

/-- What is left of a read and what it delivers: what has no newline is dropped if it is too
long. -/
structure LineCut where
  buf : Octets
  lines : List Str
  tooLong : Bool
  deriving DecidableEq, Repr

def frameLines (limit : Nat) (buf : Octets) (lines : List Str) : LineCut :=
  let (rest, lines) := takeLines buf.length buf lines
  if limit < rest.length then ⟨[], lines, true⟩ else ⟨rest, lines, false⟩

/-! ## Reading -/

def proxyMax : Nat := 256

structure Turn where
  connect : Option CoreEvent := none
  lines : List Str := []
  sent : List CoreEvent := []
  close : Bool := false
  deriving DecidableEq, Repr

def Conn.frame (conn : Conn) (turn : Turn) : Conn × Turn :=
  let framed := frameLines conn.recvq conn.rbuf turn.lines
  ({ conn with rbuf := framed.buf },
    { turn with
      lines := framed.lines
      sent := if framed.tooLong then turn.sent ++ [.lineTooLong] else turn.sent })

def ProxySource.connect (peer : SocketAddr) : ProxySource → CoreEvent
  | .peer => .connect peer false none
  | .client addr secure certfp => .connect addr secure certfp

def ProxySource.addr (peer : SocketAddr) : ProxySource → SocketAddr
  | .peer => peer
  | .client addr _ _ => addr

/-- One successful read of `read_conn`. -/
def Conn.read (parseIp : Str → Option Octets) (conn : Conn) (turn : Turn) (chunk : Octets) :
    Conn × Turn :=
  let conn := { conn with rbuf := conn.rbuf ++ chunk }
  if conn.proxyPending then
    match parseProxy parseIp conn.rbuf with
    | (.need, _) =>
      if proxyMax < conn.rbuf.length then (conn, { turn with close := true }) else (conn, turn)
    | (.invalid, _) => (conn, { turn with close := true })
    | (.accepted source, used) =>
      Conn.frame
        { conn with
          rbuf := conn.rbuf.drop used
          addr := source.addr conn.addr
          proxyPending := false }
        { turn with connect := some (source.connect conn.addr) }
  else conn.frame turn

def Conn.reads (parseIp : Str → Option Octets) : Conn → Turn → List Octets → Conn × Turn
  | conn, turn, [] => (conn, turn)
  | conn, turn, chunk :: chunks =>
    let (conn, turn) := conn.read parseIp turn chunk
    if turn.close then (conn, turn) else conn.reads parseIp turn chunks

def Conn.readConn (parseIp : Str → Option Octets) (conn : Conn) (chunks : List Octets)
    (ended : Bool) : Option Conn × List CoreEvent :=
  let (conn, turn) := conn.reads parseIp {} chunks
  let events := turn.sent ++ turn.connect.toList ++ turn.lines.map .line
  if turn.close || ended then
    (none, events ++ if conn.proxyPending then [] else [.disconnect])
  else (some conn, events)

def Conn.run (parseIp : Str → Option Octets) :
    Conn → List (List Octets × Bool) → Option Conn × List CoreEvent
  | conn, [] => (some conn, [])
  | conn, (chunks, ended) :: turns =>
    match conn.readConn parseIp chunks ended with
    | (none, events) => (none, events)
    | (some conn, events) =>
      let rest := conn.run parseIp turns
      (rest.1, events ++ rest.2)

/-- The loop of `tls_conn`: the lines of a session that one thread owns. -/
def tlsConn (maxLine : Nat) : Octets → List Octets → List CoreEvent
  | _, [] => []
  | acc, chunk :: chunks =>
    let framed := frameLines maxLine (acc ++ chunk) []
    framed.lines.map .line ++ (if framed.tooLong then [.lineTooLong] else []) ++
      tlsConn maxLine framed.buf chunks

def readLine (maxLine : Nat) (stream : Octets) : Octets :=
  (stream.take (stream.findIdx (· = 10) + 1)).take (maxLine + 1)

/-- `reader_loop`: the lines of a plaintext link, until its end or an error.  What was cut off is
dropped, and the rest of the line is read as the next one. -/
def readerLoop (maxLine : Nat) : Nat → Octets → List CoreEvent
  | 0, _ => [.disconnect]
  | fuel + 1, stream =>
    let raw := readLine maxLine stream
    match fromUtf8 raw with
    | none => [.disconnect]
    | some _ =>
      if raw = [] then [.disconnect]
      else if maxLine < raw.length then
        .lineTooLong :: readerLoop maxLine fuel (stream.drop raw.length)
      else if lineText raw = [] then readerLoop maxLine fuel (stream.drop raw.length)
      else .line (lineText raw) :: readerLoop maxLine fuel (stream.drop raw.length)

/-! ## Writing -/

inductive ReactorOut where
  | line (line : Octets)
  | close
  | limits (recvq hardsendq softsendq : Option Nat)
  deriving DecidableEq, Repr

namespace Conn

def pending (conn : Conn) : Nat := conn.wbuf.length - conn.wpos

def queue (conn : Conn) : ReactorOut → Conn
  | .line line =>
    if conn.hardsendq < conn.pending + line.length + 2 then
      { conn with wbuf := [], wpos := 0, closing := true }
    else
      let conn := { conn with wbuf := conn.wbuf.drop conn.wpos ++ (line ++ [13, 10]), wpos := 0 }
      { conn with paused := conn.paused || conn.softsendq < conn.pending }
  | .close => { conn with closing := true }
  | .limits recvq hardsendq softsendq =>
    { conn with
      recvq := recvq.getD conn.recvq
      hardsendq := hardsendq.getD conn.hardsendq
      softsendq := softsendq.getD conn.softsendq }

end Conn

structure SocketTurn where
  takes : Nat
  fails : Bool := false
  wantsWrite : Bool := false
  deriving DecidableEq, Repr

namespace Conn

def written (conn : Conn) (socket : SocketTurn) : Octets :=
  (conn.wbuf.drop conn.wpos).take socket.takes

def advance (conn : Conn) (count : Nat) : Conn :=
  if conn.wpos + count = conn.wbuf.length then { conn with wbuf := [], wpos := 0 }
  else { conn with wpos := conn.wpos + count }

def flush (conn : Conn) (socket : SocketTurn) : Option Conn :=
  let conn := conn.advance (conn.written socket).length
  if socket.fails ∨ (conn.closing ∧ conn.wbuf = [] ∧ socket.wantsWrite = false) then none
  else some { conn with paused := conn.paused && conn.softsendq < conn.pending }

end Conn

end EchoIrcd
