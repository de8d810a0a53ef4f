/-
  cpp_proxy — the session of the proxy (session.hpp).

  A session relays two byte streams, client to server (`Dir.req`) and server to
  client (`Dir.res`), and shows them to the process over a local socket.  Its
  coroutines run on one thread and interleave at their `co_await` points, so
  each coroutine is a program point (the operation it awaits, with its local
  variables) and the code between two awaits is a function on `Session`.

  * `Io`, `PeerWrite`, `LinkWrite`, `LinkRead`: asio's composed operations in
    progress.  The two peer sockets are opened once; the process socket is a
    member that is closed and replaced, and a composed operation issues each
    of its parts on whatever that member is then.
  * `RelayPc`, `ReaderPc`, `ConnectorPc`, `DetectorPc`: the program points of
    `client_request` and `server_response`, of
    `process_2proxy_2client_or_2server`, of `connect_process` and of
    `detect_process_timeout`.
  * `Session`: the members, the coroutines and the sockets.  Fields that the
    code does not have (what the sockets carried, `trace`, the connection
    numbers) only record what happened.
-/
import Mathlib.Logic.Function.Basic
import CppProxy.Packets

namespace CppProxy

/-- The two directions of the relay, named after their counters. -/
inductive Dir
  | req
  | res
deriving DecidableEq, Repr

theorem Dir.forall_iff {p : Dir → Prop} : (∀ d, p d) ↔ p .req ∧ p .res :=
  ⟨fun h => ⟨h _, h _⟩, fun h d => by cases d; exacts [h.1, h.2]⟩

instance (p : Dir → Prop) [DecidablePred p] : Decidable (∀ d, p d) :=
  decidable_of_iff _ Dir.forall_iff.symm

/-- The type of the frames that carry the payload of a direction. -/
def Dir.dataType : Dir → DataType
  | req => .fromClientToServer
  | res => .fromServerToClient

/-! ## Operations in progress -/

/-- A part of a composed operation on the process socket: issued on a connected
    socket, issued on one that is not connected (it can only fail), or done, with
    the operation not resumed yet. -/
inductive Io
  | live
  | dead
  | idle
deriving DecidableEq, Repr

/-- `async_write` to a peer: whether the socket was open when it was started,
    the whole data, and what the socket has not accepted yet. -/
structure PeerWrite where
  live : Bool
  data : List Byte
  rest : List Byte
deriving DecidableEq, Repr

/-- `async_write` to the process: the number of connections made when the
    current part was issued, the frame, and what is not sent yet. -/
structure LinkWrite where
  gen : ℕ
  io : Io
  frame : List Byte
  rest : List Byte
deriving DecidableEq, Repr

/-- `async_read` from the process: what it has got of the `want` bytes. -/
structure LinkRead where
  gen : ℕ
  io : Io
  got : List Byte
  want : ℕ
deriving DecidableEq, Repr

/-- The result of `async_read_some` on a peer socket. -/
inductive ReadResult
  | data (bytes : List Byte)
  | eof
  | error
deriving DecidableEq, Repr

/-! ## Program points -/

/-- `client_request` and `server_response`.  `gen` is the connection on which
    the write that led to a flush failed. -/
inductive RelayPc
  | notify (w : LinkWrite)
  | readDirect (live : Bool)
  | writeDirect (w : PeerWrite)
  | readProcess (live : Bool)
  | writeProcess (w : LinkWrite)
  | flush (gen : ℕ) (w : PeerWrite)
  | done
deriving DecidableEq, Repr

/-- `process_2proxy_2client_or_2server`.  `conn` is the connection that the last
    byte of the response came from. -/
inductive ReaderPc
  | readHead (r : LinkRead)
  | readBody (head : ResponseHead) (r : LinkRead)
  | writeNew (d : Dir) (conn : ℕ) (head : ResponseHead) (w : PeerWrite)
  | release (d : Dir) (count : ℕ) (next : Int32) (w : PeerWrite)
  | flushServer (gen : ℕ) (w : PeerWrite)
  | flushClient (gen : ℕ) (w : PeerWrite)
  | done
deriving DecidableEq, Repr

/-- `connect_process`; `up` once the kernel has connected the socket. -/
inductive ConnectorPc
  | connecting (up : Bool)
  | waiting
  | fourTuple (conn : ℕ) (w : LinkWrite)
  | done
deriving DecidableEq, Repr

/-- A wait on `detect_process_timeout_timer_`: still pending, or completed and
    its handler queued. -/
inductive Wait
  | pending
  | fired
  | cancelled
deriving DecidableEq, Repr

/-- `detect_process_timeout`, spawned for the connection `conn`. -/
inductive DetectorPc
  | waiting (conn : ℕ) (w : Wait)
  | done
deriving DecidableEq, Repr

/-! ## The state -/

/-- `proxy_process_socket_`. -/
inductive Sock
  | closed
  | opened
  | connected
deriving DecidableEq, Repr

/-- A connection to the process: the bytes the proxy has sent, the frames whose
    first byte was sent, the responses the process has sent and their bytes not
    read yet, whether a write has failed, the payloads framed to it in each
    direction, and the readers that have read from it. -/
structure Link where
  sent : List Byte := []
  begun : List (List Byte) := []
  responses : List Response := []
  inbound : List Byte := []
  broken : Bool := false
  frames : Dir → List (List Byte) := fun _ => []
  readers : List ℕ := []

/-- One direction: the bytes read from the sending peer, the bytes accepted by
    the socket of the receiving peer, the stored packets, the counter, and the
    relay with its local variable `block`. -/
structure Way where
  received : List Byte := []
  accepted : List Byte := []
  storedData : List Packet := []
  handledTotalPkgLen : UInt64 := 0
  relay : RelayPc := .done
  block : Option DataBlock := none

/-- What a session did, in order. -/
inductive Act
  | got (d : Dir) (bypass : Bool) (data : List Byte)
  | eof (d : Dir) (received accepted : List Byte)
  | direct (d : Dir) (live : Bool) (data : List Byte)
  | frame (d : Dir) (data : List Byte)
  | flush (d : Dir) (live : Bool) (data : List Byte)
  | flushed (d : Dir) (wrote removed : List Byte)
  | response (i : ℕ) (head : ResponseHead)
  | newData (d : Dir) (live : Bool) (data : List Byte)
  | release (d : Dir) (live : Bool) (conn : ℕ) (total before after : UInt64) (next : Int32)
      (data : List Byte)
  | reconnect (gen conns : ℕ)
deriving DecidableEq

/-- A reader and the connection it was spawned for. -/
structure Reader where
  home : ℕ := 0
  pc : ReaderPc := .done

/-- The session.  Coroutines of one kind are numbered in the order they are
    spawned; connections are numbered from 1, and `conns` have been made.
    `undefined` is set once a step of the source has no defined behaviour. -/
structure Session where
  hasClosed : Bool := false
  eof : Bool := false
  bypass : Bool := true
  responseBypass : Bool := true
  processConnecting : Bool := false
  connBufSize : ℕ := 8124
  fourTuple : List Byte := []
  proxyClientOpen : Bool := true
  proxyServerOpen : Bool := true
  proxyProcessSocket : Sock := .closed
  conns : ℕ := 0
  links : ℕ → Link := fun _ => {}
  way : Dir → Way := fun _ => {}
  readers : ℕ → Reader := fun _ => {}
  nReaders : ℕ := 0
  connectors : ℕ → ConnectorPc := fun _ => .done
  nConnectors : ℕ := 0
  detectors : ℕ → DetectorPc := fun _ => .done
  nDetectors : ℕ := 0
  undefined : Bool := false
  trace : List Act := []

namespace Session

variable (s : Session)

/-- Whether the socket of the peer that sends in a direction is open. -/
def srcOpen : Dir → Bool
  | .req => s.proxyClientOpen
  | .res => s.proxyServerOpen

/-- Whether the socket of the peer that receives in a direction is open. -/
def dstOpen : Dir → Bool
  | .req => s.proxyServerOpen
  | .res => s.proxyClientOpen

/-- The connection that `proxy_process_socket_` is. -/
def link : Link := s.links s.conns

/-- Write the fields of one direction. -/
def setWay (d : Dir) (w : Way) : Session := { s with way := Function.update s.way d w }

/-- The relay of direction `d` goes on to `pc`. -/
def setRelay (d : Dir) (pc : RelayPc) : Session := s.setWay d { s.way d with relay := pc }

/-- `stored_data` of direction `d` is assigned. -/
def setStored (d : Dir) (stored : List Packet) : Session :=
  s.setWay d { s.way d with storedData := stored }

/-- Reader `i` goes on to `pc`. -/
def setReader (i : ℕ) (pc : ReaderPc) : Session :=
  { s with readers := Function.update s.readers i { s.readers i with pc } }

/-- Connector `j` goes on to `pc`. -/
def setConnector (j : ℕ) (pc : ConnectorPc) : Session :=
  { s with connectors := Function.update s.connectors j pc }

/-- Write the fields of the current connection. -/
def setLink (l : Link) : Session := { s with links := Function.update s.links s.conns l }

/-- Record an act. -/
def emit (a : Act) : Session := { s with trace := s.trace ++ [a] }

/-! ## Starting operations -/

/-- `asio::async_write` on the socket of the receiving peer. -/
def asyncWrite (d : Dir) (data : List Byte) : PeerWrite := ⟨s.dstOpen d, data, data⟩

/-- The state of a part that is issued on `proxy_process_socket_` now. -/
def issued : Io := if s.proxyProcessSocket = .connected then .live else .dead

/-- `asio::async_write(proxy_process_socket_, ..)`. -/
def asyncWriteProcess (frame : List Byte) : LinkWrite := ⟨s.conns, s.issued, frame, frame⟩

/-- `asio::async_read(proxy_process_socket_, ..)`. -/
def asyncReadProcess (want : ℕ) : LinkRead := ⟨s.conns, s.issued, [], want⟩

/-- Record that reader `i` has issued a read on the current connection. -/
def noteRead (i : ℕ) : Session :=
  if s.proxyProcessSocket = .connected then
    s.setLink { s.link with readers := i :: s.link.readers }
  else s

/-- `proxy_process_socket_.async_connect`: it opens a closed socket. -/
def asyncConnect (j : ℕ) : Session :=
  { s with
    proxyProcessSocket := if s.proxyProcessSocket = .closed then .opened else s.proxyProcessSocket
    connectors := Function.update s.connectors j (.connecting false) }

/-! ## Closing -/

/-- `detect_process_timeout_timer_.cancel()`: an expiry that is queued already is
    not recalled. -/
def cancelTimer : Session :=
  { s with detectors := fun i => match s.detectors i with
    | .waiting conn .pending => .waiting conn .cancelled
    | pc => pc }

/-- `reset_local_socket`. -/
def resetLocalSocket : Session := { s with proxyProcessSocket := .closed }

/-- `grace_close`. -/
def graceClose : Session :=
  if s.hasClosed then s
  else { s.cancelTimer with
    hasClosed := true
    proxyClientOpen := false
    proxyServerOpen := false
    proxyProcessSocket := .closed }

/-! ## `connect_process` and `detect_process_timeout` -/

/-- `for (; !has_closed_;)` in `connect_process`. -/
def connectLoop (j : ℕ) : Session :=
  if s.hasClosed then s.setConnector j .done else s.asyncConnect j

/-- `co_spawn` of `connect_process`, up to its first suspension, by a coroutine
    that saw connection `gen` fail. -/
def connectProcess (gen : ℕ) : Session :=
  if s.processConnecting then s
  else
    let s := { s with processConnecting := true }
    let s := (s.emit (.reconnect gen s.conns)).resetLocalSocket
    let s := s.setWay .req { s.way .req with handledTotalPkgLen := 0 }
    let s := s.setWay .res { s.way .res with handledTotalPkgLen := 0 }
    let s := s.cancelTimer
    { s with nConnectors := s.nConnectors + 1 }.connectLoop s.nConnectors

/-- `async_connect` succeeded: disable bypass and send the four tuple. -/
def fourTuple2process (j : ℕ) : Session :=
  let s := { s with bypass := false, processConnecting := false }
  s.setConnector j (.fourTuple s.conns (s.asyncWriteProcess (frame .fourTuple s.fourTuple)))

/-- `for (; !has_closed_ && !process_connecting_;)` in `detect_process_timeout`:
    `expires_from_now` cancels the other waits on the timer. -/
def detectLoop (i conn : ℕ) : Session :=
  if !s.hasClosed && !s.processConnecting then
    let s := s.cancelTimer
    { s with detectors := Function.update s.detectors i (.waiting conn .pending) }
  else { s with detectors := Function.update s.detectors i .done }

/-! ## `process_2proxy_2client_or_2server` -/

/-- `process_2proxy` for the head of the next response. -/
def readHead (i : ℕ) : Session :=
  (s.noteRead i).setReader i (.readHead (s.asyncReadProcess responseHeadLen))

/-- `process_2proxy` for a body. -/
def readBody (i : ℕ) (head : ResponseHead) : Session :=
  (s.noteRead i).setReader i (.readBody head (s.asyncReadProcess head.newDataLen.toNat))

/-- The four tuple is sent: spawn the reader and the timeout detector. -/
def superviseProcess (j conn : ℕ) : Session :=
  let s := s.setConnector j .done
  let i := s.nReaders
  let s := { s with
    nReaders := i + 1
    readers := Function.update s.readers i { home := conn, pc := .done } }
  let s := s.readHead i
  let k := s.nDetectors
  { s with nDetectors := k + 1 }.detectLoop k conn

/-- `inner_proxy_2client_or_2server` after the new data is written. -/
def actOnHead (i : ℕ) (d : Dir) (conn : ℕ) (head : ResponseHead) : Session :=
  if head.act = Action.block.code then s.graceClose.setReader i .done
  else
    let w := s.way d
    let r := prepareTransferPacket head w.storedData w.handledTotalPkgLen
    let wr := s.asyncWrite d r.bytes
    let inside := decide (CutInside head.handledTotalPkgLen w.handledTotalPkgLen w.storedData)
    let s := { s with undefined := s.undefined || !inside }
    let s := s.setWay d { w with handledTotalPkgLen := r.handledTotalPkgLen }
    let s := s.emit (.release d wr.live conn head.handledTotalPkgLen w.handledTotalPkgLen
      r.handledTotalPkgLen r.nextPkgUsedSize r.bytes)
    s.setReader i (.release d r.handledPkgCount r.nextPkgUsedSize wr)

/-- `inner_proxy_2client_or_2server`. -/
def innerProxy2clientOr2server (i : ℕ) (d : Dir) (conn : ℕ) (head : ResponseHead)
    (proxyProcessBuf : List Byte) : Session :=
  if head.newDataLen ≠ 0 then
    let w := s.asyncWrite d proxyProcessBuf
    (s.emit (.newData d w.live proxyProcessBuf)).setReader i (.writeNew d conn head w)
  else s.actOnHead i d conn head

/-- `proxy_2server`. -/
def proxy2server (i conn : ℕ) (head : ResponseHead) (proxyProcessBuf : List Byte) : Session :=
  s.innerProxy2clientOr2server i .req conn head proxyProcessBuf

/-- `proxy_2client`. -/
def proxy2client (i conn : ℕ) (head : ResponseHead) (proxyProcessBuf : List Byte) : Session :=
  s.innerProxy2clientOr2server i .res conn head proxyProcessBuf

/-- The `switch` of the reader on a complete response. -/
def dispatch (i conn : ℕ) (head : ResponseHead) (proxyProcessBuf : List Byte) : Session :=
  let s := s.emit (.response i head)
  match DataType.ofCode head.type with
  | some .fromClientToServer => s.proxy2server i conn head proxyProcessBuf
  | some .fromServerToClient => s.proxy2client i conn head proxyProcessBuf
  | some .heartbeat => s.cancelTimer.readHead i
  | _ => s.readHead i

/-- The end of `clear_handled_packet`, then the next response.  `pop_front` of an
    empty queue is undefined: the program does not go on from there, so results
    about later states ask for `undefined = false` or for steps that keep it
    (`StaysDefined`). -/
def clearReleased (i : ℕ) (d : Dir) (count : ℕ) (next : Int32) : Session :=
  match clearHandledPacket (s.way d).storedData count next with
  | some stored => (s.setStored d stored).readHead i
  | none => { s with undefined := true }.readHead i

/-- The end of the error path of `process_2proxy`. -/
def readerReconnect (i gen : ℕ) : Session := (s.connectProcess gen).setReader i .done

/-- `enable_bypass_2client` in `process_2proxy`. -/
def readerFlushClient (i gen : ℕ) : Session :=
  let s := { s with bypass := true }
  if (s.way .res).storedData = [] then s.readerReconnect i gen
  else
    let w := s.asyncWrite .res (storedBytes (s.way .res).storedData)
    (s.emit (.flush .res w.live w.data)).setReader i (.flushClient gen w)

/-- `enable_bypass_2server` in `process_2proxy`. -/
def readerFlushServer (i gen : ℕ) : Session :=
  let s := { s with bypass := true }
  if (s.way .req).storedData = [] then s.readerFlushClient i gen
  else
    let w := s.asyncWrite .req (storedBytes (s.way .req).storedData)
    (s.emit (.flush .req w.live w.data)).setReader i (.flushServer gen w)

/-- `stored_data.clear()` at the end of `inner_enable_bypass`. -/
def clearFlushed (d : Dir) (w : PeerWrite) : Session :=
  (s.emit (.flushed d w.data (storedBytes (s.way d).storedData))).setStored d []

/-- `process_2proxy` after its read failed. -/
def readerFailed (i gen : ℕ) : Session :=
  if s.hasClosed then s.setReader i .done else s.readerFlushServer i gen

/-! ## `client_request` and `server_response` -/

/-- `client_2proxy_2server` and `server_2proxy_2client` up to the read. -/
def relayDirect (d : Dir) : Session := s.setRelay d (.readDirect (s.srcOpen d))

/-- `client_2proxy_2server` up to the read. -/
def client2proxy2server : Session := s.relayDirect .req

/-- `server_2proxy_2client` up to the read. -/
def server2proxy2client : Session := s.relayDirect .res

/-- `inner_client_or_server_2proxy_2process` up to the read: a block with less
    than 69 bytes left is replaced. -/
def innerClientOrServer2proxy2process (d : Dir) : Session :=
  let w := s.way d
  let block := match w.block with
    | some b => if b.getAvailable < 69 then .fresh else b
    | none => .fresh
  s.setWay d { w with block := some block, relay := .readProcess (s.srcOpen d) }

/-- `client_2proxy_2process` up to the read. -/
def client2proxy2process : Session := s.innerClientOrServer2proxy2process .req

/-- `server_2proxy_2process` up to the read. -/
def server2proxy2process : Session := s.innerClientOrServer2proxy2process .res

/-- One iteration of `client_request` up to its first suspension. -/
def clientRequest : Session :=
  if s.eof then s.graceClose.setRelay .req .done
  else if s.bypass then s.client2proxy2server
  else s.client2proxy2process

/-- One iteration of `server_response` up to its first suspension.  The
    notification tells the process that the server has answered. -/
def serverResponse : Session :=
  if s.eof then s.graceClose.setRelay .res .done
  else if s.bypass || s.responseBypass then
    if !s.bypass && s.responseBypass then
      s.setRelay .res (.notify (s.asyncWriteProcess (frame .fromServerToClient [])))
    else s.server2proxy2client
  else s.server2proxy2process

/-- One iteration of the relay of a direction. -/
def relayLoop : Dir → Session
  | .req => s.clientRequest
  | .res => s.serverResponse

/-- The relay read `data` in the direct path. -/
def writeDirect (d : Dir) (data : List Byte) : Session :=
  let s := s.emit (.got d s.bypass data)
  let s := s.setWay d { s.way d with received := (s.way d).received ++ data }
  let w := s.asyncWrite d data
  (s.emit (.direct d w.live data)).setRelay d (.writeDirect w)

/-- The relay read `data` for the process: store the packet and send its frame. -/
def writeProcess (d : Dir) (data : List Byte) : Session :=
  let s := s.emit (.got d s.bypass data)
  let w := s.way d
  let s := s.setWay d { w with
    received := w.received ++ data
    storedData := w.storedData ++ [Packet.ofData data]
    block := w.block.map fun b => b.updateAvailable (UInt32.ofNat data.length + 5)
    relay := .writeProcess (s.asyncWriteProcess (CppProxy.frame d.dataType data)) }
  let s := s.emit (.frame d data)
  if s.proxyProcessSocket = .connected then
    s.setLink { s.link with
      frames := Function.update s.link.frames d (s.link.frames d ++ [data]) }
  else s

/-- The relay read the end of the stream. -/
def relayEof (d : Dir) : Session :=
  let s := s.emit (.eof d (s.way d).received (s.way d).accepted)
  { s with eof := true }.relayLoop d

/-- An error of a peer socket in a relay. -/
def relayClose (d : Dir) : Session := s.graceClose.setRelay d .done

/-- Spawn `connect_process` and continue the loop. -/
def relayReconnect (d : Dir) (gen : ℕ) : Session := (s.connectProcess gen).relayLoop d

/-- The write to the process failed: `enable_bypass_2server` in `client_request`,
    `enable_bypass_2client` in `server_response`. -/
def relayFlush (d : Dir) (gen : ℕ) : Session :=
  let s := { s with bypass := true }
  if (s.way d).storedData = [] then s.relayReconnect d gen
  else
    let w := s.asyncWrite d (storedBytes (s.way d).storedData)
    (s.emit (.flush d w.live w.data)).setRelay d (.flush gen w)

/-- The end of `setup_proxy`: spawn the three coroutines. -/
def setupProxy : Session := ((s.connectProcess 0).clientRequest).serverResponse

end Session

/-- What a session is configured with: `conn_buf_size`, `response_bypass` and the
    text of the four tuple. -/
structure Conf where
  connBufSize : ℕ
  responseBypass : Bool
  fourTuple : List Byte
  fourTuple_len : fourTuple.length < 2 ^ 32

/-- The session once `setup_proxy` has returned. -/
def Session.init (c : Conf) : Session :=
  setupProxy
    { connBufSize := c.connBufSize
      responseBypass := c.responseBypass
      fourTuple := c.fourTuple }

end CppProxy
