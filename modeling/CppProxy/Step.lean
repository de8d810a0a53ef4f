/-
  cpp_proxy — the steps of a session.

  A session moves when an operation that one of its coroutines awaits makes
  progress.  Completions of different operations come in any order, and the
  bytes of an `async_write` leave in parts of any size:

  * `read d r`: the `async_read_some` of the relay of direction `d` completes;
  * `push t k`, `pull i k`: the kernel moves `k` bytes of the composed write of
    coroutine `t`, or of the composed read of reader `i`;
  * `issue t`: a composed operation on the process socket issues its next part;
  * `complete t`, `fail t`: what coroutine `t` awaits completes, with or without
    success, and `t` runs to its next suspension;
  * `connect j`: the kernel connects the process socket for connector `j`;
  * `expire k`: the timer expires while detector `k` waits on it;
  * `respond g r`: the process sends a response on connection `g`.  Any byte
    string it can send is a sequence of responses and a rest that no read ever
    completes.

  `step` is the function, `Step` the same as rules, one for each stretch of code
  between two suspensions (`step_rule`).
-/
import CppProxy.Lib.Runs
import CppProxy.Session

namespace CppProxy

/-- A coroutine of the session. -/
inductive Tid
  | relay (d : Dir)
  | reader (i : ℕ)
  | connector (j : ℕ)
  | detector (k : ℕ)
deriving DecidableEq, Repr

/-- What can happen next: see the list above. -/
inductive Event
  | read (d : Dir) (r : ReadResult)
  | push (t : Tid) (k : ℕ)
  | pull (i k : ℕ)
  | issue (t : Tid)
  | complete (t : Tid)
  | fail (t : Tid)
  | connect (j : ℕ)
  | expire (k : ℕ)
  | respond (g : ℕ) (r : Response)

/-! ## What the operations can do -/

/-- What `async_read_some` into `room` bytes can return: bytes, or an error, and
    at once nothing when there is no room.  A read that was started on an open
    socket may have completed before the socket was closed. -/
def ReadResult.Possible (live : Bool) (room : ℕ) : ReadResult → Prop
  | .data bytes => live = true ∧ bytes.length ≤ room ∧ (bytes = [] ↔ room = 0)
  | .eof => live = true ∧ room ≠ 0
  | .error => live = false ∨ room ≠ 0

instance (live : Bool) (room : ℕ) : ∀ r : ReadResult, Decidable (r.Possible live room)
  | .data _ => inferInstanceAs (Decidable (_ ∧ _ ∧ (_ ↔ _)))
  | .eof => inferInstanceAs (Decidable (_ ∧ _))
  | .error => inferInstanceAs (Decidable (_ ∨ _))

/-- The socket has accepted all the data. -/
def PeerWrite.Finished (w : PeerWrite) : Prop := w.live = true ∧ w.rest = []

/-- A write that has bytes left, or was started on a closed socket, can fail. -/
def PeerWrite.CanFail (w : PeerWrite) : Prop := w.live = false ∨ w.rest ≠ []

/-- The last part is done, and the frame is sent whole. -/
def LinkWrite.Finished (w : LinkWrite) : Prop := w.io = .idle ∧ w.rest = []

/-- A part that was issued and is not done can fail. -/
def LinkWrite.CanFail (w : LinkWrite) : Prop := w.io ≠ .idle

/-- The last part is done, and the read has all the bytes it wants. -/
def LinkRead.Finished (r : LinkRead) : Prop := r.io = .idle ∧ r.got.length = r.want

/-- A part that was issued and is not done can fail. -/
def LinkRead.CanFail (r : LinkRead) : Prop := r.io ≠ .idle

instance (w : PeerWrite) : Decidable w.Finished := inferInstanceAs (Decidable (_ ∧ _))
instance (w : PeerWrite) : Decidable w.CanFail := inferInstanceAs (Decidable (_ ∨ _))
instance (w : LinkWrite) : Decidable w.Finished := inferInstanceAs (Decidable (_ ∧ _))
instance (w : LinkWrite) : Decidable w.CanFail := inferInstanceAs (Decidable (_ ≠ _))
instance (r : LinkRead) : Decidable r.Finished := inferInstanceAs (Decidable (_ ∧ _))
instance (r : LinkRead) : Decidable r.CanFail := inferInstanceAs (Decidable (_ ≠ _))

/-! ## Operations inside program points -/

/-- The write to a peer that a relay awaits. -/
def RelayPc.peerWrite : RelayPc → Option PeerWrite
  | writeDirect w | flush _ w => some w
  | _ => none

/-- The write to a peer has made progress. -/
def RelayPc.setPeerWrite (w : PeerWrite) : RelayPc → RelayPc
  | writeDirect _ => writeDirect w
  | flush gen _ => flush gen w
  | pc => pc

/-- The write to the process that a relay awaits. -/
def RelayPc.linkWrite : RelayPc → Option LinkWrite
  | notify w | writeProcess w => some w
  | _ => none

/-- The write to the process has made progress. -/
def RelayPc.setLinkWrite (w : LinkWrite) : RelayPc → RelayPc
  | notify _ => notify w
  | writeProcess _ => writeProcess w
  | pc => pc

/-- The write to a peer that a reader awaits, with its direction. -/
def ReaderPc.peerWrite : ReaderPc → Option (Dir × PeerWrite)
  | writeNew d _ _ w | release d _ _ w => some (d, w)
  | flushServer _ w => some (.req, w)
  | flushClient _ w => some (.res, w)
  | _ => none

/-- The write to a peer has made progress. -/
def ReaderPc.setPeerWrite (w : PeerWrite) : ReaderPc → ReaderPc
  | writeNew d conn head _ => writeNew d conn head w
  | release d count next _ => release d count next w
  | flushServer gen _ => flushServer gen w
  | flushClient gen _ => flushClient gen w
  | pc => pc

/-- The read from the process that a reader awaits. -/
def ReaderPc.linkRead : ReaderPc → Option LinkRead
  | readHead r | readBody _ r => some r
  | _ => none

/-- The read from the process has made progress. -/
def ReaderPc.setLinkRead (r : LinkRead) : ReaderPc → ReaderPc
  | readHead _ => readHead r
  | readBody head _ => readBody head r
  | pc => pc

/-- The four tuple that a connector is sending. -/
def ConnectorPc.linkWrite : ConnectorPc → Option LinkWrite
  | fourTuple _ w => some w
  | _ => none

/-- The write of the four tuple has made progress. -/
def ConnectorPc.setLinkWrite (w : LinkWrite) : ConnectorPc → ConnectorPc
  | fourTuple conn _ => fourTuple conn w
  | pc => pc

namespace Session

variable (s : Session)

/-- The write to a peer that a coroutine is in. -/
def peerWrite : Tid → Option (Dir × PeerWrite)
  | .relay d => (s.way d).relay.peerWrite.map fun w => (d, w)
  | .reader i => (s.readers i).pc.peerWrite
  | _ => none

/-- Coroutine `t` goes on with its write to a peer. -/
def setPeerWrite (w : PeerWrite) : Tid → Session
  | .relay d => s.setRelay d ((s.way d).relay.setPeerWrite w)
  | .reader i => s.setReader i ((s.readers i).pc.setPeerWrite w)
  | _ => s

/-- The write to the process that a coroutine is in. -/
def linkWrite : Tid → Option LinkWrite
  | .relay d => (s.way d).relay.linkWrite
  | .connector j => (s.connectors j).linkWrite
  | _ => none

/-- Coroutine `t` goes on with its write to the process. -/
def setLinkWrite (w : LinkWrite) : Tid → Session
  | .relay d => s.setRelay d ((s.way d).relay.setLinkWrite w)
  | .connector j => s.setConnector j ((s.connectors j).setLinkWrite w)
  | _ => s

/-- The read from the process that a reader is in. -/
def linkRead (i : ℕ) : Option LinkRead := (s.readers i).pc.linkRead

/-- Reader `i` goes on with its read. -/
def setLinkRead (i : ℕ) (r : LinkRead) : Session :=
  s.setReader i ((s.readers i).pc.setLinkRead r)

/-- The socket of the receiving peer accepts bytes. -/
def accept (d : Dir) (bytes : List Byte) : Session :=
  s.setWay d { s.way d with accepted := (s.way d).accepted ++ bytes }

/-- The connection takes `k` bytes of a frame. -/
def sendLink (w : LinkWrite) (k : ℕ) : Session :=
  s.setLink { s.link with
    sent := s.link.sent ++ w.rest.take k
    begun := s.link.begun ++ if w.rest = w.frame then [w.frame] else [] }

/-- The space in the block that `async_read_some` reads into. -/
def room (d : Dir) : ℕ := ((s.way d).block.elim 0 fun b => b.getAvailable - 5).toNat

/-- A part that was issued on a connection failed: no more bytes can be sent
    on that connection. -/
def breakLink (w : LinkWrite) : Session :=
  if w.io = .live then
    { s with links := Function.update s.links w.gen { s.links w.gen with broken := true } }
  else s

/-! ## The step function -/

/-- The `async_read_some` of the relay of direction `d` completes with `r`. -/
def onRead (d : Dir) (r : ReadResult) : Option Session :=
  match (s.way d).relay with
  | .readDirect live =>
    if r.Possible live s.connBufSize then
      match r with
      | .data bytes => some (s.writeDirect d bytes)
      | .eof => some (s.relayEof d)
      | .error => some (s.relayClose d)
    else none
  | .readProcess live =>
    if r.Possible live (s.room d) then
      match r with
      | .data bytes => some (s.writeProcess d bytes)
      | .eof => some (s.relayEof d)
      | .error => some (s.relayClose d)
    else none
  | _ => none

/-- The kernel takes `k` bytes of the write of coroutine `t`: a peer socket while it
    is open, the process socket on the connection that the part was issued on. -/
def onPush (t : Tid) (k : ℕ) : Option Session :=
  match s.peerWrite t with
  | some (d, w) =>
    if w.live = true ∧ s.dstOpen d = true ∧ 0 < k ∧ k ≤ w.rest.length then
      some ((s.accept d (w.rest.take k)).setPeerWrite { w with rest := w.rest.drop k } t)
    else none
  | none =>
    match s.linkWrite t with
    | some w =>
      if w.io = .live ∧ w.gen = s.conns ∧ s.proxyProcessSocket = .connected ∧
          s.link.broken = false ∧ 0 < k ∧ k ≤ w.rest.length then
        some ((s.sendLink w k).setLinkWrite { w with io := .idle, rest := w.rest.drop k } t)
      else none
    | none => none

/-- The kernel hands `k` bytes of the connection to the read of reader `i`. -/
def onPull (i k : ℕ) : Option Session :=
  match s.linkRead i with
  | some r =>
    if r.io = .live ∧ r.gen = s.conns ∧ s.proxyProcessSocket = .connected ∧
        0 < k ∧ k ≤ r.want - r.got.length ∧ k ≤ s.link.inbound.length then
      some ((s.setLink { s.link with inbound := s.link.inbound.drop k }).setLinkRead i
        { r with io := .idle, got := r.got ++ s.link.inbound.take k })
    else none
  | none => none

/-- A composed operation on the process socket that is not complete issues its next
    part, on whatever connection there is now. -/
def onIssue (t : Tid) : Option Session :=
  match s.linkWrite t with
  | some w =>
    if w.io = .idle ∧ w.rest ≠ [] then
      some (s.setLinkWrite { w with gen := s.conns, io := s.issued } t)
    else none
  | none =>
    match t with
    | .reader i =>
      match s.linkRead i with
      | some r =>
        if r.io = .idle ∧ r.got.length < r.want then
          some ((s.noteRead i).setLinkRead i { r with gen := s.conns, io := s.issued })
        else none
      | none => none
    | _ => none

/-- What coroutine `t` awaits has completed: `t` runs to its next suspension. -/
def onComplete : Tid → Option Session
  | .relay d =>
    match (s.way d).relay with
    | .notify w => if w.Finished then some (s.relayDirect d) else none
    | .writeDirect w => if w.Finished then some (s.relayLoop d) else none
    | .writeProcess w => if w.Finished then some (s.relayLoop d) else none
    | .flush gen w =>
      if w.Finished then some ((s.clearFlushed d w).relayReconnect d gen) else none
    | _ => none
  | .reader i =>
    match (s.readers i).pc with
    | .readHead r =>
      if r.Finished then
        let head := ResponseHead.ofBytes r.got
        if head.newDataLen ≠ 0 then some (s.readBody i head) else some (s.dispatch i r.gen head [])
      else none
    | .readBody head r => if r.Finished then some (s.dispatch i r.gen head r.got) else none
    | .writeNew d conn head w => if w.Finished then some (s.actOnHead i d conn head) else none
    | .release d count next w =>
      if w.Finished then some (s.clearReleased i d count next) else none
    | .flushServer gen w =>
      if w.Finished then some ((s.clearFlushed .req w).readerFlushClient i gen) else none
    | .flushClient gen w =>
      if w.Finished then some ((s.clearFlushed .res w).readerReconnect i gen) else none
    | .done => none
  | .connector j =>
    match s.connectors j with
    | .connecting up => if up then some (s.fourTuple2process j) else none
    | .waiting => some (s.connectLoop j)
    | .fourTuple conn w => if w.Finished then some (s.superviseProcess j conn) else none
    | .done => none
  | .detector k =>
    match s.detectors k with
    | .waiting _ .fired => some { s with
        proxyProcessSocket := .closed
        detectors := Function.update s.detectors k .done }
    | .waiting conn .cancelled => some (s.detectLoop k conn)
    | _ => none

/-- What coroutine `t` awaits has failed: `t` runs its error path to the next
    suspension. -/
def onFail : Tid → Option Session
  | .relay d =>
    match (s.way d).relay with
    | .notify w => if w.CanFail then some ((s.breakLink w).relayDirect d) else none
    | .writeDirect w => if w.CanFail then some (s.relayClose d) else none
    | .writeProcess w => if w.CanFail then some ((s.breakLink w).relayFlush d w.gen) else none
    | .flush _ w => if w.CanFail then some (s.relayClose d) else none
    | _ => none
  | .reader i =>
    match (s.readers i).pc with
    | .readHead r | .readBody _ r => if r.CanFail then some (s.readerFailed i r.gen) else none
    | .writeNew _ _ _ w | .release _ _ _ w =>
      if w.CanFail then some (s.graceClose.setReader i .done) else none
    | .flushServer gen w =>
      if w.CanFail then some (s.graceClose.readerFlushClient i gen) else none
    | .flushClient gen w =>
      if w.CanFail then some (s.graceClose.readerReconnect i gen) else none
    | .done => none
  | .connector j =>
    match s.connectors j with
    | .connecting up => if up then none else some (s.setConnector j .waiting)
    | .fourTuple _ w =>
      if w.CanFail then some ((s.breakLink w).setConnector j .done) else none
    | _ => none
  | .detector _ => none

/-- The kernel connects the process socket: a new connection. -/
def onConnect (j : ℕ) : Option Session :=
  if s.connectors j = .connecting false ∧ s.proxyProcessSocket = .opened then
    some { s with
      proxyProcessSocket := .connected
      conns := s.conns + 1
      links := Function.update s.links (s.conns + 1) {}
      connectors := Function.update s.connectors j (.connecting true) }
  else none

/-- The timer expires: the handler of detector `k` is queued. -/
def onExpire (k : ℕ) : Option Session :=
  match s.detectors k with
  | .waiting conn .pending =>
    some { s with detectors := Function.update s.detectors k (.waiting conn .fired) }
  | _ => none

/-- The process sends response `r` on connection `g`. -/
def onRespond (g : ℕ) (r : Response) : Option Session :=
  if 0 < g ∧ g ≤ s.conns then
    some { s with links := Function.update s.links g { s.links g with
      responses := (s.links g).responses ++ [r]
      inbound := (s.links g).inbound ++ r.bytes } }
  else none

/-- One step of the session; `none` where the event cannot happen. -/
def step : Event → Option Session
  | .read d r => s.onRead d r
  | .push t k => s.onPush t k
  | .pull i k => s.onPull i k
  | .issue t => s.onIssue t
  | .complete t => s.onComplete t
  | .fail t => s.onFail t
  | .connect j => s.onConnect j
  | .expire k => s.onExpire k
  | .respond g r => s.onRespond g r

end Session

/-- The text of the four tuple of a client at 127.0.0.1. -/
def localText : List Byte :=
  ("\x7b\"client_ip\":\"127.0.0.1\",\"client_port\":5000," ++
    "\"server_ip\":\"10.0.0.1\",\"server_port\":80\x7d").toList.map fun c => UInt8.ofNat c.toNat

/-- A session for that client, which reads at most 4 bytes at once. -/
def localConf (responseBypass : Bool) : Conf := ⟨4, responseBypass, localText, by decide +kernel⟩

/-- The first connection is up with its reader, and the client has sent a byte
    past the process. -/
def firstUp : List Event :=
  [.connect 0, .complete (.connector 0), .push (.connector 0) 89, .complete (.connector 0),
    .read .req (.data [1]), .push (.relay .req) 1, .complete (.relay .req)]

end CppProxy
