/-
  cpp_proxy — the stretches of code, branch by branch.

  One rule for each function on `Session` with branches: a property holds of
  what the function returns if it holds of what each branch returns, under the
  conditions that the code tests.  The invariants of the next modules are carried
  through the functions with these rules and never unfold them.
-/
import CppProxy.Rules

namespace CppProxy

namespace Session

variable {s : Session} {P : Session → Prop}

@[simp] theorem setWay_way (s : Session) (d : Dir) (w : Way) :
    (s.setWay d w).way = Function.update s.way d w := rfl

@[simp] theorem setRelay_way (s : Session) (d : Dir) (pc : RelayPc) :
    (s.setRelay d pc).way = Function.update s.way d { s.way d with relay := pc } := rfl

@[simp] theorem setReader_readers (s : Session) (i : ℕ) (pc : ReaderPc) :
    (s.setReader i pc).readers = Function.update s.readers i { s.readers i with pc } := rfl

@[simp] theorem emit_way (s : Session) (a : Act) : (s.emit a).way = s.way := rfl

@[simp] theorem emit_readers (s : Session) (a : Act) : (s.emit a).readers = s.readers := rfl

@[simp] theorem setLink_link (s : Session) (l : Link) : (s.setLink l).link = l := by
  simp [setLink, link]

@[simp] theorem setWay_link (s : Session) (d : Dir) (w : Way) : (s.setWay d w).link = s.link := rfl

@[simp] theorem setReader_link (s : Session) (i : ℕ) (pc : ReaderPc) :
    (s.setReader i pc).link = s.link := rfl

theorem graceClose_ind (hc : s.hasClosed = true → P s)
    (ho : s.hasClosed = false → P { s.cancelTimer with
      hasClosed := true
      proxyClientOpen := false
      proxyServerOpen := false
      proxyProcessSocket := .closed }) : P s.graceClose := by
  unfold graceClose
  cases h : s.hasClosed with
  | true => exact hc h
  | false => exact ho h

@[simp] theorem graceClose_connecting (s : Session) :
    s.graceClose.processConnecting = s.processConnecting :=
  graceClose_ind (P := fun s' => s'.processConnecting = s.processConnecting) (fun _ => rfl)
    fun _ => rfl

/-- The session once `connect_process` has passed its guard. -/
def reconnecting (s : Session) (gen : ℕ) : Session :=
  { s with
    processConnecting := true
    proxyProcessSocket := if s.hasClosed then .closed else .opened
    way := fun d => { s.way d with handledTotalPkgLen := 0 }
    detectors := s.cancelTimer.detectors
    connectors := Function.update s.connectors s.nConnectors
      (if s.hasClosed then .done else .connecting false)
    nConnectors := s.nConnectors + 1
    trace := s.trace ++ [.reconnect gen s.conns] }

theorem connectProcess_eq (s : Session) (gen : ℕ) :
    s.connectProcess gen = if s.processConnecting then s else s.reconnecting gen := by
  unfold connectProcess
  have hw : ∀ w : Dir → Way, Function.update (Function.update w .req
      { w .req with handledTotalPkgLen := 0 }) .res { w .res with handledTotalPkgLen := 0 } =
      fun d => { w d with handledTotalPkgLen := 0 } := by
    intro w; funext d; cases d <;> simp
  split
  · rfl
  · cases hc : s.hasClosed <;>
      simp [reconnecting, connectLoop, asyncConnect, setConnector, cancelTimer, resetLocalSocket,
        emit, setWay, hc, ← hw]

theorem connectProcess_ind {gen : ℕ} (hc : s.processConnecting = true → P s)
    (ho : s.processConnecting = false → P (s.reconnecting gen)) : P (s.connectProcess gen) := by
  rw [connectProcess_eq]
  cases h : s.processConnecting with
  | true => simpa using hc h
  | false => simpa using ho h

theorem connectProcess_connecting (s : Session) (gen : ℕ) :
    (s.connectProcess gen).processConnecting = true :=
  connectProcess_ind (P := fun s' => s'.processConnecting = true) id fun _ => rfl

/-- The relay loop closes the session, or goes on to read for the bypass path,
    to notify the process, or to read for the process. -/
theorem relayLoop_ind {d : Dir} (hdone : s.eof = true → P (s.graceClose.setRelay d .done))
    (hdirect : s.eof = false → s.bypass = true → P (s.relayDirect d))
    (hnotify : s.eof = false → s.bypass = false → d = .res → s.responseBypass = true →
      P (s.setRelay d (.notify (s.asyncWriteProcess (frame .fromServerToClient [])))))
    (hprocess : s.eof = false → s.bypass = false → (d = .res → s.responseBypass = false) →
      P (s.innerClientOrServer2proxy2process d)) : P (s.relayLoop d) := by
  cases d with
  | req =>
    simp only [relayLoop, clientRequest]
    cases he : s.eof with
    | true => exact hdone he
    | false =>
      cases hb : s.bypass with
      | true => exact hdirect he hb
      | false => exact hprocess he hb (by simp)
  | res =>
    simp only [relayLoop, serverResponse]
    cases he : s.eof with
    | true => exact hdone he
    | false =>
      cases hb : s.bypass with
      | true => exact hdirect he hb
      | false =>
        cases hr : s.responseBypass with
        | true => exact hnotify he hb rfl hr
        | false => exact hprocess he hb fun _ => hr

theorem relayLoop_connecting (s : Session) (d : Dir) :
    (s.relayLoop d).processConnecting = s.processConnecting :=
  relayLoop_ind (P := fun s' => s'.processConnecting = s.processConnecting)
    (fun _ => graceClose_connecting s) (fun _ _ => rfl) (fun _ _ _ _ => rfl) fun _ _ _ => rfl

theorem relayFlush_ind {d : Dir} {gen : ℕ}
    (he : (s.way d).storedData = [] → P ({ s with bypass := true }.relayReconnect d gen))
    (hf : (s.way d).storedData ≠ [] → P (({ s with bypass := true }.emit
      (.flush d (s.dstOpen d) (storedBytes (s.way d).storedData))).setRelay d
        (.flush gen (s.asyncWrite d (storedBytes (s.way d).storedData))))) :
    P (s.relayFlush d gen) := by
  unfold relayFlush
  dsimp only
  split
  · exact he ‹_›
  · exact hf ‹_›

theorem readerFlushClient_ind {i gen : ℕ}
    (he : (s.way .res).storedData = [] → P ({ s with bypass := true }.readerReconnect i gen))
    (hf : (s.way .res).storedData ≠ [] → P (({ s with bypass := true }.emit
      (.flush .res (s.dstOpen .res) (storedBytes (s.way .res).storedData))).setReader i
        (.flushClient gen (s.asyncWrite .res (storedBytes (s.way .res).storedData))))) :
    P (s.readerFlushClient i gen) := by
  unfold readerFlushClient
  dsimp only
  split
  · exact he ‹_›
  · exact hf ‹_›

theorem readerFlushServer_ind {i gen : ℕ}
    (he : (s.way .req).storedData = [] → P ({ s with bypass := true }.readerFlushClient i gen))
    (hf : (s.way .req).storedData ≠ [] → P (({ s with bypass := true }.emit
      (.flush .req (s.dstOpen .req) (storedBytes (s.way .req).storedData))).setReader i
        (.flushServer gen (s.asyncWrite .req (storedBytes (s.way .req).storedData))))) :
    P (s.readerFlushServer i gen) := by
  unfold readerFlushServer
  dsimp only
  split
  · exact he ‹_›
  · exact hf ‹_›

theorem readerFailed_ind {i gen : ℕ} (hc : s.hasClosed = true → P (s.setReader i .done))
    (ho : s.hasClosed = false → P (s.readerFlushServer i gen)) : P (s.readerFailed i gen) := by
  unfold readerFailed
  cases h : s.hasClosed with
  | true => exact hc h
  | false => exact ho h

theorem noteRead_ind {i : ℕ}
    (hl : s.proxyProcessSocket = .connected →
      P (s.setLink { s.link with readers := i :: s.link.readers }))
    (hn : s.proxyProcessSocket ≠ .connected → P s) : P (s.noteRead i) := by
  unfold noteRead
  split
  · exact hl ‹_›
  · exact hn ‹_›

@[simp] theorem noteRead_conns (s : Session) (i : ℕ) : (s.noteRead i).conns = s.conns :=
  noteRead_ind (P := fun s' => s'.conns = s.conns) (fun _ => rfl) fun _ => rfl

@[simp] theorem noteRead_readers (s : Session) (i : ℕ) : (s.noteRead i).readers = s.readers :=
  noteRead_ind (P := fun s' => s'.readers = s.readers) (fun _ => rfl) fun _ => rfl

@[simp] theorem noteRead_way (s : Session) (i : ℕ) : (s.noteRead i).way = s.way :=
  noteRead_ind (P := fun s' => s'.way = s.way) (fun _ => rfl) fun _ => rfl

@[simp] theorem noteRead_hasClosed (s : Session) (i : ℕ) :
    (s.noteRead i).hasClosed = s.hasClosed :=
  noteRead_ind (P := fun s' => s'.hasClosed = s.hasClosed) (fun _ => rfl) fun _ => rfl

@[simp] theorem noteRead_connectors (s : Session) (i : ℕ) :
    (s.noteRead i).connectors = s.connectors :=
  noteRead_ind (P := fun s' => s'.connectors = s.connectors) (fun _ => rfl) fun _ => rfl

theorem noteRead_asyncReadProcess (s : Session) (i want : ℕ) :
    (s.noteRead i).asyncReadProcess want = s.asyncReadProcess want :=
  noteRead_ind (P := fun s' => s'.asyncReadProcess want = s.asyncReadProcess want)
    (fun _ => rfl) fun _ => rfl

theorem noteRead_issued (s : Session) (i : ℕ) : (s.noteRead i).issued = s.issued :=
  noteRead_ind (P := fun s' => s'.issued = s.issued) (fun _ => rfl) fun _ => rfl

/-- A reader that starts to read a head leaves its program point. -/
theorem readHead_setReader (s : Session) (i : ℕ) (pc : ReaderPc) :
    (s.setReader i pc).readHead i = s.readHead i := by
  unfold readHead noteRead setReader setLink link asyncReadProcess issued
  dsimp only
  split <;> simp

theorem breakLink_ind {w : LinkWrite}
    (hl : w.io = .live → P { s with
      links := Function.update s.links w.gen { s.links w.gen with broken := true } })
    (hn : w.io ≠ .live → P s) : P (s.breakLink w) := by
  unfold breakLink
  split
  · exact hl ‹_›
  · exact hn ‹_›

@[simp] theorem breakLink_way (s : Session) (w : LinkWrite) : (s.breakLink w).way = s.way :=
  breakLink_ind (P := fun s' => s'.way = s.way) (fun _ => rfl) fun _ => rfl

@[simp] theorem breakLink_readers (s : Session) (w : LinkWrite) :
    (s.breakLink w).readers = s.readers :=
  breakLink_ind (P := fun s' => s'.readers = s.readers) (fun _ => rfl) fun _ => rfl

@[simp] theorem breakLink_nReaders (s : Session) (w : LinkWrite) :
    (s.breakLink w).nReaders = s.nReaders :=
  breakLink_ind (P := fun s' => s'.nReaders = s.nReaders) (fun _ => rfl) fun _ => rfl

@[simp] theorem breakLink_hasClosed (s : Session) (w : LinkWrite) :
    (s.breakLink w).hasClosed = s.hasClosed :=
  breakLink_ind (P := fun s' => s'.hasClosed = s.hasClosed) (fun _ => rfl) fun _ => rfl

@[simp] theorem breakLink_connecting (s : Session) (w : LinkWrite) :
    (s.breakLink w).processConnecting = s.processConnecting :=
  breakLink_ind (P := fun s' => s'.processConnecting = s.processConnecting) (fun _ => rfl)
    fun _ => rfl

@[simp] theorem noteRead_connecting (s : Session) (i : ℕ) :
    (s.noteRead i).processConnecting = s.processConnecting :=
  noteRead_ind (P := fun s' => s'.processConnecting = s.processConnecting) (fun _ => rfl)
    fun _ => rfl

@[simp] theorem graceClose_hasClosed (s : Session) : s.graceClose.hasClosed = true :=
  graceClose_ind (P := fun s' => s'.hasClosed = true) id fun _ => rfl

/-- A complete response: act on it, or go on to the next one. -/
theorem dispatch_ind {i conn : ℕ} {head : ResponseHead} {buf : List Byte}
    (hp : ∀ d, DataType.ofCode head.type = some d.dataType →
      P ((s.emit (.response i head)).innerProxy2clientOr2server i d conn head buf))
    (hh : P ((s.emit (.response i head)).cancelTimer.readHead i))
    (hn : P ((s.emit (.response i head)).readHead i)) : P (s.dispatch i conn head buf) := by
  unfold dispatch
  dsimp only
  split
  · exact hp .req ‹_›
  · exact hp .res ‹_›
  · exact hh
  · exact hn

theorem innerProxy_ind {i conn : ℕ} {d : Dir} {head : ResponseHead} {buf : List Byte}
    (hn : head.newDataLen ≠ 0 → P ((s.emit (.newData d (s.dstOpen d) buf)).setReader i
      (.writeNew d conn head (s.asyncWrite d buf))))
    (ha : head.newDataLen = 0 → P (s.actOnHead i d conn head)) :
    P (s.innerProxy2clientOr2server i d conn head buf) := by
  unfold innerProxy2clientOr2server
  split
  · exact hn ‹_›
  · exact ha (not_not.1 ‹_›)

/-- The session once the released buffers are being written. -/
def releasing (s : Session) (i : ℕ) (d : Dir) (conn : ℕ) (head : ResponseHead)
    (r : Prepared) : Session :=
  { s with
    undefined := s.undefined || !decide (CutInside head.handledTotalPkgLen
      (s.way d).handledTotalPkgLen (s.way d).storedData)
    way := Function.update s.way d { s.way d with handledTotalPkgLen := r.handledTotalPkgLen }
    trace := s.trace ++ [.release d (s.dstOpen d) conn head.handledTotalPkgLen
      (s.way d).handledTotalPkgLen r.handledTotalPkgLen r.nextPkgUsedSize r.bytes]
    readers := Function.update s.readers i { s.readers i with
      pc := .release d r.handledPkgCount r.nextPkgUsedSize (s.asyncWrite d r.bytes) } }

theorem actOnHead_ind {i conn : ℕ} {d : Dir} {head : ResponseHead}
    (hb : head.act = Action.block.code → P (s.graceClose.setReader i .done))
    (hr : head.act ≠ Action.block.code → P (s.releasing i d conn head
      (prepareTransferPacket head (s.way d).storedData (s.way d).handledTotalPkgLen))) :
    P (s.actOnHead i d conn head) := by
  unfold actOnHead
  split
  · exact hb ‹_›
  · exact hr ‹_›

theorem clearReleased_ind {i count : ℕ} {d : Dir} {next : Int32}
    (hs : ∀ stored, clearHandledPacket (s.way d).storedData count next = some stored →
      P ((s.setStored d stored).readHead i))
    (hu : clearHandledPacket (s.way d).storedData count next = none →
      P ({ s with undefined := true }.readHead i)) : P (s.clearReleased i d count next) := by
  unfold clearReleased
  split
  · exact hs _ ‹_›
  · exact hu ‹_›

/-- The relay has read `data`, and writes it to the peer. -/
theorem writeDirect_eq (s : Session) (d : Dir) (data : List Byte) : s.writeDirect d data =
    { s with
      way := Function.update s.way d { s.way d with
        received := (s.way d).received ++ data
        relay := .writeDirect (s.asyncWrite d data) }
      trace := s.trace ++ [.got d s.bypass data, .direct d (s.dstOpen d) data] } := by
  simp only [writeDirect, emit, setWay, setRelay, Function.update_self, Function.update_idem,
    List.append_assoc, List.cons_append, List.nil_append, asyncWrite]
  rfl

/-- The current connection, once a frame with payload `data` was issued. -/
def framed (s : Session) (d : Dir) (data : List Byte) : ℕ → Link :=
  if s.proxyProcessSocket = .connected then
    Function.update s.links s.conns { s.link with
      frames := Function.update s.link.frames d (s.link.frames d ++ [data]) }
  else s.links

/-- The relay has read `data`, stores it and writes its frame to the process. -/
theorem writeProcess_eq (s : Session) (d : Dir) (data : List Byte) : s.writeProcess d data =
    { s with
      way := Function.update s.way d { s.way d with
        received := (s.way d).received ++ data
        storedData := (s.way d).storedData ++ [Packet.ofData data]
        block := (s.way d).block.map fun b => b.updateAvailable (UInt32.ofNat data.length + 5)
        relay := .writeProcess (s.asyncWriteProcess (frame d.dataType data)) }
      links := s.framed d data
      trace := s.trace ++ [.got d s.bypass data, .frame d data] } := by
  unfold writeProcess framed
  dsimp only [emit, setWay, setLink, link]
  split <;> simp [asyncWriteProcess, issued]

theorem relayEof_eq (s : Session) (d : Dir) : s.relayEof d =
    Session.setRelay (Session.graceClose { s with
      eof := true
      trace := s.trace ++ [.eof d (s.way d).received (s.way d).accepted] }) d .done := by
  unfold relayEof
  cases d <;> rfl

theorem connectLoop_ind {j : ℕ} (hc : s.hasClosed = true → P (s.setConnector j .done))
    (ho : s.hasClosed = false → P (s.asyncConnect j)) : P (s.connectLoop j) := by
  unfold connectLoop
  cases h : s.hasClosed with
  | true => exact hc h
  | false => exact ho h

/-- `detect_process_timeout` moves detectors only. -/
theorem detectLoop_detectors (s : Session) (i conn : ℕ) :
    ∃ detectors, s.detectLoop i conn = { s with detectors } := by
  unfold detectLoop
  split
  exacts [⟨_, rfl⟩, ⟨_, rfl⟩]

/-- The session once connector `j` has spawned the reader of connection `conn`. -/
def spawning (s : Session) (j conn : ℕ) : Session :=
  { s with
    connectors := Function.update s.connectors j .done
    readers := Function.update s.readers s.nReaders { home := conn, pc := .done }
    nReaders := s.nReaders + 1 }

theorem superviseProcess_detectors (s : Session) (j conn : ℕ) : ∃ detectors nDetectors,
    s.superviseProcess j conn =
      { (s.spawning j conn).readHead s.nReaders with detectors, nDetectors } := by
  obtain ⟨ds, hd⟩ := detectLoop_detectors { (s.spawning j conn).readHead s.nReaders with
    nDetectors := ((s.spawning j conn).readHead s.nReaders).nDetectors + 1 }
    ((s.spawning j conn).readHead s.nReaders).nDetectors conn
  exact ⟨ds, _, hd⟩

/-! ## `process_connecting_` -/

theorem actOnHead_connecting (s : Session) (i : ℕ) (d : Dir) (conn : ℕ) (head : ResponseHead) :
    (s.actOnHead i d conn head).processConnecting = s.processConnecting :=
  actOnHead_ind (P := fun s' => s'.processConnecting = s.processConnecting)
    (fun _ => graceClose_connecting s) fun _ => rfl

theorem dispatch_connecting (s : Session) (i conn : ℕ) (head : ResponseHead) (buf : List Byte) :
    (s.dispatch i conn head buf).processConnecting = s.processConnecting :=
  dispatch_ind (P := fun s' => s'.processConnecting = s.processConnecting)
    (fun d _ => innerProxy_ind (P := fun s' => s'.processConnecting = s.processConnecting)
      (fun _ => rfl) fun _ => actOnHead_connecting _ i d conn head)
    (noteRead_connecting _ i) (noteRead_connecting _ i)

theorem clearReleased_connecting (s : Session) (i : ℕ) (d : Dir) (count : ℕ) (next : Int32) :
    (s.clearReleased i d count next).processConnecting = s.processConnecting :=
  clearReleased_ind (P := fun s' => s'.processConnecting = s.processConnecting)
    (fun _ _ => noteRead_connecting _ i) fun _ => noteRead_connecting { s with undefined := true } i

theorem connectLoop_connecting (s : Session) (j : ℕ) :
    (s.connectLoop j).processConnecting = s.processConnecting :=
  connectLoop_ind (P := fun s' => s'.processConnecting = s.processConnecting) (fun _ => rfl)
    fun _ => rfl

theorem superviseProcess_connecting (s : Session) (j conn : ℕ) :
    (s.superviseProcess j conn).processConnecting = s.processConnecting := by
  obtain ⟨ds, n, hd⟩ := s.superviseProcess_detectors j conn
  rw [hd]
  exact noteRead_connecting (s.spawning j conn) s.nReaders

theorem superviseProcess_connectors (s : Session) (j conn : ℕ) :
    (s.superviseProcess j conn).connectors = Function.update s.connectors j .done := by
  obtain ⟨ds, n, hd⟩ := s.superviseProcess_detectors j conn
  rw [hd]
  exact noteRead_connectors (s.spawning j conn) s.nReaders

end Session

end CppProxy
