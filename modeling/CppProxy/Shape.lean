/-
  cpp_proxy — what holds of every session.

  `Shape`: at most one `connect_process` is connecting, and only while
  `process_connecting_` is set; the peer sockets are open until `grace_close`
  and every socket is closed from then on; a coroutine that was not spawned
  does nothing.  `shape` is the invariant over all runs.
-/
import CppProxy.Frame

namespace CppProxy

open Session Runs

/-- `connect_process` has passed its guard and is not connected yet. -/
def ConnectorPc.IsConnecting (pc : ConnectorPc) : Prop := (∃ up, pc = .connecting up) ∨ pc = .waiting

/-- What holds of every session. -/
structure Shape (s : Session) : Prop where
  connecting : ∀ j, (s.connectors j).IsConnecting → s.processConnecting = true
  unique : ∀ j j', (s.connectors j).IsConnecting → (s.connectors j').IsConnecting → j = j'
  connectors : ∀ j, s.nConnectors ≤ j → s.connectors j = .done
  readers : ∀ i, s.nReaders ≤ i → (s.readers i).pc = .done
  closed : s.hasClosed = true → s.proxyProcessSocket = .closed
  client : s.proxyClientOpen = !s.hasClosed
  server : s.proxyServerOpen = !s.hasClosed

namespace Shape

variable {s s' : Session}

theorem src (h : Shape s) (d : Dir) : s.srcOpen d = !s.hasClosed := by
  cases d
  exacts [h.client, h.server]

theorem dst (h : Shape s) (d : Dir) : s.dstOpen d = !s.hasClosed := by
  cases d
  exacts [h.server, h.client]

theorem reader_lt (h : Shape s) {i : ℕ} (hi : (s.readers i).pc ≠ .done) : i < s.nReaders := by
  by_contra hn
  exact hi (h.readers i (by omega))

theorem connector_lt (h : Shape s) {j : ℕ} (hj : s.connectors j ≠ .done) : j < s.nConnectors := by
  by_contra hn
  exact hj (h.connectors j (by omega))

/-! ## The functions -/

/-- `Shape` reads the flags, the sockets, the connectors and the readers only. -/
theorem congr {x : Session} (h : Shape s) (hp : x.processConnecting = s.processConnecting)
    (hc : x.hasClosed = s.hasClosed) (hs : x.proxyProcessSocket = s.proxyProcessSocket)
    (hco : x.proxyClientOpen = s.proxyClientOpen) (hso : x.proxyServerOpen = s.proxyServerOpen)
    (hj : x.connectors = s.connectors) (hnj : x.nConnectors = s.nConnectors)
    (hr : x.readers = s.readers) (hnr : x.nReaders = s.nReaders) : Shape x where
  connecting := by rw [hp, hj]; exact h.connecting
  unique := by rw [hj]; exact h.unique
  connectors := by rw [hj, hnj]; exact h.connectors
  readers := by rw [hr, hnr]; exact h.readers
  closed := by rw [hc, hs]; exact h.closed
  client := by rw [hc, hco]; exact h.client
  server := by rw [hc, hso]; exact h.server

theorem graceClose (h : Shape s) : Shape s.graceClose :=
  graceClose_ind (fun _ => h) fun _ =>
    { connecting := h.connecting, unique := h.unique, connectors := h.connectors,
      readers := h.readers, closed := fun _ => rfl, client := rfl, server := rfl }

theorem setWay (h : Shape s) (d : Dir) (w : Way) : Shape (s.setWay d w) :=
  h.congr rfl rfl rfl rfl rfl rfl rfl rfl rfl

theorem setReader (h : Shape s) {i : ℕ} (pc : ReaderPc) (hi : i < s.nReaders) :
    Shape (s.setReader i pc) where
  connecting := h.connecting
  unique := h.unique
  connectors := h.connectors
  readers i' hi' := by
    have : i' ≠ i := by change s.nReaders ≤ i' at hi'; omega
    rw [setReader_readers, Function.update_of_ne this]
    exact h.readers i' hi'
  closed := h.closed
  client := h.client
  server := h.server

/-- A connector goes on, and connects only if it did. -/
theorem setConnector (h : Shape s) {j : ℕ} (pc : ConnectorPc) (hj : j < s.nConnectors)
    (hc : pc.IsConnecting → (s.connectors j).IsConnecting) : Shape (s.setConnector j pc) := by
  have hall : ∀ j', ((s.setConnector j pc).connectors j').IsConnecting →
      (s.connectors j').IsConnecting := by
    intro j' h'
    by_cases hjj : j' = j
    · subst hjj; simp only [Session.setConnector, Function.update_self] at h'; exact hc h'
    · simpa only [Session.setConnector, Function.update_of_ne hjj] using h'
  exact {
    connecting := fun j' h' => h.connecting j' (hall j' h')
    unique := fun j₁ j₂ h₁ h₂ => h.unique j₁ j₂ (hall j₁ h₁) (hall j₂ h₂)
    connectors := fun j' hj' => by
      have : j' ≠ j := by change s.nConnectors ≤ j' at hj'; omega
      simp only [Session.setConnector, Function.update_of_ne this]
      exact h.connectors j' hj'
    readers := h.readers
    closed := h.closed
    client := h.client
    server := h.server }

theorem connectProcess (h : Shape s) (gen : ℕ) : Shape (s.connectProcess gen) := by
  refine connectProcess_ind (fun _ => h) fun hp => ?_
  have hno : ∀ j, ¬ (s.connectors j).IsConnecting := by
    intro j hj
    have := h.connecting j hj; rw [hp] at this; cases this
  have hone : ∀ j, ((s.reconnecting gen).connectors j).IsConnecting → j = s.nConnectors := by
    intro j hj
    by_contra hne
    simp only [reconnecting, Function.update_of_ne hne] at hj
    exact hno j hj
  exact {
    connecting := fun _ _ => rfl
    unique := fun j j' hj hj' => (hone j hj).trans (hone j' hj').symm
    connectors := fun j hj => by
      change s.nConnectors + 1 ≤ j at hj
      simp only [reconnecting, Function.update_of_ne (show j ≠ s.nConnectors by omega)]
      exact h.connectors j (by omega)
    readers := h.readers
    closed := fun hc => by
      change s.hasClosed = true at hc
      simp [reconnecting, hc]
    client := h.client
    server := h.server }

theorem relayLoop (h : Shape s) (d : Dir) : Shape (s.relayLoop d) :=
  relayLoop_ind (fun _ => h.graceClose.setWay d _) (fun _ _ => h.setWay d _)
    (fun _ _ _ _ => h.setWay d _) fun _ _ _ => h.setWay d _

theorem bypass (h : Shape s) (b : Bool) : Shape { s with bypass := b } :=
  h.congr rfl rfl rfl rfl rfl rfl rfl rfl rfl

theorem emit (h : Shape s) (a : Act) : Shape (s.emit a) :=
  h.congr rfl rfl rfl rfl rfl rfl rfl rfl rfl

theorem cancelTimer (h : Shape s) : Shape s.cancelTimer :=
  h.congr rfl rfl rfl rfl rfl rfl rfl rfl rfl

theorem relayEof (h : Shape s) (d : Dir) : Shape (s.relayEof d) := by
  rw [relayEof_eq]
  exact (h.congr (x := { s with eof := true, trace := _ })
    rfl rfl rfl rfl rfl rfl rfl rfl rfl).graceClose.setWay d _

theorem setLink (h : Shape s) (l : Link) : Shape (s.setLink l) :=
  h.congr rfl rfl rfl rfl rfl rfl rfl rfl rfl

theorem breakLink (h : Shape s) (w : LinkWrite) : Shape (s.breakLink w) :=
  breakLink_ind (fun _ => h.congr rfl rfl rfl rfl rfl rfl rfl rfl rfl) fun _ => h

theorem noteRead (h : Shape s) (i : ℕ) : Shape (s.noteRead i) :=
  noteRead_ind (fun _ => h.setLink _) fun _ => h

theorem readHead (h : Shape s) {i : ℕ} (hi : i < s.nReaders) : Shape (s.readHead i) := by
  refine (h.noteRead i).setReader _ ?_
  exact noteRead_ind (P := fun s' => i < s'.nReaders) (fun _ => hi) fun _ => hi

theorem relayReconnect (h : Shape s) (d : Dir) (gen : ℕ) : Shape (s.relayReconnect d gen) :=
  (h.connectProcess gen).relayLoop d

theorem relayFlush (h : Shape s) (d : Dir) (gen : ℕ) : Shape (s.relayFlush d gen) :=
  relayFlush_ind (fun _ => (h.bypass true).relayReconnect d gen)
    fun _ => ((h.bypass true).emit _).setWay d _

theorem readerReconnect (h : Shape s) {i : ℕ} (gen : ℕ) (hi : i < s.nReaders) :
    Shape (s.readerReconnect i gen) :=
  (h.connectProcess gen).setReader _
    (connectProcess_ind (P := fun s' => i < s'.nReaders) (fun _ => hi) fun _ => hi)

theorem readerFlushClient (h : Shape s) {i : ℕ} (gen : ℕ) (hi : i < s.nReaders) :
    Shape (s.readerFlushClient i gen) :=
  readerFlushClient_ind (fun _ => (h.bypass true).readerReconnect gen hi)
    fun _ => ((h.bypass true).emit _).setReader _ hi

theorem readerFlushServer (h : Shape s) {i : ℕ} (gen : ℕ) (hi : i < s.nReaders) :
    Shape (s.readerFlushServer i gen) :=
  readerFlushServer_ind (fun _ => (h.bypass true).readerFlushClient gen hi)
    fun _ => ((h.bypass true).emit _).setReader _ hi

theorem clearFlushed (h : Shape s) (d : Dir) (w : PeerWrite) : Shape (s.clearFlushed d w) :=
  (h.emit _).setWay d _

theorem of_peerWrite (h : Shape s) {t : Tid} {dw : Dir × PeerWrite} (ht : s.peerWrite t = some dw) :
    ∀ i, t = .reader i → i < s.nReaders := by
  rintro i rfl
  refine h.reader_lt fun hd => ?_
  simp [peerWrite, hd, ReaderPc.peerWrite] at ht

theorem of_linkWrite (h : Shape s) {t : Tid} {w : LinkWrite} (ht : s.linkWrite t = some w) :
    ∀ j, t = .connector j → j < s.nConnectors := by
  rintro j rfl
  refine h.connector_lt fun hd => ?_
  simp [linkWrite, hd, ConnectorPc.linkWrite] at ht

theorem of_linkRead (h : Shape s) {i : ℕ} {r : LinkRead} (hr : s.linkRead i = some r) :
    i < s.nReaders := by
  refine h.reader_lt fun hd => ?_
  simp [linkRead, hd, ReaderPc.linkRead] at hr

theorem setPeerWrite (h : Shape s) (w : PeerWrite) {t : Tid}
    (ht : ∀ i, t = .reader i → i < s.nReaders) : Shape (s.setPeerWrite w t) := by
  cases t with
  | relay d => exact h.setWay d _
  | reader i => exact h.setReader _ (ht i rfl)
  | connector j => exact h
  | detector k => exact h

theorem setLinkWrite (h : Shape s) (w : LinkWrite) {t : Tid}
    (ht : ∀ j, t = .connector j → j < s.nConnectors) : Shape (s.setLinkWrite w t) := by
  cases t with
  | relay d => exact h.setWay d _
  | connector j =>
    refine h.setConnector _ (ht j rfl) fun hc => ?_
    cases hpc : s.connectors j <;>
      simp_all [ConnectorPc.setLinkWrite, ConnectorPc.IsConnecting]
  | reader i => exact h
  | detector k => exact h

theorem setLinkRead (h : Shape s) {i : ℕ} (r : LinkRead) (hi : i < s.nReaders) :
    Shape (s.setLinkRead i r) := h.setReader _ hi

theorem actOnHead (h : Shape s) {i conn : ℕ} (d : Dir) (head : ResponseHead)
    (hi : i < s.nReaders) : Shape (s.actOnHead i d conn head) :=
  actOnHead_ind
    (fun _ => h.graceClose.setReader _
      (graceClose_ind (P := fun s' => i < s'.nReaders) (fun _ => hi) fun _ => hi))
    fun _ => (h.setReader _ hi).congr rfl rfl rfl rfl rfl rfl rfl rfl rfl

theorem dispatch (h : Shape s) {i : ℕ} (conn : ℕ) (head : ResponseHead) (buf : List Byte)
    (hi : i < s.nReaders) : Shape (s.dispatch i conn head buf) :=
  dispatch_ind
    (fun d _ => innerProxy_ind (fun _ => ((h.emit _).emit _).setReader _ hi)
      fun _ => (h.emit _).actOnHead d head hi)
    ((h.emit _).cancelTimer.readHead hi) ((h.emit _).readHead hi)

theorem detectLoop (h : Shape s) (k conn : ℕ) : Shape (s.detectLoop k conn) := by
  obtain ⟨ds, hd⟩ := s.detectLoop_detectors k conn
  rw [hd]
  exact h.congr rfl rfl rfl rfl rfl rfl rfl rfl rfl

theorem spawning (h : Shape s) {j : ℕ} (conn : ℕ) (hj : j < s.nConnectors) :
    Shape (s.spawning j conn) := by
  have h₁ := h.setConnector .done hj (by simp [ConnectorPc.IsConnecting])
  exact {
    connecting := h₁.connecting
    unique := h₁.unique
    connectors := h₁.connectors
    readers := fun i hi => by
      change s.nReaders + 1 ≤ i at hi
      simp only [Session.spawning, Function.update_of_ne (show i ≠ s.nReaders by omega)]
      exact h.readers i (by omega)
    closed := h.closed
    client := h.client
    server := h.server }

/-- The reader that is spawned has not started. -/
theorem spawning_pc (h : Shape s) (j conn i : ℕ) :
    ((s.spawning j conn).readers i).pc = (s.readers i).pc := by
  by_cases hi : i = s.nReaders
  · subst hi
    simp [Session.spawning, h.readers _ le_rfl]
  · simp [Session.spawning, hi]

theorem superviseProcess (h : Shape s) {j : ℕ} (conn : ℕ) (hj : j < s.nConnectors) :
    Shape (s.superviseProcess j conn) := by
  obtain ⟨ds, n, hd⟩ := s.superviseProcess_detectors j conn
  rw [hd]
  exact ((h.spawning conn hj).readHead (Nat.lt_succ_self _)).congr
    rfl rfl rfl rfl rfl rfl rfl rfl rfl

/-! ## The steps -/

theorem init (c : Conf) : Shape (Session.init c) :=
  ((Shape.connectProcess
    { connecting := by simp [ConnectorPc.IsConnecting]
      unique := by simp [ConnectorPc.IsConnecting]
      connectors := by simp
      readers := by simp
      closed := by simp
      client := rfl
      server := rfl } 0).relayLoop .req).relayLoop .res

theorem step (h : Shape s) {e : Event} (hr : Rule s e s') : Shape s' := by
  cases hr with
  | gotDirect => rw [writeDirect_eq]; exact h.congr rfl rfl rfl rfl rfl rfl rfl rfl rfl
  | gotProcess => rw [writeProcess_eq]; exact h.congr rfl rfl rfl rfl rfl rfl rfl rfl rfl
  | @readEof d => exact h.relayEof d
  | @readError d => exact h.graceClose.setWay d _
  | pushPeer hw => exact (h.setWay _ _).setPeerWrite _ (h.of_peerWrite hw)
  | pushLink hw => exact (h.setLink _).setLinkWrite _ (h.of_linkWrite hw)
  | pull hr => exact (h.setLink _).setLinkRead _ (h.of_linkRead hr)
  | issueWrite hw => exact h.setLinkWrite _ (h.of_linkWrite hw)
  | @issueRead i r hr =>
    have hi := h.of_linkRead hr
    exact (h.noteRead i).setLinkRead _
      (noteRead_ind (P := fun s' => i < s'.nReaders) (fun _ => hi) fun _ => hi)
  | @notified d => exact h.setWay d _
  | @notifyFailed d w => exact (h.breakLink w).setWay d _
  | @wroteDirect d => exact h.relayLoop d
  | @wroteProcess d => exact h.relayLoop d
  | @processFailed d w => exact (h.breakLink w).relayFlush d _
  | @relayFlushed d gen w => exact (h.clearFlushed d w).relayReconnect d gen
  | @relayWriteFailed d => exact h.graceClose.setWay d _
  | @gotHead i r hpc =>
    have hi := h.reader_lt (i := i) (by rw [hpc]; simp)
    exact (h.noteRead i).setReader _
      (noteRead_ind (P := fun s' => i < s'.nReaders) (fun _ => hi) fun _ => hi)
  | gotHeadOnly hpc => exact h.dispatch _ _ _ (h.reader_lt (by rw [hpc]; simp))
  | gotBody hpc => exact h.dispatch _ _ _ (h.reader_lt (by rw [hpc]; simp))
  | @readFailed i r hr =>
    have hi := h.of_linkRead hr
    exact readerFailed_ind (fun _ => h.setReader _ hi) fun _ => h.readerFlushServer _ hi
  | wroteNew hpc => exact h.actOnHead _ _ (h.reader_lt (by rw [hpc]; simp))
  | @released i d count next w hpc =>
    have hi := h.reader_lt (i := i) (by rw [hpc]; simp)
    exact clearReleased_ind (fun _ _ => (h.setWay d _).readHead hi)
      fun _ => (h.congr (x := { s with undefined := true })
        rfl rfl rfl rfl rfl rfl rfl rfl rfl).readHead hi
  | @readerWriteFailed i d w hpc =>
    have hi : i < s.nReaders := h.reader_lt (by rcases hpc with ⟨_, _, hpc⟩ | ⟨_, _, hpc⟩ <;> simp [hpc])
    exact h.graceClose.setReader _
      (graceClose_ind (P := fun s' => i < s'.nReaders) (fun _ => hi) fun _ => hi)
  | flushedServer hpc =>
    exact (h.clearFlushed _ _).readerFlushClient _ (h.reader_lt (by rw [hpc]; simp))
  | @flushServerFailed i gen w hpc =>
    have hi := h.reader_lt (i := i) (by rw [hpc]; simp)
    exact h.graceClose.readerFlushClient _
      (graceClose_ind (P := fun s' => i < s'.nReaders) (fun _ => hi) fun _ => hi)
  | flushedClient hpc =>
    exact (h.clearFlushed _ _).readerReconnect _ (h.reader_lt (by rw [hpc]; simp))
  | @flushClientFailed i gen w hpc =>
    have hi := h.reader_lt (i := i) (by rw [hpc]; simp)
    exact h.graceClose.readerReconnect _
      (graceClose_ind (P := fun s' => i < s'.nReaders) (fun _ => hi) fun _ => hi)
  | @connected j hpc =>
    have hj := h.connector_lt (j := j) (by rw [hpc]; simp)
    have h₁ := h.setConnector (j := j) (.fourTuple s.conns (s.asyncWriteProcess
      (CppProxy.frame .fourTuple s.fourTuple))) hj (by simp [ConnectorPc.IsConnecting])
    have hno : ∀ j', ¬ ((s.fourTuple2process j).connectors j').IsConnecting := by
      intro j' hj'
      by_cases hjj : j' = j
      · subst hjj
        simp [fourTuple2process, Session.setConnector, ConnectorPc.IsConnecting] at hj'
      · simp only [fourTuple2process, Session.setConnector, Function.update_of_ne hjj] at hj'
        exact hjj (h.unique j' j hj' (.inl ⟨_, hpc⟩))
    exact { connecting := fun j' hj' => absurd hj' (hno j')
            unique := fun j' _ hj' => absurd hj' (hno j')
            connectors := h₁.connectors, readers := h₁.readers, closed := h₁.closed
            client := h₁.client, server := h₁.server }
  | @connectFailed j hpc =>
    exact h.setConnector _ (h.connector_lt (by rw [hpc]; simp)) fun _ => .inl ⟨_, hpc⟩
  | @retry j hpc =>
    have hj := h.connector_lt (j := j) (by rw [hpc]; simp)
    refine connectLoop_ind (fun _ => h.setConnector _ hj (by simp [ConnectorPc.IsConnecting]))
      fun ho => ?_
    have h₁ := h.setConnector (.connecting false) hj fun _ => .inr hpc
    exact { connecting := h₁.connecting, unique := h₁.unique, connectors := h₁.connectors
            readers := h₁.readers
            closed := fun hc => by change s.hasClosed = true at hc; simp [ho] at hc
            client := h₁.client, server := h₁.server }
  | @wroteTuple j conn w hpc =>
    exact h.superviseProcess conn (h.connector_lt (by rw [hpc]; simp))
  | @tupleFailed j conn w hpc =>
    refine (h.breakLink w).setConnector _ ?_ (by simp [ConnectorPc.IsConnecting])
    have hj := h.connector_lt (j := j) (by rw [hpc]; simp)
    exact breakLink_ind (P := fun s' => j < s'.nConnectors) (fun _ => hj) fun _ => hj
  | timedOut =>
    exact { connecting := h.connecting, unique := h.unique, connectors := h.connectors
            readers := h.readers, closed := fun _ => rfl, client := h.client, server := h.server }
  | rearm => exact h.detectLoop _ _
  | @connect j hpc hs =>
    have hj := h.connector_lt (j := j) (by rw [hpc]; simp)
    have h₁ := h.setConnector (.connecting true) hj fun _ => .inl ⟨_, hpc⟩
    exact { connecting := h₁.connecting, unique := h₁.unique, connectors := h₁.connectors
            readers := h₁.readers
            closed := fun hc => by
              have := h.closed hc
              rw [hs] at this; cases this
            client := h₁.client, server := h₁.server }
  | expire => exact h.congr rfl rfl rfl rfl rfl rfl rfl rfl rfl
  | respond => exact h.congr rfl rfl rfl rfl rfl rfl rfl rfl rfl

end Shape

/-- **The shape of a session holds in every run.** -/
theorem shape {C : Session → Event → Prop} {c : Conf} {s : Session}
    (h : Reach Session.step C (Session.init c) s) : Shape s :=
  h.inv (Shape.init c) fun _ _ _ hs _ he => hs.step (rule_of_step he)

end CppProxy
