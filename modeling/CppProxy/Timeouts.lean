/-
  cpp_proxy — timeouts of the process (session.hpp).

  `detect_process_timeout` waits on a timer that it shares with the detectors of
  earlier connections, and closes whatever socket `proxy_process_socket_` is when
  the timer expires.  Cancelling the timer does not recall an expiry that is
  queued, and a detector that was cancelled waits again if a connection is up by
  the time it is resumed.

  * `Session.ClosesOwn`: a detector closes the connection that it was spawned for;
  * `Timely`: no `connect_process` starts while an expiry is queued, and a
    detector starts to wait only for the current connection;
  * `Attentive`: then every wait that can expire is for the current connection;
  * `closesOwn_of_timely`: and a timeout closes no other.
-/
import CppProxy.Block
import CppProxy.OneConnection

namespace CppProxy

open Session Runs

/-! ## The condition -/

/-- A reader is in its last flush, when the queue to the client is `stored`. -/
def ReaderPc.LastFlush (stored : List Packet) : ReaderPc → Prop
  | flushServer _ _ => stored = []
  | flushClient _ _ => True
  | _ => False

instance (stored : List Packet) : ∀ pc : ReaderPc, Decidable (pc.LastFlush stored)
  | .flushServer _ _ => inferInstanceAs (Decidable (_ = _))
  | .flushClient _ _ => inferInstanceAs (Decidable True)
  | .readHead _ | .readBody _ _ | .writeNew _ _ _ _ | .release _ _ _ _ | .done =>
    inferInstanceAs (Decidable False)

namespace Session

variable (s : Session)

/-- A detector that closes a socket closes the connection that it was spawned for. -/
def ClosesOwn : Prop :=
  ∀ k conn w s', s.detectors k = .waiting conn w → s.step (.complete (.detector k)) = some s' →
    s.proxyProcessSocket ≠ .closed → s'.proxyProcessSocket = .closed →
      s.proxyProcessSocket = .connected ∧ s.conns = conn

/-- No expiry is queued. -/
def NoExpiry : Prop := ∀ k < s.nDetectors, ¬ (s.detectors k).Fired

instance : Decidable s.NoExpiry := inferInstanceAs (Decidable (∀ _ < _, _))

/-- The coroutine that is resumed calls `connect_process`: its write or its read
    failed and there is nothing to flush, or it has flushed. -/
def Reconnects : Event → Prop
  | .complete (.relay d) => (s.way d).relay.IsFlush
  | .fail (.relay d) => (s.way d).relay.IsWriteProcess ∧ (s.way d).storedData = []
  | .complete (.reader i) => (s.readers i).pc.LastFlush (s.way .res).storedData
  | .fail (.reader i) => (s.linkRead i).isSome ∧ ∀ d, (s.way d).storedData = []
  | _ => False

instance : ∀ e, Decidable (s.Reconnects e)
  | .complete (.relay _) => inferInstanceAs (Decidable (RelayPc.IsFlush _))
  | .fail (.relay _) => inferInstanceAs (Decidable (_ ∧ _))
  | .complete (.reader _) => inferInstanceAs (Decidable (ReaderPc.LastFlush _ _))
  | .fail (.reader _) => inferInstanceAs (Decidable (_ ∧ _))
  | .complete (.connector _) | .complete (.detector _) | .fail (.connector _)
  | .fail (.detector _) | .read _ _ | .push _ _ | .pull _ _ | .issue _ | .connect _ | .expire _
  | .respond _ _ => inferInstanceAs (Decidable False)

/-- A detector that starts to wait: one that was cancelled, or that is spawned. -/
def waitsFor : Event → Option ℕ
  | .complete (.detector k) => match s.detectors k with
    | .waiting conn .cancelled => some conn
    | _ => none
  | .complete (.connector j) => match s.connectors j with
    | .fourTuple conn _ => some conn
    | _ => none
  | _ => none

end Session

/-- While the session is open, no `connect_process` starts with an expiry queued,
    and with the process connected a detector waits for that connection. -/
def Timely (s : Session) (e : Event) : Prop :=
  s.hasClosed = false → s.processConnecting = false →
    (s.Reconnects e → s.NoExpiry) ∧ ∀ conn ∈ s.waitsFor e, conn = s.conns

instance (s : Session) (e : Event) : Decidable (Timely s e) :=
  inferInstanceAs (Decidable (_ → _ → _ ∧ _))

/-! ## What every run keeps -/

/-- A wait that can expire is for the current connection, while no `connect_process`
    is under way; a socket that is opened is being connected. -/
structure Watches (s : Session) : Prop where
  armed : ∀ k conn w, s.detectors k = .waiting conn w → w ≠ .cancelled →
    s.processConnecting = false ∧ conn = s.conns
  spawned : ∀ k, s.nDetectors ≤ k → s.detectors k = .done
  opened : s.proxyProcessSocket = .opened →
    ∃ j, s.connectors j = .connecting false ∨ s.connectors j = .waiting

/-- An open session watches its connection. -/
def Attentive (s : Session) : Prop := s.hasClosed = false → Watches s

namespace Watches

variable {s : Session}

theorem congr {x : Session} (h : Watches s) (hd : x.detectors = s.detectors)
    (hn : x.nDetectors = s.nDetectors) (hp : x.processConnecting = s.processConnecting)
    (hc : x.conns = s.conns) (hs : x.proxyProcessSocket = s.proxyProcessSocket)
    (hj : x.connectors = s.connectors) : Watches x where
  armed := by rw [hd, hp, hc]; exact h.armed
  spawned := by rw [hd, hn]; exact h.spawned
  opened := by rw [hs, hj]; exact h.opened

/-- A detector that waits was spawned. -/
theorem lt_of_waiting (h : Watches s) {k conn : ℕ} {w : Wait}
    (hk : s.detectors k = .waiting conn w) : k < s.nDetectors := by
  by_contra hle
  rw [h.spawned k (Nat.not_lt.1 hle)] at hk
  cases hk

/-- While `connect_process` is under way, all waits are cancelled. -/
theorem cancelled (h : Watches s) (hp : s.processConnecting = true) {k conn : ℕ} {w : Wait}
    (hk : s.detectors k = .waiting conn w) : w = .cancelled := by
  by_contra hne
  exact Bool.false_ne_true ((h.armed k conn w hk hne).1.symm.trans hp)

/-- Cancelled waits cannot expire. -/
theorem cancelTimer (h : Watches s) : Watches s.cancelTimer where
  armed k conn w hk hw := by
    refine h.armed k conn w ?_ hw
    simp only [Session.cancelTimer] at hk
    split at hk
    · cases hk; exact absurd rfl hw
    · exact hk
  spawned k hk := by simp [Session.cancelTimer, h.spawned k hk]
  opened := h.opened

/-- A detector goes on. -/
theorem setDetector (h : Watches s) {k : ℕ} {pc : DetectorPc} (hk : k < s.nDetectors)
    (hpc : ∀ conn w, pc = .waiting conn w → w ≠ .cancelled →
      s.processConnecting = false ∧ conn = s.conns) :
    Watches { s with detectors := Function.update s.detectors k pc } where
  armed k' conn w hk' hw := by
    by_cases hkk : k' = k
    · subst hkk
      exact hpc conn w (by simpa using hk') hw
    · exact h.armed k' conn w (by simpa [hkk] using hk') hw
  spawned k' hk' := by
    have hkk : k' ≠ k := by
      have hle : s.nDetectors ≤ k' := hk'
      omega
    simpa [hkk] using h.spawned k' hk'
  opened := h.opened

/-- A connector goes on that does not open the socket. -/
theorem setConnector (h : Watches s) {j : ℕ} {pc : ConnectorPc}
    (hj : s.connectors j = .connecting false ∨ s.connectors j = .waiting →
      pc = .connecting false ∨ pc = .waiting) : Watches (s.setConnector j pc) where
  armed := h.armed
  spawned := h.spawned
  opened ho := by
    obtain ⟨j', hj'⟩ := h.opened ho
    refine ⟨j', ?_⟩
    by_cases hjj : j' = j
    · subst hjj
      simpa [Session.setConnector] using hj hj'
    · simpa [Session.setConnector, hjj] using hj'

/-- `detect_process_timeout` waits. -/
theorem detectLoop (h : Watches s) {k conn : ℕ} (hk : k < s.nDetectors)
    (hc : s.processConnecting = false → conn = s.conns) : Watches (s.detectLoop k conn) := by
  unfold Session.detectLoop
  split
  · rename_i ho
    simp only [Bool.and_eq_true, Bool.not_eq_true'] at ho
    refine h.cancelTimer.setDetector hk fun conn' w hw _ => ?_
    cases hw
    exact ⟨ho.2, hc ho.2⟩
  · exact h.setDetector hk fun conn' w hw => by cases hw

end Watches

/-! ## The functions -/

namespace Attentive

variable {s s' : Session}

theorem of_closed (hc : s.hasClosed = true) : Attentive s :=
  fun ho => absurd (ho.symm.trans hc) Bool.false_ne_true

/-- The detectors, the connectors and the process socket do not change. -/
theorem congr {x : Session} (h : Attentive s) (hc : x.hasClosed = s.hasClosed)
    (hd : x.detectors = s.detectors) (hn : x.nDetectors = s.nDetectors)
    (hp : x.processConnecting = s.processConnecting) (hg : x.conns = s.conns)
    (hs : x.proxyProcessSocket = s.proxyProcessSocket) (hj : x.connectors = s.connectors) :
    Attentive x :=
  fun ho => (h (hc.symm.trans ho)).congr hd hn hp hg hs hj

theorem emit (h : Attentive s) (a : Act) : Attentive (s.emit a) :=
  h.congr rfl rfl rfl rfl rfl rfl rfl

theorem setWay (h : Attentive s) (d : Dir) (w : Way) : Attentive (s.setWay d w) :=
  h.congr rfl rfl rfl rfl rfl rfl rfl

theorem setReader (h : Attentive s) (i : ℕ) (pc : ReaderPc) : Attentive (s.setReader i pc) :=
  h.congr rfl rfl rfl rfl rfl rfl rfl

theorem bypass (h : Attentive s) : Attentive { s with bypass := true } :=
  h.congr rfl rfl rfl rfl rfl rfl rfl

theorem breakLink (h : Attentive s) (w : LinkWrite) : Attentive (s.breakLink w) :=
  breakLink_ind (fun _ => h.congr rfl rfl rfl rfl rfl rfl rfl) fun _ => h

theorem noteRead (h : Attentive s) (i : ℕ) : Attentive (s.noteRead i) :=
  noteRead_ind (fun _ => h.congr rfl rfl rfl rfl rfl rfl rfl) fun _ => h

theorem readHead (h : Attentive s) (i : ℕ) : Attentive (s.readHead i) :=
  (h.noteRead i).setReader i _

theorem graceClose (s : Session) : Attentive s.graceClose := of_closed (graceClose_hasClosed s)

theorem relayClose (s : Session) (d : Dir) : Attentive (s.relayClose d) :=
  (graceClose s).setWay d _

theorem cancelTimer (h : Attentive s) : Attentive s.cancelTimer := fun ho => (h ho).cancelTimer

/-- `connect_process` starts: no wait can expire any more. -/
theorem connectProcess (h : Attentive s)
    (hq : s.hasClosed = false → s.processConnecting = false → s.NoExpiry) (gen : ℕ) :
    Attentive (s.connectProcess gen) := by
  refine connectProcess_ind (P := Attentive) (fun _ => h) fun hp ho => ?_
  have hw : Watches s := h ho
  have hnone : ∀ k conn w, (s.reconnecting gen).detectors k = .waiting conn w → w = .cancelled := by
    intro k conn w hk
    by_contra hne
    have harmed := hw.cancelTimer.armed k conn w hk hne
    simp only [reconnecting, Session.cancelTimer] at hk
    split at hk
    · cases hk; exact hne rfl
    · rename_i hpend
      cases w with
      | pending => exact hpend conn hk
      | fired => exact hq ho hp k (hw.lt_of_waiting hk) (by rw [hk]; trivial)
      | cancelled => exact hne rfl
  refine ⟨fun k conn w hk hne => absurd (hnone k conn w hk) hne,
    (hw.cancelTimer).spawned, fun _ => ⟨s.nConnectors, .inl ?_⟩⟩
  have ho' : s.hasClosed = false := ho
  simp [reconnecting, ho']

theorem relayLoop (h : Attentive s) (d : Dir) : Attentive (s.relayLoop d) :=
  relayLoop_ind (fun _ => relayClose s d) (fun _ _ => h.setWay d _)
    (fun _ _ _ _ => h.setWay d _) fun _ _ _ => h.setWay d _

theorem relayReconnect (h : Attentive s) (d : Dir)
    (hq : s.hasClosed = false → s.processConnecting = false → s.NoExpiry) (gen : ℕ) :
    Attentive (s.relayReconnect d gen) :=
  (h.connectProcess hq gen).relayLoop d

theorem relayFlush (h : Attentive s) (d : Dir) (hq : (s.way d).storedData = [] →
    s.hasClosed = false → s.processConnecting = false → s.NoExpiry) (gen : ℕ) :
    Attentive (s.relayFlush d gen) :=
  relayFlush_ind (fun he => h.bypass.relayReconnect d (hq he) gen)
    fun _ => (h.bypass.emit _).setWay d _

theorem clearFlushed (h : Attentive s) (d : Dir) (w : PeerWrite) : Attentive (s.clearFlushed d w) :=
  (h.emit _).setWay d _

theorem readerReconnect (h : Attentive s) (i : ℕ)
    (hq : s.hasClosed = false → s.processConnecting = false → s.NoExpiry) (gen : ℕ) :
    Attentive (s.readerReconnect i gen) :=
  (h.connectProcess hq gen).setReader i _

theorem readerFlushClient (h : Attentive s) (i : ℕ) (hq : (s.way .res).storedData = [] →
    s.hasClosed = false → s.processConnecting = false → s.NoExpiry) (gen : ℕ) :
    Attentive (s.readerFlushClient i gen) :=
  readerFlushClient_ind (fun he => h.bypass.readerReconnect i (hq he) gen)
    fun _ => (h.bypass.emit _).setReader i _

theorem readerFlushServer (h : Attentive s) (i : ℕ) (hq : (∀ d, (s.way d).storedData = []) →
    s.hasClosed = false → s.processConnecting = false → s.NoExpiry) (gen : ℕ) :
    Attentive (s.readerFlushServer i gen) :=
  readerFlushServer_ind (fun he => h.bypass.readerFlushClient i
    (fun he' => hq (Dir.forall_iff.2 ⟨he, he'⟩)) gen) fun _ => (h.bypass.emit _).setReader i _

theorem actOnHead (h : Attentive s) (i : ℕ) (d : Dir) (conn : ℕ) (head : ResponseHead) :
    Attentive (s.actOnHead i d conn head) :=
  actOnHead_ind (fun _ => (graceClose s).setReader i _)
    fun _ => h.congr rfl rfl rfl rfl rfl rfl rfl

theorem dispatch (h : Attentive s) (i conn : ℕ) (head : ResponseHead) (buf : List Byte) :
    Attentive (s.dispatch i conn head buf) := by
  have h₁ := h.emit (.response i head)
  exact dispatch_ind (fun d _ => innerProxy_ind (fun _ => (h₁.emit _).setReader i _)
    fun _ => h₁.actOnHead i d conn head) (h₁.cancelTimer.readHead i) (h₁.readHead i)

theorem clearReleased (h : Attentive s) (i : ℕ) (d : Dir) (count : ℕ) (next : Int32) :
    Attentive (s.clearReleased i d count next) :=
  clearReleased_ind (fun _ _ => (h.setWay d _).readHead i)
    fun _ => readHead (s := { s with undefined := true }) (h.congr rfl rfl rfl rfl rfl rfl rfl) i

theorem setPeerWrite (h : Attentive s) (w : PeerWrite) (t : Tid) :
    Attentive (s.setPeerWrite w t) := by
  cases t with
  | relay d => exact h.setWay d _
  | reader i => exact h.setReader i _
  | connector j => exact h
  | detector k => exact h

/-- A connector goes on that does not open the socket. -/
theorem setConnector (h : Attentive s) {j : ℕ} {pc : ConnectorPc}
    (hj : s.connectors j = .connecting false ∨ s.connectors j = .waiting →
      pc = .connecting false ∨ pc = .waiting) : Attentive (s.setConnector j pc) :=
  fun ho => (h ho).setConnector hj

theorem setLinkWrite (h : Attentive s) {w : LinkWrite} (w' : LinkWrite) {t : Tid}
    (hw : s.linkWrite t = some w) : Attentive (s.setLinkWrite w' t) := by
  cases t with
  | relay d => exact h.setWay d _
  | reader i => exact h
  | connector j =>
    refine h.setConnector fun hj => ?_
    rcases hj with hj | hj <;> simp [linkWrite, ConnectorPc.linkWrite, hj] at hw
  | detector k => exact h

/-- The four tuple is sent: a reader and a detector are spawned. -/
theorem superviseProcess (h : Attentive s) {j conn : ℕ} {w : LinkWrite}
    (hj : s.connectors j = .fourTuple conn w)
    (hc : s.hasClosed = false → s.processConnecting = false → conn = s.conns) :
    Attentive (s.superviseProcess j conn) := by
  have h₁ : Attentive (s.spawning j conn) := by
    have h₀ : Attentive (s.setConnector j .done) :=
      h.setConnector fun hj' => by rcases hj' with hj' | hj' <;> rw [hj] at hj' <;> cases hj'
    exact h₀.congr rfl rfl rfl rfl rfl rfl rfl
  generalize hx : (s.spawning j conn).readHead s.nReaders = x
  have hx₁ : Attentive x := hx ▸ h₁.readHead s.nReaders
  obtain ⟨hclosed, hconnecting, hconns⟩ : x.hasClosed = s.hasClosed ∧
      x.processConnecting = s.processConnecting ∧ x.conns = s.conns := by
    subst hx
    exact noteRead_ind (P := fun x => x.hasClosed = s.hasClosed ∧
      x.processConnecting = s.processConnecting ∧ x.conns = s.conns) (fun _ => ⟨rfl, rfl, rfl⟩)
      fun _ => ⟨rfl, rfl, rfl⟩
  have heq : s.superviseProcess j conn =
      { x with nDetectors := x.nDetectors + 1 }.detectLoop x.nDetectors conn := by
    subst hx; rfl
  intro ho
  have hox : x.hasClosed = false := by
    obtain ⟨ds, hd⟩ := Session.detectLoop_detectors { x with nDetectors := x.nDetectors + 1 }
      x.nDetectors conn
    rw [heq, hd] at ho
    exact ho
  have hw := hx₁ hox
  rw [heq]
  refine Watches.detectLoop (s := { x with nDetectors := x.nDetectors + 1 })
    ⟨hw.armed, fun k hk => hw.spawned k (Nat.le_of_succ_le hk), hw.opened⟩ (Nat.lt_succ_self _) ?_
  intro hp
  exact (hc (hclosed ▸ hox) (hconnecting ▸ hp)).trans hconns.symm

/-! ## The steps -/

theorem init (c : Conf) : Attentive (Session.init c) := by
  have h₀ : Attentive
      { connBufSize := c.connBufSize
        responseBypass := c.responseBypass
        fourTuple := c.fourTuple } := fun _ =>
    ⟨fun k conn w hk => by simp at hk, fun k _ => rfl, fun ho => by simp at ho⟩
  exact ((h₀.connectProcess (fun _ _ k hk => absurd hk (Nat.not_lt_zero k)) 0).relayLoop
    .req).relayLoop .res

/-- **A timely step** of an attentive session. -/
theorem step (h : Attentive s) (hs : Shape s) {e : Event} (hC : Timely s e) (hr : Rule s e s') :
    Attentive s' := by
  cases hr with
  | gotDirect =>
    rw [writeDirect_eq]
    exact h.congr rfl rfl rfl rfl rfl rfl rfl
  | gotProcess =>
    rw [writeProcess_eq]
    exact h.congr rfl rfl rfl rfl rfl rfl rfl
  | readEof =>
    rw [relayEof_eq]
    exact relayClose _ _
  | readError => exact relayClose s _
  | @pushPeer t k d w => exact (h.setWay d _).setPeerWrite _ t
  | @pushLink t k w hw =>
    exact setLinkWrite (s := s.sendLink w k) (w := w) (h.congr rfl rfl rfl rfl rfl rfl rfl) _
      (by cases t <;> exact hw)
  | pull => exact h.congr rfl rfl rfl rfl rfl rfl rfl
  | issueWrite hw => exact h.setLinkWrite _ hw
  | issueRead => exact (h.noteRead _).setReader _ _
  | notified => exact h.setWay _ _
  | notifyFailed => exact (h.breakLink _).setWay _ _
  | wroteDirect => exact h.relayLoop _
  | wroteProcess => exact h.relayLoop _
  | @processFailed d w hpc =>
    have hq : (s.way d).storedData = [] → s.hasClosed = false → s.processConnecting = false →
        s.NoExpiry := fun he ho hp =>
      (hC ho hp).1 ⟨by simp only [hpc]; trivial, he⟩
    exact breakLink_ind (P := fun x => Attentive (x.relayFlush d w.gen))
      (fun hl => by
        have h₁ := h.breakLink w
        rw [Session.breakLink, if_pos hl] at h₁
        exact h₁.relayFlush d hq w.gen)
      fun _ => h.relayFlush d hq w.gen
  | @relayFlushed d gen w hpc =>
    refine (h.clearFlushed d w).relayReconnect d (fun ho hp => ?_) gen
    exact (hC ho hp).1 (by simp only [Reconnects, hpc]; trivial)
  | relayWriteFailed => exact relayClose s _
  | gotHead => exact (h.noteRead _).setReader _ _
  | gotHeadOnly => exact h.dispatch _ _ _ _
  | gotBody => exact h.dispatch _ _ _ _
  | @readFailed i r hlink =>
    refine readerFailed_ind (fun _ => h.setReader _ _) fun _ => h.readerFlushServer i ?_ _
    exact fun he ho hp => (hC ho hp).1 ⟨by rw [hlink]; rfl, he⟩
  | wroteNew => exact h.actOnHead _ _ _ _
  | released => exact h.clearReleased _ _ _ _
  | readerWriteFailed => exact (graceClose s).setReader _ _
  | @flushedServer i gen w hpc =>
    refine (h.clearFlushed .req w).readerFlushClient i (fun he ho hp => ?_) gen
    refine (hC ho hp).1 ?_
    simpa [Reconnects, hpc, ReaderPc.LastFlush, Session.clearFlushed, setStored] using he
  | @flushServerFailed i gen w =>
    refine (graceClose s).readerFlushClient i (fun _ ho => ?_) gen
    exact absurd (ho.symm.trans (graceClose_hasClosed s)) Bool.false_ne_true
  | @flushedClient i gen w hpc =>
    refine (h.clearFlushed .res w).readerReconnect i (fun ho hp => ?_) gen
    exact (hC ho hp).1 (by simp only [Reconnects, hpc]; trivial)
  | @flushClientFailed i gen w =>
    refine (graceClose s).readerReconnect i (fun ho => ?_) gen
    exact absurd (ho.symm.trans (graceClose_hasClosed s)) Bool.false_ne_true
  | @connected j hpc =>
    intro ho
    have hw : Watches s := h ho
    have hp : s.processConnecting = true := hs.connecting j (.inl ⟨_, hpc⟩)
    refine ⟨fun k conn w hk hne => absurd (hw.cancelled hp hk) hne, hw.spawned, fun hopen => ?_⟩
    · obtain ⟨j', hj'⟩ := hw.opened hopen
      obtain rfl : j' = j := hs.unique j' j
        (hj'.elim (fun hj' => .inl ⟨_, hj'⟩) .inr) (.inl ⟨_, hpc⟩)
      rw [hpc] at hj'
      simp at hj'
  | connectFailed => exact h.setConnector fun _ => .inr rfl
  | @retry j hpc =>
    refine connectLoop_ind (fun hc => of_closed hc) fun ho _ => ?_
    have hw : Watches s := h ho
    exact ⟨hw.armed, hw.spawned, fun _ => ⟨j, .inl (by simp [asyncConnect])⟩⟩
  | @wroteTuple j conn w hpc =>
    exact h.superviseProcess hpc fun ho hp =>
      (hC ho hp).2 conn (by simp only [waitsFor, hpc]; rfl)
  | @tupleFailed j conn w hpc =>
    refine (h.breakLink w).setConnector fun hj => ?_
    have hconn : (s.breakLink w).connectors = s.connectors :=
      breakLink_ind (P := fun x => x.connectors = s.connectors) (fun _ => rfl) fun _ => rfl
    rw [hconn, hpc] at hj
    simp at hj
  | @timedOut k conn hpc =>
    intro ho
    have hw : Watches s := h ho
    have h₁ := hw.setDetector (hw.lt_of_waiting hpc) (fun conn w (hd : DetectorPc.done = _) => by cases hd)
    exact ⟨h₁.armed, h₁.spawned, fun hopen => by cases hopen⟩
  | @rearm k conn hpc =>
    intro ho
    obtain ⟨ds, hd⟩ := s.detectLoop_detectors k conn
    have hos : s.hasClosed = false := by rw [hd] at ho; exact ho
    have hw : Watches s := h hos
    exact hw.detectLoop (hw.lt_of_waiting hpc) fun hp =>
      (hC hos hp).2 conn (by simp only [waitsFor, hpc]; rfl)
  | @connect j hpc =>
    intro ho
    have hw : Watches s := h ho
    have hp : s.processConnecting = true := hs.connecting j (.inl ⟨_, hpc⟩)
    exact ⟨fun k conn w hk hne => absurd (hw.cancelled hp hk) hne, hw.spawned,
      fun hopen => by cases hopen⟩
  | @expire k conn hpc =>
    intro ho
    have hw : Watches s := h ho
    refine hw.setDetector (hw.lt_of_waiting hpc) fun conn' w hd _ => ?_
    cases hd
    exact hw.armed k conn .pending hpc (by simp)
  | respond => exact h.congr rfl rfl rfl rfl rfl rfl rfl

end Attentive

/-! ## A timeout closes its own connection -/

/-- **A timeout closes only the connection it watches**, when no `connect_process`
    starts with an expiry queued and a detector waits for the current connection. -/
theorem closesOwn_of_timely {c : Conf} {s : Session}
    (h : Reach Session.step Timely (Session.init c) s) : s.ClosesOwn := by
  obtain ⟨hs, ha⟩ := h.inv (I := fun s => Shape s ∧ Attentive s) ⟨Shape.init c, Attentive.init c⟩
    fun _ _ _ hs hC he => ⟨hs.1.step (rule_of_step he), hs.2.step hs.1 hC (rule_of_step he)⟩
  intro k conn w s' hk hst hne hclosed
  have ho : s.hasClosed = false := by
    cases hc : s.hasClosed with
    | true => exact absurd (hs.closed hc) hne
    | false => rfl
  have hw := ha ho
  cases w with
  | pending => simp [Session.step, onComplete, hk] at hst
  | fired =>
    obtain ⟨hp, hconn⟩ := hw.armed k conn .fired hk (by simp)
    refine ⟨?_, hconn.symm⟩
    cases hsock : s.proxyProcessSocket with
    | closed => exact absurd hsock hne
    | opened =>
      obtain ⟨j, hj⟩ := hw.opened hsock
      have hj' : (s.connectors j).IsConnecting := hj.elim (fun hj => .inl ⟨_, hj⟩) .inr
      exact absurd (hp.symm.trans (hs.connecting j hj')) Bool.false_ne_true
    | connected => rfl
  | cancelled =>
    -- the detector waits again, and closes nothing
    simp only [Session.step, onComplete, hk, Option.some.injEq] at hst
    obtain ⟨ds, hd⟩ := s.detectLoop_detectors k conn
    rw [← hst, hd] at hclosed
    exact absurd hclosed hne

/-- Connector `j` makes a connection and sends its four tuple, which is empty. -/
def upWith (j : ℕ) : List Event :=
  [.connect j, .complete (.connector j), .push (.connector j) 89, .complete (.connector j)]

/-- The first connection is lost and its detector ends; the timer of the second expires. -/
theorem closesOwn_second : ∃ s : Session, s.detectors 1 = .waiting 2 .fired ∧
    s.conns = 2 ∧ s.ClosesOwn := by
  obtain ⟨s, hs, hp⟩ := exists_runIf Session.step Timely (Session.init (localConf true))
    (upWith 0 ++ [.fail (.reader 0), .complete (.detector 0)] ++ upWith 1 ++ [.expire 1])
    (fun s => (s.detectors 1 == .waiting 2 .fired) && (s.conns == 2)) (by decide +kernel)
  simp only [Bool.and_eq_true, beq_iff_eq] at hp
  exact ⟨s, hp.1, hp.2, closesOwn_of_timely hs⟩

/-- **A timeout may close another connection**: the first connection fails while the
    expiry of its timer is queued, and the second is up when the detector is resumed. -/
theorem not_closesOwn : ¬ ∀ (c : Conf) (s : Session),
    Reach Session.step (fun _ _ => True) (Session.init c) s → s.ClosesOwn := by
  intro h
  obtain ⟨s, hs, hp⟩ := exists_run Session.step (fun _ _ => True)
    (Session.init (localConf true))
    (upWith 0 ++ [.expire 0, .fail (.reader 0)] ++ upWith 1)
    (fun s => (s.detectors 0 == .waiting 1 .fired) && (s.conns == 2) &&
      (s.proxyProcessSocket == .connected)) (fun _ _ _ => trivial) (by decide +kernel)
  simp only [Bool.and_eq_true, beq_iff_eq] at hp
  obtain ⟨⟨hk, hconns⟩, hsock⟩ := hp
  have hown := h _ s hs 0 1 .fired _ hk (by simp only [Session.step, onComplete, hk]; rfl)
    (by simp [hsock]) rfl
  rw [hconns] at hown
  exact absurd hown.2 (by decide)

end CppProxy
