/-
  cpp_proxy — failures of older connections.

  A coroutine that waits on the process socket, or that flushes a queue because
  the process failed, asks `connect_process` for a new connection later.  The
  guard of `connect_process` is one flag, so the request of a coroutine that saw
  connection `gen` fail takes down whatever connection is up by then.

  * `Fresh`: what a coroutine waits on is the current connection;
  * `Current`: outside `connect_process` every coroutine is fresh;
  * `noStaleReset_of_settled`: if nothing of an older connection is pending at
    any moment `connect_process` clears `bypass_`, no failure is stale.
-/
import CppProxy.Shape

namespace CppProxy

open Session Runs

/-- A relay waits on connection `conns`, or flushes for it with bypass on. -/
def RelayPc.Fresh (conns : ℕ) (bypass : Bool) : RelayPc → Prop
  | writeProcess w => w.io ≠ .idle → w.gen = conns
  | flush gen _ => gen = conns ∧ bypass = true
  | _ => True

/-- A reader waits on connection `conns`, or flushes for it with bypass on. -/
def ReaderPc.Fresh (conns : ℕ) (bypass : Bool) : ReaderPc → Prop
  | readHead r | readBody _ r => r.io ≠ .idle → r.gen = conns
  | flushServer gen _ | flushClient gen _ => gen = conns ∧ bypass = true
  | _ => True

instance (conns : ℕ) (bypass : Bool) : ∀ pc : RelayPc, Decidable (pc.Fresh conns bypass)
  | .writeProcess _ => inferInstanceAs (Decidable (_ → _))
  | .flush _ _ => inferInstanceAs (Decidable (_ ∧ _))
  | .notify _ | .readDirect _ | .writeDirect _ | .readProcess _ | .done =>
    inferInstanceAs (Decidable True)

instance (conns : ℕ) (bypass : Bool) : ∀ pc : ReaderPc, Decidable (pc.Fresh conns bypass)
  | .readHead _ | .readBody _ _ => inferInstanceAs (Decidable (_ → _))
  | .flushServer _ _ | .flushClient _ _ => inferInstanceAs (Decidable (_ ∧ _))
  | .writeNew _ _ _ _ | .release _ _ _ _ | .done => inferInstanceAs (Decidable True)

/-- Whenever `connect_process` clears `bypass_`, no operation on an older
    connection is pending and no flush is in progress. -/
def Settled (s : Session) : Event → Prop
  | .complete (.connector j) => s.connectors j = .connecting true →
      (∀ d, (s.way d).relay.Fresh s.conns false) ∧
        ∀ i < s.nReaders, (s.readers i).pc.Fresh s.conns false
  | _ => True

instance (s : Session) : ∀ e, Decidable (Settled s e)
  | .complete (.connector _) => inferInstanceAs (Decidable (_ → _))
  | .complete (.relay _) | .complete (.reader _) | .complete (.detector _) =>
    inferInstanceAs (Decidable True)
  | .read _ _ | .push _ _ | .pull _ _ | .issue _ | .fail _ | .connect _ | .expire _
  | .respond _ _ => inferInstanceAs (Decidable True)

/-- No reset of the process socket is caused by a failure of an older connection,
    and bypass is on while the session connects. -/
def Session.NoStaleReset (s : Session) : Prop :=
  (∀ gen conns, Act.reconnect gen conns ∈ s.trace → conns ≤ gen) ∧
    (s.processConnecting = true → s.bypass = true)

/-- No failure of an older connection has led to a reset, and none that a coroutine has
    seen and not acted on yet will. -/
structure Current (s : Session) : Prop where
  recorded : ∀ gen conns, Act.reconnect gen conns ∈ s.trace → conns ≤ gen
  connecting : s.processConnecting = true → s.bypass = true
  relays : s.processConnecting = false → ∀ d, (s.way d).relay.Fresh s.conns s.bypass
  readers : s.processConnecting = false → ∀ i, (s.readers i).pc.Fresh s.conns s.bypass

theorem RelayPc.Fresh.mono {conns : ℕ} {bypass bypass' : Bool} {pc : RelayPc}
    (h : pc.Fresh conns bypass) (hb : bypass = true → bypass' = true) : pc.Fresh conns bypass' := by
  cases pc with
  | flush => exact ⟨h.1, hb h.2⟩
  | _ => exact h

theorem ReaderPc.Fresh.mono {conns : ℕ} {bypass bypass' : Bool} {pc : ReaderPc}
    (h : pc.Fresh conns bypass) (hb : bypass = true → bypass' = true) : pc.Fresh conns bypass' := by
  cases pc with
  | flushServer => exact ⟨h.1, hb h.2⟩
  | flushClient => exact ⟨h.1, hb h.2⟩
  | _ => exact h

theorem RelayPc.Fresh.setPeerWrite {conns : ℕ} {bypass : Bool} {pc : RelayPc} {w : PeerWrite}
    (h : pc.Fresh conns bypass) : (pc.setPeerWrite w).Fresh conns bypass := by
  cases pc <;> exact h

theorem ReaderPc.Fresh.setPeerWrite {conns : ℕ} {bypass : Bool} {pc : ReaderPc} {w : PeerWrite}
    (h : pc.Fresh conns bypass) : (pc.setPeerWrite w).Fresh conns bypass := by
  cases pc <;> exact h

namespace Current

variable {s s' : Session}

/-! ## The functions -/

/-- `Current` reads the flags, the connection number, the program points and the
    recorded resets only. -/
theorem congr (h : Current s)
    (ht : ∀ gen conns, Act.reconnect gen conns ∈ s'.trace → Act.reconnect gen conns ∈ s.trace)
    (hp : s'.processConnecting = s.processConnecting) (hc : s'.conns = s.conns)
    (hb : s.bypass = true → s'.bypass = true) (hw : ∀ d, (s'.way d).relay = (s.way d).relay)
    (hr : s'.readers = s.readers) : Current s' where
  recorded gen conns hm := h.recorded gen conns (ht gen conns hm)
  connecting hp' := hb (h.connecting (hp ▸ hp'))
  relays hp' d := by
    rw [hw, hc]; exact (h.relays (hp ▸ hp') d).mono hb
  readers hp' i := by
    rw [hr, hc]; exact (h.readers (hp ▸ hp') i).mono hb

/-- Nothing that `Current` reads changes. -/
theorem same {x : Session} (h : Current s) (ht : x.trace = s.trace)
    (hp : x.processConnecting = s.processConnecting) (hc : x.conns = s.conns)
    (hb : x.bypass = s.bypass) (hw : x.way = s.way) (hr : x.readers = s.readers) : Current x :=
  h.congr (fun _ _ hm => ht ▸ hm) hp hc (fun h => hb ▸ h) (fun _ => by rw [hw]) hr

theorem emit (h : Current s) {a : Act} (ha : ∀ gen conns, a ≠ .reconnect gen conns) :
    Current (s.emit a) :=
  h.congr (fun gen conns hm => by simpa [Session.emit, (ha gen conns).symm] using hm)
    rfl rfl id (fun _ => rfl) rfl

theorem bypass (h : Current s) : Current { s with bypass := true } :=
  h.congr (fun _ _ hm => hm) rfl rfl (fun _ => rfl) (fun _ => rfl) rfl

theorem setWay (h : Current s) (d : Dir) {w : Way}
    (hw : s.processConnecting = false → w.relay.Fresh s.conns s.bypass) : Current (s.setWay d w) where
  recorded := h.recorded
  connecting := h.connecting
  relays hp d' := by
    show (Function.update s.way d w d').relay.Fresh s.conns s.bypass
    by_cases hd : d' = d
    · subst hd; simpa using hw hp
    · simpa [hd] using h.relays hp d'
  readers := h.readers

/-- The relay of the direction stays where it is. -/
theorem setWay_same (h : Current s) (d : Dir) {w : Way} (hw : w.relay = (s.way d).relay) :
    Current (s.setWay d w) :=
  h.setWay d fun hp => by rw [hw]; exact h.relays hp d

theorem setReader (h : Current s) {i : ℕ} {q : ReaderPc}
    (hpc : s.processConnecting = false → q.Fresh s.conns s.bypass) :
    Current (s.setReader i q) where
  recorded := h.recorded
  connecting := h.connecting
  relays := h.relays
  readers hp i' := by
    show (Function.update s.readers i { s.readers i with pc := q } i').pc.Fresh s.conns s.bypass
    by_cases hi : i' = i
    · subst hi; simpa using hpc hp
    · simpa [hi] using h.readers hp i'

theorem graceClose (h : Current s) : Current s.graceClose :=
  graceClose_ind (fun _ => h) fun _ => h.same rfl rfl rfl rfl rfl rfl

theorem connectProcess (h : Current s) {gen : ℕ}
    (hg : s.processConnecting = false → gen = s.conns ∧ s.bypass = true) :
    Current (s.connectProcess gen) :=
  connectProcess_ind (fun _ => h) fun hp =>
    { recorded := fun gen' conns hm => by
        simp only [reconnecting, List.mem_append, List.mem_singleton, Act.reconnect.injEq] at hm
        rcases hm with hm | ⟨rfl, rfl⟩
        · exact h.recorded _ _ hm
        · exact (hg hp).1.ge
      connecting := fun _ => (hg hp).2
      relays := fun hp' => by cases hp'
      readers := fun hp' => by cases hp' }

theorem relayLoop (h : Current s) (d : Dir) : Current (s.relayLoop d) :=
  relayLoop_ind (fun _ => h.graceClose.setWay d fun _ => trivial)
    (fun _ _ => h.setWay d fun _ => trivial) (fun _ _ _ _ => h.setWay d fun _ => trivial)
    fun _ _ _ => h.setWay d fun _ => trivial

theorem relayReconnect (h : Current s) (d : Dir) {gen : ℕ}
    (hg : s.processConnecting = false → gen = s.conns ∧ s.bypass = true) :
    Current (s.relayReconnect d gen) :=
  (h.connectProcess hg).relayLoop d

theorem relayFlush (h : Current s) (d : Dir) {gen : ℕ}
    (hg : s.processConnecting = false → gen = s.conns) : Current (s.relayFlush d gen) :=
  relayFlush_ind (fun _ => h.bypass.relayReconnect d fun hp => ⟨hg hp, rfl⟩)
    fun _ => (h.bypass.emit (by simp)).setWay d fun hp => ⟨hg hp, rfl⟩

theorem readerReconnect (h : Current s) (i : ℕ) {gen : ℕ}
    (hg : s.processConnecting = false → gen = s.conns ∧ s.bypass = true) :
    Current (s.readerReconnect i gen) :=
  (h.connectProcess hg).setReader fun _ => trivial

theorem readerFlushClient (h : Current s) (i : ℕ) {gen : ℕ}
    (hg : s.processConnecting = false → gen = s.conns) : Current (s.readerFlushClient i gen) :=
  readerFlushClient_ind (fun _ => h.bypass.readerReconnect i fun hp => ⟨hg hp, rfl⟩)
    fun _ => (h.bypass.emit (by simp)).setReader fun hp => ⟨hg hp, rfl⟩

theorem readerFlushServer (h : Current s) (i : ℕ) {gen : ℕ}
    (hg : s.processConnecting = false → gen = s.conns) : Current (s.readerFlushServer i gen) :=
  readerFlushServer_ind (fun _ => h.bypass.readerFlushClient i hg)
    fun _ => (h.bypass.emit (by simp)).setReader fun hp => ⟨hg hp, rfl⟩

theorem clearFlushed (h : Current s) (d : Dir) (w : PeerWrite) : Current (s.clearFlushed d w) :=
  (h.emit (by simp)).setWay_same d rfl

theorem breakLink (h : Current s) (w : LinkWrite) : Current (s.breakLink w) :=
  breakLink_ind (fun _ => h.same rfl rfl rfl rfl rfl rfl) fun _ => h

theorem noteRead (h : Current s) (i : ℕ) : Current (s.noteRead i) :=
  noteRead_ind (fun _ => h.same rfl rfl rfl rfl rfl rfl) fun _ => h

theorem readHead (h : Current s) (i : ℕ) : Current (s.readHead i) :=
  (h.noteRead i).setReader fun _ _ => (noteRead_conns s i).symm

theorem readBody (h : Current s) (i : ℕ) (head : ResponseHead) : Current (s.readBody i head) :=
  (h.noteRead i).setReader fun _ _ => (noteRead_conns s i).symm

theorem setPeerWrite (h : Current s) (w : PeerWrite) (t : Tid) : Current (s.setPeerWrite w t) := by
  cases t with
  | relay d => exact h.setWay d fun hp => (h.relays hp d).setPeerWrite
  | reader i => exact h.setReader fun hp => (h.readers hp i).setPeerWrite
  | connector j => exact h
  | detector k => exact h

theorem setLinkWrite (h : Current s) {w : LinkWrite} (t : Tid)
    (hw : w.io ≠ .idle → w.gen = s.conns) : Current (s.setLinkWrite w t) := by
  cases t with
  | relay d =>
    refine h.setWay d fun hp => ?_
    have := h.relays hp d
    cases hpc : (s.way d).relay with
    | writeProcess => exact hw
    | _ => rw [hpc] at this; exact this
  | connector j => exact h.same rfl rfl rfl rfl rfl rfl
  | reader i => exact h
  | detector k => exact h

theorem setLinkRead (h : Current s) (i : ℕ) {r : LinkRead}
    (hr : r.io ≠ .idle → r.gen = s.conns) : Current (s.setLinkRead i r) := by
  refine h.setReader fun hp => ?_
  have := h.readers hp i
  cases hpc : (s.readers i).pc with
  | readHead => exact hr
  | readBody => exact hr
  | _ => rw [hpc] at this; exact this

theorem actOnHead (h : Current s) (i : ℕ) (d : Dir) (conn : ℕ) (head : ResponseHead) :
    Current (s.actOnHead i d conn head) := by
  refine actOnHead_ind (fun _ => h.graceClose.setReader fun _ => trivial) fun _ => ?_
  generalize prepareTransferPacket _ _ _ = r
  have h₁ := ((h.emit (a := .release d (s.dstOpen d) conn head.handledTotalPkgLen
    (s.way d).handledTotalPkgLen r.handledTotalPkgLen r.nextPkgUsedSize r.bytes)
      (by simp)).setWay_same d (w := { s.way d with handledTotalPkgLen := r.handledTotalPkgLen })
        rfl).setReader (i := i) (q := .release d r.handledPkgCount r.nextPkgUsedSize
          (s.asyncWrite d r.bytes)) fun _ => trivial
  exact h₁.same rfl rfl rfl rfl rfl rfl

theorem dispatch (h : Current s) (i conn : ℕ) (head : ResponseHead) (buf : List Byte) :
    Current (s.dispatch i conn head buf) :=
  dispatch_ind
    (fun d _ => innerProxy_ind
      (fun _ => ((h.emit (by simp)).emit (by simp)).setReader fun _ => trivial)
      fun _ => (h.emit (by simp)).actOnHead i d conn head)
    (((h.emit (by simp)).same (x := (s.emit _).cancelTimer) rfl rfl rfl rfl rfl rfl).readHead i)
    ((h.emit (by simp)).readHead i)

theorem detectLoop (h : Current s) (k conn : ℕ) : Current (s.detectLoop k conn) := by
  obtain ⟨ds, hd⟩ := s.detectLoop_detectors k conn
  rw [hd]
  exact h.same rfl rfl rfl rfl rfl rfl

theorem spawning (h : Current s) (j conn : ℕ) : Current (s.spawning j conn) where
  recorded := h.recorded
  connecting := h.connecting
  relays := h.relays
  readers hp i := by
    show (Function.update s.readers s.nReaders { home := conn, pc := .done } i).pc.Fresh s.conns
      s.bypass
    by_cases hi : i = s.nReaders
    · subst hi; simp [ReaderPc.Fresh]
    · simpa [hi] using h.readers hp i

theorem superviseProcess (h : Current s) (j conn : ℕ) : Current (s.superviseProcess j conn) := by
  obtain ⟨ds, n, hd⟩ := s.superviseProcess_detectors j conn
  rw [hd]
  exact ((h.spawning j conn).readHead s.nReaders).same rfl rfl rfl rfl rfl rfl

/-! ## The steps -/

theorem init (c : Conf) : Current (Session.init c) :=
  ((Current.connectProcess
    { recorded := by simp
      connecting := by simp
      relays := by simp [RelayPc.Fresh]
      readers := by simp [ReaderPc.Fresh] } fun _ => ⟨rfl, rfl⟩).relayLoop .req).relayLoop .res

theorem step (h : Current s) (hs : Shape s) {e : Event} (hC : Settled s e) (hr : Rule s e s') :
    Current s' := by
  cases hr with
  | @gotDirect d live bytes =>
    rw [writeDirect_eq]
    exact (((h.emit (a := .got d s.bypass bytes) (by simp)).emit
      (a := .direct d (s.dstOpen d) bytes) (by simp)).setWay d
        (w := { s.way d with received := _, relay := .writeDirect _ }) fun _ => trivial).same
          (by simp [Session.emit, Session.setWay]) rfl rfl rfl rfl rfl
  | @gotProcess d live bytes =>
    rw [writeProcess_eq]
    exact (((h.emit (a := .got d s.bypass bytes) (by simp)).emit
      (a := .frame d bytes) (by simp)).setWay d
        (w := { s.way d with
          received := _
          storedData := _
          block := _
          relay := .writeProcess (s.asyncWriteProcess _) }) fun _ _ => rfl).same
            (by simp [Session.emit, Session.setWay]) rfl rfl rfl rfl rfl
  | @readEof d =>
    rw [relayEof_eq]
    exact ((h.emit (a := .eof d _ _) (by simp)).same
      (x := { s with eof := true, trace := _ }) rfl rfl rfl rfl rfl rfl).graceClose.setWay d
        fun _ => trivial
  | @readError d => exact h.graceClose.setWay d fun _ => trivial
  | @pushPeer t k d w =>
    have h₁ : Current (s.accept d (w.rest.take k)) := h.setWay_same d rfl
    exact h₁.setPeerWrite _ t
  | @pushLink t k w =>
    exact (h.same (x := s.setLink _) rfl rfl rfl rfl rfl rfl).setLinkWrite t fun hi => absurd rfl hi
  | @pull i k r =>
    exact (h.same (x := s.setLink _) rfl rfl rfl rfl rfl rfl).setLinkRead i fun hi => absurd rfl hi
  | @issueWrite t w => exact h.setLinkWrite t fun _ => rfl
  | @issueRead i r => exact (h.noteRead i).setLinkRead i fun _ => (noteRead_conns s i).symm
  | @notified d => exact h.setWay d fun _ => trivial
  | @notifyFailed d w => exact (h.breakLink w).setWay d fun _ => trivial
  | @wroteDirect d => exact h.relayLoop d
  | @wroteProcess d => exact h.relayLoop d
  | @processFailed d w hpc hf =>
    refine (h.breakLink w).relayFlush d ?_
    refine breakLink_ind (P := fun s' => s'.processConnecting = false → w.gen = s'.conns)
      (fun _ hp => ?_) fun _ hp => ?_ <;>
    · have := h.relays hp d
      rw [hpc] at this
      exact this hf
  | @relayFlushed d gen w hpc =>
    refine (h.clearFlushed d w).relayReconnect d fun hp => ?_
    have := h.relays hp d
    rwa [hpc] at this
  | @relayWriteFailed d => exact h.graceClose.setWay d fun _ => trivial
  | gotHead => exact h.readBody _ _
  | gotHeadOnly => exact h.dispatch _ _ _ _
  | gotBody => exact h.dispatch _ _ _ _
  | @readFailed i r hr hf =>
    refine readerFailed_ind (fun _ => h.setReader fun _ => trivial)
      fun _ => h.readerFlushServer i fun hp => ?_
    have := h.readers hp i
    unfold linkRead at hr
    cases hpc : (s.readers i).pc <;> rw [hpc] at this hr <;> cases hr
    · exact this hf
    · exact this hf
  | wroteNew => exact h.actOnHead _ _ _ _
  | @released i d count next w =>
    exact clearReleased_ind
      (fun stored _ => Current.readHead (s := s.setStored d stored) (h.setWay_same d rfl) i)
      fun _ => (h.same (x := { s with undefined := true }) rfl rfl rfl rfl rfl rfl).readHead i
  | readerWriteFailed => exact h.graceClose.setReader fun _ => trivial
  | @flushedServer i gen w hpc =>
    refine (h.clearFlushed .req w).readerFlushClient i fun hp => ?_
    have := h.readers hp i
    rw [hpc] at this
    exact this.1
  | @flushServerFailed i gen w hpc =>
    refine h.graceClose.readerFlushClient i ?_
    refine graceClose_ind (P := fun s' => s'.processConnecting = false → gen = s'.conns)
      (fun _ hp => ?_) fun _ hp => ?_ <;>
    · have := h.readers hp i
      rw [hpc] at this
      exact this.1
  | @flushedClient i gen w hpc =>
    refine (h.clearFlushed .res w).readerReconnect i fun hp => ?_
    have := h.readers hp i
    rwa [hpc] at this
  | @flushClientFailed i gen w hpc =>
    refine h.graceClose.readerReconnect i ?_
    refine graceClose_ind
      (P := fun s' => s'.processConnecting = false → gen = s'.conns ∧ s'.bypass = true)
      (fun _ hp => ?_) fun _ hp => ?_ <;>
    · have := h.readers hp i
      rwa [hpc] at this
  | @connected j hpc =>
    obtain ⟨hrelays, hreaders⟩ := hC hpc
    exact {
      recorded := h.recorded
      connecting := fun hp => by cases hp
      relays := fun _ => hrelays
      readers := fun _ i => by
        by_cases hi : i < s.nReaders
        · exact hreaders i hi
        · show (s.readers i).pc.Fresh s.conns false
          rw [hs.readers i (by omega)]; trivial }
  | connectFailed => exact h.same rfl rfl rfl rfl rfl rfl
  | retry =>
    exact connectLoop_ind (fun _ => h.same rfl rfl rfl rfl rfl rfl)
      fun _ => h.same rfl rfl rfl rfl rfl rfl
  | wroteTuple => exact h.superviseProcess _ _
  | @tupleFailed j conn w =>
    exact (h.breakLink w).same (x := (s.breakLink w).setConnector j .done) rfl rfl rfl rfl rfl rfl
  | timedOut => exact h.same rfl rfl rfl rfl rfl rfl
  | rearm => exact h.detectLoop _ _
  | @connect j hpc =>
    -- `connect_process` is connecting, so nothing has to be fresh
    have hp := hs.connecting j (.inl ⟨_, hpc⟩)
    exact { recorded := h.recorded, connecting := h.connecting
            relays := fun hp' => by change s.processConnecting = false at hp'; simp [hp] at hp'
            readers := fun hp' => by change s.processConnecting = false at hp'; simp [hp] at hp' }
  | expire => exact h.same rfl rfl rfl rfl rfl rfl
  | respond => exact h.same rfl rfl rfl rfl rfl rfl

end Current

/-- **No failure is stale** when nothing of an older connection is pending
    whenever `connect_process` clears `bypass_`. -/
theorem noStaleReset_of_settled {c : Conf} {s : Session}
    (h : Reach Session.step Settled (Session.init c) s) : s.NoStaleReset := by
  have hi : Shape s ∧ Current s :=
    h.inv (I := fun s => Shape s ∧ Current s) ⟨Shape.init c, Current.init c⟩
      fun _ _ _ hs hC he =>
        ⟨hs.1.step (rule_of_step he), hs.2.step hs.1 hC (rule_of_step he)⟩
  exact ⟨hi.2.recorded, hi.2.connecting⟩

/-- The first connection fails while the frame of a byte of the client is written: the relay
    and the reader both flush the byte to a slow server, and the flush of the relay is done. -/
def lostWithWrite : List Event :=
  firstUp ++ [.read .req (.data [2]), .fail (.relay .req), .fail (.reader 0),
    .push (.relay .req) 1, .complete (.relay .req)]

/-- The flush of the reader is done before the session is connected again. -/
theorem noStaleReset_reconnected : ∃ s : Session, s.conns = 2 ∧ s.NoStaleReset := by
  obtain ⟨s, hs, hp⟩ := exists_runIf Session.step Settled
    (Session.init (localConf true))
    (lostWithWrite ++ [.push (.reader 0) 1, .complete (.reader 0), .connect 1,
      .complete (.connector 1)])
    (fun s => s.conns == 2) (by decide +kernel)
  exact ⟨s, by simpa using hp, noStaleReset_of_settled hs⟩

/-- Connected again, the reader whose flush is done takes the new connection down. -/
theorem not_noStaleReset : ¬ ∀ (c : Conf) (s : Session),
    Reach Session.step (fun _ _ => True) (Session.init c) s → s.NoStaleReset := by
  intro h
  obtain ⟨s, hs, hp⟩ := exists_run Session.step (fun _ _ => True)
    (Session.init (localConf true))
    (lostWithWrite ++ [.connect 1, .complete (.connector 1), .push (.reader 0) 1,
      .complete (.reader 0)])
    (fun s => decide (Act.reconnect 1 2 ∈ s.trace)) (fun _ _ _ => trivial) (by decide +kernel)
  have := (h _ s hs).1 1 2 (by simpa using hp)
  omega

end CppProxy
