/-
  cpp_proxy — sessions whose process connection lasts.

  In a run that keeps the connection no operation on the process socket fails and no timeout
  closes it, so there is one connection, one reader and no flush.

  * `KeepsConnection`: the process connection neither fails nor times out;
  * `OneConnection`: the one connection comes up once, a relay that is on the process path
    stays there, and a direction that is not on it has nothing stored;
  * `OneConnection.step`: an open session keeps its one connection.
-/
import CppProxy.Counters
import CppProxy.Stream

namespace CppProxy

open Session Runs Relay

/-- The timer has expired, and the detector is not resumed yet. -/
def DetectorPc.Fired : DetectorPc → Prop
  | waiting _ .fired => True
  | _ => False

instance : ∀ pc : DetectorPc, Decidable pc.Fired
  | .waiting _ .fired => inferInstanceAs (Decidable True)
  | .waiting _ .pending | .waiting _ .cancelled | .done => inferInstanceAs (Decidable False)

/-- While the session is open, no operation on the process socket fails, and the
    timeout does not close it. -/
def KeepsConnection (s : Session) : Event → Prop
  | .fail (.reader i) => s.hasClosed = false → s.linkRead i = none
  | .fail t => s.hasClosed = false → s.linkWrite t = none
  | .complete (.detector k) => s.hasClosed = false → ¬ (s.detectors k).Fired
  | _ => True

instance (s : Session) : ∀ e, Decidable (KeepsConnection s e)
  | .fail (.reader _) | .fail (.relay _) | .fail (.connector _) | .fail (.detector _) =>
    inferInstanceAs (Decidable (_ → _ = _))
  | .complete (.detector _) => inferInstanceAs (Decidable (_ → _))
  | .complete (.relay _) | .complete (.reader _) | .complete (.connector _)
  | .read _ _ | .push _ _ | .pull _ _ | .issue _ | .connect _ | .expire _ | .respond _ _ =>
    inferInstanceAs (Decidable True)

/-- A relay on the process path. -/
def RelayPc.InProcess : RelayPc → Prop
  | readProcess _ | writeProcess _ => True
  | _ => False

theorem RelayPc.inProcess_setPeerWrite {pc : RelayPc} {w : PeerWrite} :
    (pc.setPeerWrite w).InProcess ↔ pc.InProcess := by
  cases pc <;> rfl

theorem RelayPc.inProcess_setLinkWrite {pc : RelayPc} {w : LinkWrite} :
    (pc.setLinkWrite w).InProcess ↔ pc.InProcess := by
  cases pc <;> rfl

/-- A write that goes on was in progress. -/
theorem ReaderPc.writing_of_drop {pc : ReaderPc} {d d' : Dir} {w : PeerWrite} {k : ℕ}
    (hp : pc.peerWrite = some (d, w))
    (hw : (pc.setPeerWrite { w with rest := w.rest.drop k }).Writing d') : pc.Writing d' := by
  cases pc with
  | release =>
    cases hp
    refine ⟨hw.1, hw.2.imp_left fun hr hn => hr ?_⟩
    show w.rest.drop k = []
    rw [hn, List.drop_nil]
  | _ => exact hw

/-- The connector has not reached the process yet. -/
def ConnectorPc.IsDown (pc : ConnectorPc) : Prop := pc = .connecting false ∨ pc = .waiting

instance (pc : ConnectorPc) : Decidable pc.IsDown := inferInstanceAs (Decidable (_ ∨ _))

/-- The one connection of an open session. -/
structure OneConnection (s : Session) : Prop where
  one : s.nConnectors = 1
  readers : s.nReaders = if s.connectors 0 = .done then 1 else 0
  conns : s.conns = if (s.connectors 0).IsDown then 0 else 1
  early : (s.connectors 0).IsConnecting → s.bypass = true ∧ ∀ d, (s.way d).handledTotalPkgLen = 0
  up : ¬ (s.connectors 0).IsDown → s.proxyProcessSocket = .connected
  late : ¬ (s.connectors 0).IsConnecting → s.bypass = false ∧ s.processConnecting = false
  noFlush : s.NoFlush
  inProcess : ∀ d, (s.way d).relay.InProcess → s.bypass = false ∧ (d = .res → s.responseBypass = false)
  direct : ∀ d, ¬ (s.way d).relay.InProcess → (s.way d).storedData = [] ∧ s.link.frames d = []
  writing : ∀ d i, (s.readers i).pc.Writing d → (s.way d).storedData ≠ []
  passing : ∀ r ∈ s.link.responses, r.head.newDataLen = 0

namespace OneConnection

variable {s s' : Session}

theorem connector_eq (h : OneConnection s) (hs : Shape s) {j : ℕ} (hj : s.connectors j ≠ .done) :
    j = 0 := by
  have := hs.connector_lt hj
  rw [h.one] at this
  omega

/-- The one reader is spawned when the connector is done. -/
theorem reader_eq (h : OneConnection s) (hs : Shape s) {i : ℕ} (hi : (s.readers i).pc ≠ .done) :
    i = 0 ∧ s.connectors 0 = .done := by
  have hlt := hs.reader_lt hi
  rw [h.readers] at hlt
  split at hlt
  · exact ⟨by omega, ‹_›⟩
  · omega

/-- The connector is left alone. -/
theorem keep {x : Session} (h : OneConnection s) (hj : x.connectors = s.connectors)
    (hn : x.nConnectors = s.nConnectors) (hr : x.nReaders = s.nReaders) (hc : x.conns = s.conns)
    (hs : x.proxyProcessSocket = s.proxyProcessSocket)
    (hp : x.processConnecting = s.processConnecting) (hb : x.bypass = s.bypass)
    (hrs : x.link.responses = s.link.responses)
    (hH : (s.connectors 0).IsConnecting → ∀ d,
      (x.way d).handledTotalPkgLen = (s.way d).handledTotalPkgLen) (hf : x.NoFlush)
    (hin : ∀ d, (x.way d).relay.InProcess →
      x.bypass = false ∧ (d = .res → x.responseBypass = false))
    (hd : ∀ d, ¬ (x.way d).relay.InProcess → (x.way d).storedData = [] ∧ x.link.frames d = [])
    (hw : ∀ d i, (x.readers i).pc.Writing d → (x.way d).storedData ≠ []) : OneConnection x where
  one := hn.trans h.one
  readers := by rw [hr, hj]; exact h.readers
  conns := by rw [hc, hj]; exact h.conns
  early he := by
    rw [hj] at he
    exact ⟨hb.trans (h.early he).1, fun d => (hH he d).trans ((h.early he).2 d)⟩
  up he := by rw [hj] at he; rw [hs]; exact h.up he
  late he := by rw [hj] at he; rw [hb, hp]; exact h.late he
  noFlush := hf
  inProcess := hin
  direct := hd
  writing := hw
  passing := by rw [hrs]; exact h.passing

/-- Nothing that `OneConnection` reads changes. -/
theorem same {x : Session} (h : OneConnection s) (hj : x.connectors = s.connectors)
    (hn : x.nConnectors = s.nConnectors) (hr : x.nReaders = s.nReaders)
    (hc : x.conns = s.conns) (hs : x.proxyProcessSocket = s.proxyProcessSocket)
    (hp : x.processConnecting = s.processConnecting) (hb : x.bypass = s.bypass)
    (hrb : x.responseBypass = s.responseBypass) (hw : x.way = s.way)
    (hrd : x.readers = s.readers) (hrs : x.link.responses = s.link.responses)
    (hl : ∀ d, x.link.frames d = s.link.frames d) : OneConnection x :=
  h.keep hj hn hr hc hs hp hb hrs (fun _ _ => by rw [hw])
    (by simpa only [NoFlush, hw, hr, hrd] using h.noFlush)
    (by rw [hw, hb, hrb]; exact h.inProcess) (fun d => by rw [hw, hl]; exact h.direct d)
    (by rw [hw, hrd]; exact h.writing)

/-- A relay goes on without flushing, and stays on the process path. -/
theorem setRelay (h : OneConnection s) {d : Dir} {w : Way} (hf : ¬ w.relay.IsFlush)
    (hH : w.handledTotalPkgLen = (s.way d).handledTotalPkgLen)
    (hS : w.storedData = (s.way d).storedData)
    (hin : w.relay.InProcess → s.bypass = false ∧ (d = .res → s.responseBypass = false))
    (hd : (s.way d).relay.InProcess → w.relay.InProcess) : OneConnection (s.setWay d w) := by
  have hne : ∀ {d'}, d' ≠ d → (s.setWay d w).way d' = s.way d' := fun hd' => by simp [hd']
  refine h.keep rfl rfl rfl rfl rfl rfl rfl rfl (fun _ d' => ?_) ⟨fun d' => ?_, h.noFlush.2⟩
    (fun d' => ?_) (fun d' hn => ?_) fun d' i hw => ?_
  · by_cases hd' : d' = d
    · subst hd'; simpa using hH
    · rw [hne hd']
  · by_cases hd' : d' = d
    · subst hd'; simpa using hf
    · rw [hne hd']; exact h.noFlush.1 d'
  · by_cases hd' : d' = d
    · subst hd'; simp only [setWay_way, Function.update_self]; exact hin
    · rw [hne hd']; exact h.inProcess d'
  · by_cases hd' : d' = d
    · subst hd'
      simp only [setWay_way, Function.update_self, setWay_link] at hn ⊢
      rw [hS]
      exact h.direct d' fun hp => hn (hd hp)
    · rw [hne hd'] at hn ⊢
      exact h.direct d' hn
  · have hw' := h.writing d' i hw
    by_cases hd' : d' = d
    · subst hd'; simpa [hS] using hw'
    · rw [hne hd']; exact hw'

/-- A reader goes on without flushing. -/
theorem setReader (h : OneConnection s) {i : ℕ} {pc : ReaderPc} (hf : ¬ pc.IsFlush)
    (hw : ∀ d, pc.Writing d → (s.way d).storedData ≠ []) : OneConnection (s.setReader i pc) := by
  refine h.keep rfl rfl rfl rfl rfl rfl rfl rfl (fun _ _ => rfl) ⟨h.noFlush.1, fun i' hi' => ?_⟩
    h.inProcess h.direct fun d i' hw' => ?_
  · by_cases hi : i' = i
    · subst hi; simpa using hf
    · simpa [hi] using h.noFlush.2 i' hi'
  · by_cases hi : i' = i
    · subst hi; exact hw d (by simpa using hw')
    · exact h.writing d i' (by simpa [hi] using hw')

theorem emit (h : OneConnection s) (a : Act) : OneConnection (s.emit a) :=
  h.same rfl rfl rfl rfl rfl rfl rfl rfl rfl rfl rfl fun _ => rfl

theorem cancelTimer (h : OneConnection s) : OneConnection s.cancelTimer :=
  h.same rfl rfl rfl rfl rfl rfl rfl rfl rfl rfl rfl fun _ => rfl

theorem noteRead (h : OneConnection s) (i : ℕ) : OneConnection (s.noteRead i) :=
  noteRead_ind (fun _ => h.same rfl rfl rfl rfl rfl rfl rfl rfl rfl rfl (by simp) fun d => by simp)
    fun _ => h

theorem readHead (h : OneConnection s) (i : ℕ) : OneConnection (s.readHead i) :=
  (h.noteRead i).setReader id fun _ hw => hw.elim

/-- A relay continues its loop; it leaves the process path only in a session that
    closes. -/
theorem relayLoop (h : OneConnection s) {d : Dir} (ho : (s.relayLoop d).hasClosed = false) :
    OneConnection (s.relayLoop d) := by
  refine relayLoop_ind (P := fun s' => s'.hasClosed = false → OneConnection s') (fun _ hc => ?_)
    (fun _ hb _ => ?_) (fun _ _ hd hr _ => ?_) (fun _ hb hr _ => ?_) ho
  · rw [show (s.graceClose.setRelay d .done).hasClosed = true from graceClose_hasClosed s] at hc
    cases hc
  · refine h.setRelay id rfl rfl (fun hp => hp.elim) fun hp => ?_
    have := (h.inProcess d hp).1
    rw [hb] at this; cases this
  · refine h.setRelay id rfl rfl (fun hp => hp.elim) fun hp => ?_
    have := (h.inProcess d hp).2 hd
    rw [hr] at this; cases this
  · exact h.setRelay id rfl rfl (fun _ => ⟨hb, hr⟩) fun _ => trivial

theorem setPeerWrite (h : OneConnection s) {t : Tid} {d : Dir} {w : PeerWrite} {k : ℕ}
    (ht : s.peerWrite t = some (d, w)) (hs : Shape s) :
    OneConnection (s.setPeerWrite { w with rest := w.rest.drop k } t) := by
  cases t with
  | relay d' =>
    exact h.setRelay (fun hf => h.noFlush.1 d' (RelayPc.isFlush_setPeerWrite.1 hf)) rfl rfl
      (fun hp => h.inProcess d' (RelayPc.inProcess_setPeerWrite.1 hp))
      RelayPc.inProcess_setPeerWrite.2
  | reader i =>
    have hi : i < s.nReaders := hs.reader_lt fun hd => by
      rw [peerWrite, hd] at ht; cases ht
    exact h.setReader (fun hf => h.noFlush.2 i hi (ReaderPc.isFlush_setPeerWrite.1 hf))
      fun d' hw => h.writing d' i (ReaderPc.writing_of_drop ht hw)
  | connector => exact h
  | detector => exact h

/-- The connector goes on with the four tuple. -/
theorem setTuple (h : OneConnection s) {conn conn' : ℕ} {w w' : LinkWrite}
    (hpc : s.connectors 0 = .fourTuple conn w) :
    OneConnection (s.setConnector 0 (.fourTuple conn' w')) := by
  have hcon : (s.setConnector 0 (.fourTuple conn' w')).connectors 0 = .fourTuple conn' w' := by
    simp [Session.setConnector]
  have hn : ∀ {c l}, ¬ (ConnectorPc.fourTuple c l).IsConnecting ∧
      ¬ (ConnectorPc.fourTuple c l).IsDown ∧ ConnectorPc.fourTuple c l ≠ .done := by
    intro c l
    simp [ConnectorPc.IsConnecting, ConnectorPc.IsDown]
  refine ⟨h.one, ?_, ?_, fun he => ?_, fun _ => ?_, fun _ => ?_, h.noFlush, h.inProcess, h.direct,
    h.writing, h.passing⟩
  · rw [hcon, if_neg hn.2.2]
    have := h.readers
    rwa [hpc, if_neg hn.2.2] at this
  · rw [hcon, if_neg hn.2.1]
    have := h.conns
    rwa [hpc, if_neg hn.2.1] at this
  · rw [hcon] at he; exact absurd he hn.1
  · exact h.up (by rw [hpc]; exact hn.2.1)
  · exact h.late (by rw [hpc]; exact hn.1)

theorem setLinkWrite (h : OneConnection s) (hs : Shape s) {w w' : LinkWrite} {t : Tid}
    (ht : s.linkWrite t = some w) : OneConnection (s.setLinkWrite w' t) := by
  cases t with
  | relay d =>
    exact h.setRelay (fun hf => h.noFlush.1 d (RelayPc.isFlush_setLinkWrite.1 hf)) rfl rfl
      (fun hp => h.inProcess d (RelayPc.inProcess_setLinkWrite.1 hp))
      RelayPc.inProcess_setLinkWrite.2
  | connector j =>
    simp only [linkWrite] at ht
    cases hpc : s.connectors j with
    | fourTuple conn u =>
      obtain rfl := h.connector_eq hs (j := j) (by rw [hpc]; simp)
      simp only [Session.setLinkWrite, hpc]
      exact h.setTuple hpc
    | _ => rw [hpc] at ht; cases ht
  | reader i => exact h
  | detector k => exact h

theorem setLinkRead (h : OneConnection s) (i : ℕ) (r : LinkRead) (hi : i < s.nReaders) :
    OneConnection (s.setLinkRead i r) := by
  have hf := h.noFlush.2 i hi
  refine h.setReader (fun hf' => hf ?_) fun d hw => h.writing d i ?_
  all_goals cases hpc : (s.readers i).pc <;> simp_all [ReaderPc.setLinkRead] <;> assumption

/-- With the queue empty nothing is released. -/
theorem not_writing_of_nil {w : Way} {d d' : Dir} {head : ResponseHead} {live : Bool}
    (hn : w.storedData = []) :
    let r := prepareTransferPacket head w.storedData w.handledTotalPkgLen
    ¬ (ReaderPc.release d r.handledPkgCount r.nextPkgUsedSize ⟨live, r.bytes, r.bytes⟩).Writing d' := by
  rw [hn]
  simp [ReaderPc.Writing, prepareTransferPacket, Prepared.bytes]

theorem actOnHead (h : OneConnection s) (hs : Shape s) {i : ℕ} (hi : (s.readers i).pc ≠ .done) (d : Dir)
    (conn : ℕ) (head : ResponseHead) (ho : (s.actOnHead i d conn head).hasClosed = false) :
    OneConnection (s.actOnHead i d conn head) := by
  refine actOnHead_ind (P := fun s' => s'.hasClosed = false → OneConnection s') (fun _ hc => ?_)
    (fun _ _ => ?_) ho
  · rw [show (s.graceClose.setReader i .done).hasClosed = true from graceClose_hasClosed s] at hc
    cases hc
  · obtain ⟨-, hdone⟩ := h.reader_eq hs hi
    have hway : ∀ {d' : Dir} {r : Prepared}, ((s.releasing i d conn head r).way d').relay =
        (s.way d').relay ∧ ((s.releasing i d conn head r).way d').storedData =
          (s.way d').storedData := by
      intro d' r
      by_cases hd : d' = d
      · subst hd; simp [Session.releasing]
      · simp [Session.releasing, hd]
    refine h.keep rfl rfl rfl rfl rfl rfl rfl rfl (fun he => ?_) ⟨fun d' => ?_, fun i' hi' => ?_⟩
      (fun d' => ?_) (fun d' => ?_) fun d' i' hw => ?_
    · rw [hdone] at he
      simp [ConnectorPc.IsConnecting] at he
    · rw [hway.1]; exact h.noFlush.1 d'
    · by_cases hii : i' = i
      · subst hii; simp [Session.releasing, ReaderPc.IsFlush]
      · simpa [Session.releasing, hii] using h.noFlush.2 i' hi'
    · rw [hway.1]; exact h.inProcess d'
    · rw [hway.1, hway.2]; exact h.direct d'
    · rw [hway.2]
      by_cases hii : i' = i
      · subst hii
        simp only [Session.releasing, Function.update_self] at hw
        intro hn
        obtain rfl : d = d' := hw.1
        exact not_writing_of_nil hn hw
      · exact h.writing d' i' (by simpa [Session.releasing, hii] using hw)

theorem dispatch (h : OneConnection s) (hs : Shape s) {i : ℕ} (hi : (s.readers i).pc ≠ .done) (conn : ℕ)
    (head : ResponseHead) (buf : List Byte) (ho : (s.dispatch i conn head buf).hasClosed = false) :
    OneConnection (s.dispatch i conn head buf) := by
  refine dispatch_ind (P := fun s' => s'.hasClosed = false → OneConnection s')
    (fun d _ => innerProxy_ind (P := fun s' => s'.hasClosed = false → OneConnection s') (fun _ _ => ?_)
      fun _ ho' => ?_) (fun _ => (h.emit _).cancelTimer.readHead i) (fun _ => (h.emit _).readHead i) ho
  · exact ((h.emit _).emit _).setReader id fun _ hw => hw.elim
  · exact (h.emit _).actOnHead (hs.emit _) hi d conn head ho'

/-- What is left of an empty queue. -/
theorem clearHandledPacket_nil {count : ℕ} {next : Int32} {kept : List Packet}
    (h : clearHandledPacket [] count next = some kept) : kept = [] := by
  obtain ⟨-, ⟨-, rfl⟩ | ⟨pkg, rest, -, hd, -⟩⟩ := clearHandledPacket_eq_some.1 h
  · exact List.drop_nil
  · rw [List.drop_nil] at hd
    cases hd

theorem clearReleased (h : OneConnection s) (hs : Shape s) {i : ℕ} {d : Dir} {count : ℕ} {next : Int32}
    (hi : (s.readers i).pc ≠ .done) : OneConnection (s.clearReleased i d count next) := by
  obtain ⟨rfl, hdone⟩ := h.reader_eq hs hi
  refine clearReleased_ind (fun kept hk => ?_) fun _ => ?_
  · -- the reader is the only one, and does not write any more
    have hother : ∀ i', i' ≠ 0 → (s.readers i').pc = .done := by
      intro i' hi'
      by_contra hn
      exact hi' (h.reader_eq hs hn).1
    have hway : ∀ d', ((s.setStored d kept).way d').relay = (s.way d').relay ∧
        ((s.setStored d kept).way d').handledTotalPkgLen = (s.way d').handledTotalPkgLen := by
      intro d'
      by_cases hd : d' = d <;> simp [setStored, hd]
    rw [← readHead_setReader _ 0 .done]
    refine OneConnection.readHead (h.keep (x := (s.setStored d kept).setReader 0 .done) rfl rfl rfl rfl
      rfl rfl rfl rfl (fun _ d' => (hway d').2)
      ⟨fun d' => ?_, fun i' hi' => ?_⟩ (fun d' => ?_) (fun d' hn => ?_) fun d' i' hw => ?_) 0
    · exact (hway d').1 ▸ h.noFlush.1 d'
    · by_cases hii : i' = 0
      · subst hii; simp [ReaderPc.IsFlush]
      · rw [setReader_readers, Function.update_of_ne hii]
        exact h.noFlush.2 i' hi'
    · exact (hway d').1 ▸ h.inProcess d'
    · have hn' : ¬ (s.way d').relay.InProcess := (hway d').1 ▸ hn
      obtain ⟨hst, hfr⟩ := h.direct d' hn'
      refine ⟨?_, hfr⟩
      by_cases hd : d' = d
      · subst hd
        rw [hst] at hk
        show ((s.setStored d' kept).way d').storedData = []
        simpa [setStored] using clearHandledPacket_nil hk
      · show ((s.setStored d kept).way d').storedData = []
        simpa [setStored, hd] using hst
    · by_cases hii : i' = 0
      · subst hii; simp [ReaderPc.Writing] at hw
      · rw [setReader_readers, Function.update_of_ne hii] at hw
        change (s.readers i').pc.Writing d' at hw
        rw [hother i' hii] at hw
        exact hw.elim
  · exact OneConnection.readHead (h.same (x := { s with undefined := true }) rfl rfl rfl rfl rfl rfl rfl
      rfl rfl rfl rfl fun _ => rfl) 0

/-! ## The steps -/

/-- A relay stores what it has read for the process. -/
theorem writeProcess (h : OneConnection s) {d : Dir} {live : Bool} {bytes : List Byte}
    (hpc : (s.way d).relay = .readProcess live) : OneConnection (s.writeProcess d bytes) := by
  rw [writeProcess_eq]
  generalize hs' : ({ s with way := _, links := _, trace := _ } : Session) = s'
  have hself : (s'.way d).relay = .writeProcess (s.asyncWriteProcess (frame d.dataType bytes)) ∧
      (s'.way d).storedData ≠ [] := by subst hs'; simp
  have hother : ∀ d', d' ≠ d → s'.way d' = s.way d' ∧ s'.link.frames d' = s.link.frames d' := by
    subst hs'
    intro d' hd
    refine ⟨by simp [hd], ?_⟩
    show (s.framed d bytes s.conns).frames d' = _
    unfold framed
    split <;> simp [hd, link]
  have hH : ∀ d', (s'.way d').handledTotalPkgLen = (s.way d').handledTotalPkgLen := by
    subst hs'
    intro d'
    by_cases hd : d' = d <;> simp [hd]
  have hin : ∀ d', (s'.way d').relay.InProcess → (s.way d').relay.InProcess := by
    intro d' hp
    by_cases hd : d' = d
    · subst hd; rw [hpc]; trivial
    · rwa [(hother d' hd).1] at hp
  have hfr : s'.connectors = s.connectors ∧ s'.nConnectors = s.nConnectors ∧
      s'.nReaders = s.nReaders ∧ s'.conns = s.conns ∧
      s'.proxyProcessSocket = s.proxyProcessSocket ∧
      s'.processConnecting = s.processConnecting ∧ s'.bypass = s.bypass ∧
      s'.responseBypass = s.responseBypass ∧ s'.readers = s.readers ∧
      s'.link.responses = s.link.responses := by
    subst hs'
    refine ⟨rfl, rfl, rfl, rfl, rfl, rfl, rfl, rfl, rfl, ?_⟩
    show (s.framed d bytes s.conns).responses = _
    unfold framed
    split <;> simp [link]
  obtain ⟨hj, hnj, hnr, hc, hsock, hp, hb, hrb, hr, hrs⟩ := hfr
  refine h.keep hj hnj hnr hc hsock hp hb hrs (fun _ d' => hH d') ⟨fun d' hf => ?_, ?_⟩ (fun d' hp' => ?_)
    (fun d' hn => ?_) fun d' i hw => ?_
  · by_cases hd : d' = d
    · subst hd; rw [hself.1] at hf; exact hf
    · rw [(hother d' hd).1] at hf; exact h.noFlush.1 d' hf
  · rw [hnr, hr]; exact h.noFlush.2
  · rw [hb, hrb]; exact h.inProcess d' (hin d' hp')
  · by_cases hd : d' = d
    · subst hd; rw [hself.1] at hn; exact absurd trivial hn
    · rw [(hother d' hd).1] at hn ⊢
      rw [(hother d' hd).2]
      exact h.direct d' hn
  · by_cases hd : d' = d
    · subst hd; exact hself.2
    · rw [(hother d' hd).1]; exact h.writing d' i (by rwa [hr] at hw)

/-- The kernel connects the first connection. -/
theorem connect (h : OneConnection s) (hpc : s.connectors 0 = .connecting false) :
    OneConnection { s with
      proxyProcessSocket := .connected
      conns := s.conns + 1
      links := Function.update s.links (s.conns + 1) {}
      connectors := Function.update s.connectors 0 (.connecting true) } := by
  have hb := (h.early (.inl ⟨_, hpc⟩)).1
  have hn : ∀ d, ¬ (s.way d).relay.InProcess := by
    intro d hp
    have := (h.inProcess d hp).1
    rw [hb] at this; cases this
  refine ⟨h.one, ?_, ?_, fun _ => h.early (.inl ⟨_, hpc⟩), fun _ => rfl, fun hc => ?_, h.noFlush,
    h.inProcess, fun d _ => ⟨(h.direct d (hn d)).1, by simp [link]⟩, h.writing,
    fun r hr => by simp [link] at hr⟩
  · have := h.readers
    rw [hpc] at this
    simpa using this
  · have := h.conns
    rw [hpc] at this
    simpa [ConnectorPc.IsDown] using this
  · simp [ConnectorPc.IsConnecting] at hc

/-- The first connection is up: bypass is disabled. -/
theorem connected (h : OneConnection s) (hpc : s.connectors 0 = .connecting true) :
    OneConnection (s.fourTuple2process 0) := by
  have hb := (h.early (.inl ⟨_, hpc⟩)).1
  have hn : ∀ d, ¬ (s.way d).relay.InProcess := by
    intro d hp
    have := (h.inProcess d hp).1
    rw [hb] at this; cases this
  have hup := h.up (by rw [hpc]; simp [ConnectorPc.IsDown])
  have hcon : ∃ w, (s.fourTuple2process 0).connectors 0 = .fourTuple s.conns w := by
    simp [fourTuple2process, Session.setConnector]
  obtain ⟨w, hcon⟩ := hcon
  refine ⟨h.one, ?_, ?_, fun he => ?_, fun _ => hup, fun _ => ⟨rfl, rfl⟩, h.noFlush,
    fun d hp => absurd hp (hn d), fun d _ => h.direct d (hn d), h.writing, h.passing⟩
  · have := h.readers
    rw [hpc] at this
    rw [hcon]
    show s.nReaders = _
    simpa using this
  · have := h.conns
    rw [hpc] at this
    rw [hcon]
    show s.conns = _
    simpa [ConnectorPc.IsDown] using this
  · rw [hcon] at he
    simp [ConnectorPc.IsConnecting] at he

/-- The connector waits, or tries again. -/
theorem retry (h : OneConnection s) {pc pc' : ConnectorPc} (hpc : s.connectors 0 = pc) (hd : pc.IsDown)
    (hd' : pc'.IsDown) (hj : s'.connectors 0 = pc') (hn : s'.nConnectors = s.nConnectors)
    (hnr : s'.nReaders = s.nReaders) (hc : s'.conns = s.conns) (hb : s'.bypass = s.bypass)
    (hrb : s'.responseBypass = s.responseBypass) (hw : s'.way = s.way)
    (hrd : s'.readers = s.readers) (hl : s'.links = s.links) : OneConnection s' := by
  have hcon : ∀ {pc : ConnectorPc}, pc.IsDown → pc.IsConnecting ∧ pc ≠ .done := by
    rintro pc (rfl | rfl)
    · exact ⟨.inl ⟨_, rfl⟩, by simp⟩
    · exact ⟨.inr rfl, by simp⟩
  refine ⟨hn.trans h.one, ?_, ?_, fun _ => ?_, fun he => absurd (hj ▸ hd') he, fun he => ?_, ?_, ?_,
    ?_, ?_, ?_⟩
  · rw [hj, if_neg (hcon hd').2, hnr]
    have := h.readers
    rwa [hpc, if_neg (hcon hd).2] at this
  · rw [hj, if_pos hd', hc]
    have := h.conns
    rwa [hpc, if_pos hd] at this
  · rw [hb, hw]; exact h.early (hpc ▸ (hcon hd).1)
  · exact absurd (hj ▸ (hcon hd').1) he
  · simpa only [NoFlush, hw, hnr, hrd] using h.noFlush
  · rw [hw, hb, hrb]; exact h.inProcess
  · rw [hw, link, hl, hc]; exact h.direct
  · rw [hw, hrd]; exact h.writing
  · rw [link, hl, hc]; exact h.passing

/-- The four tuple is sent, and the one reader is spawned. -/
theorem superviseProcess (h : OneConnection s) {conn : ℕ} {w : LinkWrite}
    (hpc : s.connectors 0 = .fourTuple conn w) : OneConnection (s.superviseProcess 0 conn) := by
  obtain ⟨ds, n, hd⟩ := s.superviseProcess_detectors 0 conn
  rw [hd]
  have hzero : s.nReaders = 0 := by
    have := h.readers
    rwa [hpc, if_neg (by simp)] at this
  have hone : s.conns = 1 := by
    have := h.conns
    rwa [hpc, if_neg (by simp [ConnectorPc.IsDown])] at this
  have hlate := h.late (by rw [hpc]; simp [ConnectorPc.IsConnecting])
  have hcon : (s.spawning 0 conn).connectors 0 = .done := by simp [Session.spawning]
  have hrd : ∀ i, ((s.spawning 0 conn).readers i).pc = .done ∨
      ((s.spawning 0 conn).readers i).pc = (s.readers i).pc := by
    intro i
    by_cases hi : i = s.nReaders
    · subst hi; left; simp [Session.spawning]
    · right; simp [Session.spawning, hi]
  have h₁ : OneConnection (s.spawning 0 conn) := by
    refine ⟨h.one, ?_, ?_, fun he => ?_, fun _ => h.up (by rw [hpc]; simp [ConnectorPc.IsDown]),
      fun _ => hlate, ⟨h.noFlush.1, fun i hi hf => ?_⟩, h.inProcess, h.direct, fun d i hw => ?_,
      h.passing⟩
    · rw [hcon, if_pos rfl]
      show s.nReaders + 1 = 1
      omega
    · rw [hcon, if_neg (by simp [ConnectorPc.IsDown])]
      exact hone
    · rw [hcon] at he; simp [ConnectorPc.IsConnecting] at he
    · have hi' : i = s.nReaders := by change i < s.nReaders + 1 at hi; omega
      subst hi'
      simp [Session.spawning, ReaderPc.IsFlush] at hf
    · rcases hrd i with hi | hi
      · rw [hi] at hw; exact hw.elim
      · rw [hi] at hw; exact h.writing d i hw
  exact (h₁.readHead s.nReaders).same rfl rfl rfl rfl rfl rfl rfl rfl rfl rfl rfl fun _ => rfl

theorem init (c : Conf) : OneConnection (Session.init c) := by
  have h₀ : OneConnection (Session.connectProcess
      { connBufSize := c.connBufSize
        responseBypass := c.responseBypass
        fourTuple := c.fourTuple } 0) := by
    refine ⟨rfl, rfl, rfl, fun _ => ⟨rfl, fun d => by cases d <;> rfl⟩, fun hc => ?_, fun hc => ?_,
      ⟨fun d => by cases d <;> exact id, fun i _ => id⟩, fun d hp => by cases d <;> exact hp.elim,
      fun d _ => by cases d <;> exact ⟨rfl, rfl⟩, fun d i hw => hw.elim, fun r hr => by cases hr⟩
    · exact absurd (.inl rfl) hc
    · exact absurd (.inl ⟨_, rfl⟩) hc
  exact (h₀.relayLoop (d := .req) rfl).relayLoop (d := .res) rfl

theorem step (h : OneConnection s) (hs : Shape s) (hc : s.hasClosed = false) {e : Event}
    (hC : KeepsConnection s e) (hP : PassesOnly s e) (hr : Rule s e s') (ho : s'.hasClosed = false) :
    OneConnection s' := by
  have hclosed : ∀ {s' : Session}, s'.hasClosed = true → s'.hasClosed = false → OneConnection s' :=
    fun h₁ h₂ => by rw [h₁] at h₂; cases h₂
  cases hr with
  | @gotDirect d live bytes hpc =>
    rw [writeDirect_eq]
    exact (h.setRelay (d := d) (w := { s.way d with
      received := (s.way d).received ++ bytes
      relay := .writeDirect (s.asyncWrite d bytes) }) id rfl rfl (fun hp => hp.elim)
        fun hp => by rw [hpc] at hp; exact hp.elim).same rfl rfl rfl rfl rfl rfl rfl rfl rfl rfl rfl
          fun _ => rfl
  | gotProcess hpc => exact h.writeProcess hpc
  | readEof =>
    rw [relayEof_eq] at ho ⊢
    exact hclosed (graceClose_hasClosed _) ho
  | readError => exact hclosed (graceClose_hasClosed s) ho
  | @pushPeer t k d w hw =>
    have h₁ : OneConnection (s.accept d (w.rest.take k)) :=
      h.setRelay (h.noFlush.1 d) rfl rfl (h.inProcess d) id
    refine h₁.setPeerWrite (d := d) ?_ (hs.setWay d _)
    cases t with
    | relay d' =>
      have : ((s.accept d (w.rest.take k)).way d').relay = (s.way d').relay := by
        by_cases hd : d' = d
        · subst hd; simp [accept]
        · simp [accept, hd]
      simpa [peerWrite, this] using hw
    | _ => exact hw
  | @pushLink t k w hw =>
    have h₁ : OneConnection (s.sendLink w k) :=
      h.same rfl rfl rfl rfl rfl rfl rfl rfl rfl rfl (by simp [sendLink]) fun d => by simp [sendLink]
    exact h₁.setLinkWrite (hs.congr rfl rfl rfl rfl rfl rfl rfl rfl rfl) (w := w)
      (by cases t <;> exact hw)
  | @pull i k r hr =>
    have h₁ : OneConnection (s.setLink { s.link with inbound := s.link.inbound.drop k }) :=
      h.same rfl rfl rfl rfl rfl rfl rfl rfl rfl rfl (by simp) fun d => by simp
    exact h₁.setLinkRead i _ (hs.of_linkRead hr)
  | issueWrite hw => exact h.setLinkWrite hs hw
  | @issueRead i r hr => exact (h.noteRead i).setLinkRead i _ (noteRead_ind
      (P := fun s' => i < s'.nReaders) (fun _ => hs.of_linkRead hr) fun _ => hs.of_linkRead hr)
  | @notified d w hpc =>
    exact h.setRelay id rfl rfl (fun hp => hp.elim) fun hp => by rw [hpc] at hp; exact hp.elim
  | @notifyFailed d w hpc =>
    have := hC hc
    rw [linkWrite, hpc] at this; cases this
  | wroteDirect => exact h.relayLoop ho
  | wroteProcess => exact h.relayLoop ho
  | @processFailed d w hpc =>
    have := hC hc
    rw [linkWrite, hpc] at this; cases this
  | @relayFlushed d gen w hpc => exact absurd (by rw [hpc]; trivial) (h.noFlush.1 d)
  | relayWriteFailed => exact hclosed (graceClose_hasClosed s) ho
  | @gotHead i => exact (h.noteRead i).setReader id fun _ hw => hw.elim
  | gotHeadOnly hpc => exact h.dispatch hs (by rw [hpc]; simp) _ _ _ ho
  | gotBody hpc => exact h.dispatch hs (by rw [hpc]; simp) _ _ _ ho
  | @readFailed i r hr =>
    have := hC hc
    rw [hr] at this; cases this
  | wroteNew hpc => exact h.actOnHead hs (by rw [hpc]; simp) _ _ _ ho
  | released hpc => exact h.clearReleased hs (by rw [hpc]; simp)
  | readerWriteFailed => exact hclosed (graceClose_hasClosed s) ho
  | @flushedServer i gen w hpc =>
    exact absurd (by rw [hpc]; trivial) (h.noFlush.2 i (hs.reader_lt (by rw [hpc]; simp)))
  | @flushServerFailed i gen w hpc =>
    exact absurd (by rw [hpc]; trivial) (h.noFlush.2 i (hs.reader_lt (by rw [hpc]; simp)))
  | @flushedClient i gen w hpc =>
    exact absurd (by rw [hpc]; trivial) (h.noFlush.2 i (hs.reader_lt (by rw [hpc]; simp)))
  | @flushClientFailed i gen w hpc =>
    exact absurd (by rw [hpc]; trivial) (h.noFlush.2 i (hs.reader_lt (by rw [hpc]; simp)))
  | @connected j hpc =>
    obtain rfl := h.connector_eq hs (j := j) (by rw [hpc]; simp)
    exact h.connected hpc
  | @connectFailed j hpc =>
    obtain rfl := h.connector_eq hs (j := j) (by rw [hpc]; simp)
    exact h.retry hpc (.inl rfl) (.inr rfl) (by simp [Session.setConnector]) rfl rfl rfl rfl rfl rfl
      rfl rfl
  | @retry j hpc =>
    obtain rfl := h.connector_eq hs (j := j) (by rw [hpc]; simp)
    refine connectLoop_ind (fun hc' => by rw [hc] at hc'; cases hc') fun _ => ?_
    exact h.retry hpc (.inr rfl) (.inl rfl) (by simp [Session.asyncConnect]) rfl rfl rfl rfl rfl rfl
      rfl rfl
  | @wroteTuple j conn w hpc =>
    obtain rfl := h.connector_eq hs (j := j) (by rw [hpc]; simp)
    exact h.superviseProcess hpc
  | @tupleFailed j conn w hpc =>
    have := hC hc
    rw [linkWrite, hpc] at this; cases this
  | @timedOut k conn hpc =>
    have := hC hc
    rw [hpc] at this; exact absurd trivial this
  | rearm =>
    obtain ⟨ds, hd⟩ := s.detectLoop_detectors _ _
    rw [hd]
    exact h.same rfl rfl rfl rfl rfl rfl rfl rfl rfl rfl rfl fun _ => rfl
  | @connect j hpc =>
    obtain rfl := h.connector_eq hs (j := j) (by rw [hpc]; simp)
    exact h.connect hpc
  | expire => exact h.same rfl rfl rfl rfl rfl rfl rfl rfl rfl rfl rfl fun _ => rfl
  | @respond g r =>
    refine ⟨h.one, h.readers, h.conns, h.early, h.up, h.late, h.noFlush, h.inProcess,
      fun d hn => ⟨(h.direct d hn).1, ?_⟩, h.writing, fun r' hr' => ?_⟩
    · have := (h.direct d hn).2
      by_cases hg : s.conns = g <;> simpa [link, hg] using this
    · by_cases hg : s.conns = g
      · simp only [link, hg, Function.update_self, List.mem_append, List.mem_singleton] at hr'
        rcases hr' with hr' | rfl
        · exact h.passing r' (by rwa [link, hg])
        · exact hP.2
      · exact h.passing r' (by simpa [link, hg] using hr')

end OneConnection

end CppProxy
