/-
  cpp_proxy — the work of the two programs.

  A byte that a peer sends is framed, sent to the process, read and handled there,
  acknowledged and written to the other peer, each in parts of any size.  Each step
  of this is paid for by what the proxy has read, or by a heartbeat.

  * `Session.work`, `Process.work`, `System.work`: how many steps are left at most
    until nothing moves;
  * `SystemEvent.Own`: the steps that the two programs take on their own;
  * `SystemEvent.cost`: the work that a read, a heartbeat or a refused connection
    brings;
  * `work_of_lasting`, `work_of_process`: a step of its own lowers the work;
  * `work_le`: the steps of an open session are linear in what it was sent.
-/
import CppProxy.Lasting
import CppProxy.Replies
import CppProxy.System

namespace CppProxy

open Session Runs

/-! ## Steps and what they cost -/

/-- A step of the proxy towards the delivery of what it has read. -/
def Event.Own : Event → Prop
  | push _ _ | pull _ _ | issue _ | connect _ => True
  | complete (.detector _) => False
  | complete _ => True
  | _ => False

/-- A read brings work for each of its bytes, and for its frame and the answer. -/
def Event.cost : Event → ℕ
  | read _ (.data bytes) => 18 * bytes.length + 172
  | fail (.connector _) => 1
  | _ => 0

/-- A step of the process towards the answers to what it was sent. -/
def ProcessEvent.Own : ProcessEvent → Prop
  | pull _ | readDone _ | push _ _ | wrote _ => True
  | _ => False

/-- A tick of `heartbeat` brings a head, and its way to the proxy. -/
def ProcessEvent.cost : ProcessEvent → ℕ
  | tick => 65
  | _ => 0

/-- A step of either end on its own. -/
def SystemEvent.Own : SystemEvent → Prop
  | proxy e => e.Own
  | process _ e => e.Own

/-- The work that a step brings. -/
def SystemEvent.cost : SystemEvent → ℕ
  | proxy e => e.cost
  | process _ e => e.cost

instance : ∀ e : Event, Decidable e.Own
  | .push _ _ | .pull _ _ | .issue _ | .connect _ | .complete (.relay _) | .complete (.reader _)
  | .complete (.connector _) => inferInstanceAs (Decidable True)
  | .complete (.detector _) | .read _ _ | .fail _ | .expire _ | .respond _ _ =>
    inferInstanceAs (Decidable False)

instance : ∀ e : ProcessEvent, Decidable e.Own
  | .pull _ | .readDone _ | .push _ _ | .wrote _ => inferInstanceAs (Decidable True)
  | .readEof _ _ | .readError | .tick | .cancelled | .writeFailed _ =>
    inferInstanceAs (Decidable False)

instance : DecidablePred SystemEvent.Own
  | .proxy e => inferInstanceAs (Decidable e.Own)
  | .process _ e => inferInstanceAs (Decidable e.Own)

/-! ## The work that is left -/

/-- An idle operation issues its next part. -/
def Io.work : Io → ℕ
  | idle => 1
  | _ => 0

/-- Each byte of a frame is sent, and then read and handled by the process. -/
def LinkWrite.work (w : LinkWrite) : ℕ := 17 * w.rest.length + w.io.work

/-- A relay that goes on to its next read may write a notification before it. -/
def RelayPc.work : RelayPc → ℕ
  | notify w => w.work + 1
  | writeDirect _ => 87
  | writeProcess w => w.work + 87
  | _ => 0

/-- A reader resumes for each byte it has got, and once its operation is idle. -/
def ReaderPc.work : ReaderPc → ℕ
  | readHead r => r.got.length + r.io.work
  | release _ _ _ _ => 1
  | _ => 0

/-- The work of `connect_process` for a four tuple of `n` bytes. -/
def ConnectorPc.work (n : ℕ) : ConnectorPc → ℕ
  | connecting up => 17 * (n + 5) + if up then 2 else 3
  | waiting => 17 * (n + 5) + 4
  | fourTuple _ w => w.work + 1
  | done => 0

/-- The work of a relay, and the bytes that its receiver has not accepted. -/
def Way.work (w : Way) : ℕ := w.relay.work + (w.received.length - w.accepted.length)

/-- The steps that are left to a session with one connection. -/
def Session.work (s : Session) : ℕ :=
  (s.way .req).work + (s.way .res).work + (s.connectors 0).work s.fourTuple.length +
    (s.readers 0).pc.work + 3 * s.link.inbound.length

/-- Each byte of a head is sent; when it is begun, the proxy can read all of it. -/
def HeadWrite.work (w : HeadWrite) : ℕ :=
  w.rest.length + 1 + if w.rest = w.frame then 48 else 0

/-- What `setup` has got leads to the answer, which is sent and read. -/
def SetupPc.work : SetupPc → ℕ
  | readHead got => 14 * got.length
  | readBody _ got => 14 * got.length + 66
  | write w => w.work
  | done => 0

/-- The head that `heartbeat` writes. -/
def HeartbeatPc.work : HeartbeatPc → ℕ
  | write w => w.work
  | _ => 0

/-- The steps that are left to a session of the process. -/
def Process.work (p : Process) : ℕ := p.setup.work + p.heartbeat.work

/-- The steps that are left to an open session and its process. -/
def System.work (y : System) : ℕ :=
  y.proxy.work + y.peer.work + 15 * (y.proxy.link.sent.length - y.peer.received.length)

/-! ## The functions of the proxy -/

namespace Session

variable {s s' : Session}

theorem work_congr (hw : s'.way = s.way) (hj : s'.connectors 0 = s.connectors 0)
    (hf : s'.fourTuple = s.fourTuple) (hr : (s'.readers 0).pc = (s.readers 0).pc)
    (hi : s'.link.inbound = s.link.inbound) : s'.work = s.work := by
  rw [work, work, hw, hj, hf, hr, hi]

/-- What a change of one part of a session does to its work. -/
theorem work_setWay {d : Dir} {w : Way} {m n : ℕ} (h : w.work + m ≤ (s.way d).work + n) :
    (s.setWay d w).work + m ≤ s.work + n := by
  cases d <;> simp [work, setWay, link] <;> omega

theorem work_setRelay {d : Dir} {pc : RelayPc} {m n : ℕ}
    (h : pc.work + m ≤ (s.way d).relay.work + n) : (s.setRelay d pc).work + m ≤ s.work + n := by
  refine work_setWay ?_
  simp only [Way.work]
  omega

theorem work_setReader {p : ReaderPc} {m n : ℕ} (h : p.work + m ≤ (s.readers 0).pc.work + n) :
    (s.setReader 0 p).work + m ≤ s.work + n := by
  simp [work, setReader, link]
  omega

theorem work_setConnector {p : ConnectorPc} {m n : ℕ}
    (h : p.work s.fourTuple.length + m ≤ (s.connectors 0).work s.fourTuple.length + n) :
    (s.setConnector 0 p).work + m ≤ s.work + n := by
  simp [work, setConnector, link]
  omega

/-- A part that is issued is not idle. -/
theorem issued_work (s : Session) : s.issued.work = 0 := by
  unfold issued
  split <;> rfl

theorem work_graceClose (s : Session) : s.graceClose.work = s.work :=
  graceClose_ind (P := fun s' => s'.work = s.work) (fun _ => rfl) fun _ => rfl

theorem work_noteRead (s : Session) (i : ℕ) : (s.noteRead i).work = s.work :=
  noteRead_ind (P := fun s' => s'.work = s.work)
    (fun _ => work_congr rfl rfl rfl rfl (by simp)) fun _ => rfl

/-- A new iteration of a relay writes a notification at most. -/
theorem work_relayLoop (s : Session) (d : Dir) :
    (s.relayLoop d).work + (s.way d).relay.work ≤ s.work + 86 := by
  have hgo : ∀ {x : Session} {pc : RelayPc}, x.way d = s.way d → x.work = s.work →
      pc.work ≤ 86 → (x.setRelay d pc).work + (s.way d).relay.work ≤ s.work + 86 := by
    intro x pc hway hwork hpc
    rw [← hwork]
    refine work_setRelay ?_
    rw [hway]
    omega
  refine relayLoop_ind (P := fun s' => s'.work + (s.way d).relay.work ≤ s.work + 86) (fun _ => ?_)
    (fun _ _ => ?_) (fun _ _ _ _ => ?_) fun _ _ _ => ?_
  · refine hgo ?_ s.work_graceClose (Nat.zero_le _)
    exact graceClose_ind (P := fun s' => s'.way d = s.way d) (fun _ => rfl) fun _ => rfl
  · exact hgo rfl rfl (Nat.zero_le _)
  · refine hgo rfl rfl ?_
    simp [RelayPc.work, LinkWrite.work, asyncWriteProcess, issued_work, length_frame]
  · have hw : ((s.innerClientOrServer2proxy2process d).way d).work =
        (s.way d).received.length - (s.way d).accepted.length := by
      simp [innerClientOrServer2proxy2process, Way.work, RelayPc.work]
    have h := work_setWay (s := s) (d := d) (w := (s.innerClientOrServer2proxy2process d).way d)
      (m := (s.way d).relay.work) (n := 0) (by rw [hw, Way.work]; omega)
    have hs : s.setWay d ((s.innerClientOrServer2proxy2process d).way d) =
        s.innerClientOrServer2proxy2process d := by
      simp [innerClientOrServer2proxy2process]
    rw [hs] at h
    omega

/-- A read of a head starts with nothing read. -/
theorem work_readHead {m n : ℕ} (h : m ≤ (s.readers 0).pc.work + n) :
    (s.readHead 0).work + m ≤ s.work + n := by
  rw [← s.work_noteRead 0]
  refine work_setReader ?_
  simp only [ReaderPc.work.eq_1, asyncReadProcess, issued_work, List.length_nil, noteRead_readers]
  omega

/-- A head without new data is acted on with one write at most. -/
theorem work_dispatch (s : Session) (conn : ℕ) {head : ResponseHead} (buf : List Byte)
    (hn : head.newDataLen = 0) :
    (s.dispatch 0 conn head buf).work + (s.readers 0).pc.work ≤ s.work + 1 := by
  refine dispatch_ind (P := fun s' => s'.work + (s.readers 0).pc.work ≤ s.work + 1)
    (fun d _ => innerProxy_ind (P := fun s' => s'.work + (s.readers 0).pc.work ≤ s.work + 1)
      (fun h => absurd hn h) fun _ => actOnHead_ind
        (P := fun s' => s'.work + (s.readers 0).pc.work ≤ s.work + 1) (fun _ => ?_) fun _ => ?_)
    ?_ ?_
  · rw [← show (s.emit (.response 0 head)).graceClose.work = s.work from work_graceClose _]
    refine work_setReader ?_
    have hpc : ((s.emit (.response 0 head)).graceClose.readers 0).pc = (s.readers 0).pc :=
      graceClose_ind (P := fun s' => (s'.readers 0).pc = (s.readers 0).pc) (fun _ => rfl)
        fun _ => rfl
    rw [hpc, Nat.add_comm]
    exact Nat.add_le_add_left (Nat.zero_le _) _
  · generalize hr : prepareTransferPacket head _ _ = r
    have hway : ∀ d' : Dir, (((s.emit (.response 0 head)).releasing 0 d conn head r).way d').work =
        (s.way d').work := by
      intro d'
      by_cases hd : d' = d
      · subst hd; simp [releasing, Way.work]
      · simp [releasing, hd]
    have hpc : (((s.emit (.response 0 head)).releasing 0 d conn head r).readers 0).pc.work = 1 := by
      simp [releasing, ReaderPc.work]
    have h : ((s.emit (.response 0 head)).releasing 0 d conn head r).work = (s.way .req).work +
        (s.way .res).work + (s.connectors 0).work s.fourTuple.length + 1 +
          3 * s.link.inbound.length := by
      rw [work, hway, hway, hpc]
      rfl
    rw [h, work]
    omega
  · exact work_readHead (s := (s.emit (.response 0 head)).cancelTimer) (Nat.le_succ _)
  · exact work_readHead (s := s.emit (.response 0 head)) (Nat.le_succ _)

theorem work_clearReleased (s : Session) (d : Dir) (count : ℕ) (next : Int32) :
    (s.clearReleased 0 d count next).work + (s.readers 0).pc.work ≤ s.work := by
  refine clearReleased_ind (P := fun s' => s'.work + (s.readers 0).pc.work ≤ s.work)
    (fun stored _ => ?_) fun _ => work_readHead (s := { s with undefined := true }) (n := 0) le_rfl
  refine (work_readHead (s := s.setStored d stored) (n := 0) le_rfl).trans ?_
  exact work_setWay (m := 0) (n := 0) le_rfl

/-- The reader that is spawned starts a read. -/
theorem work_superviseProcess (s : Session) (conn : ℕ) (hn : s.nReaders = 0) :
    (s.superviseProcess 0 conn).work + (s.connectors 0).work s.fourTuple.length ≤ s.work := by
  obtain ⟨ds, n, hd⟩ := s.superviseProcess_detectors 0 conn
  have hs : (s.spawning 0 conn).work + (s.connectors 0).work s.fourTuple.length ≤ s.work := by
    have hpc : ((s.spawning 0 conn).readers 0).pc.work = 0 := by
      simp [spawning, hn, ReaderPc.work]
    have hc : ((s.spawning 0 conn).connectors 0).work s.fourTuple.length = 0 := by
      simp [spawning, ConnectorPc.work]
    simp only [work]
    rw [hpc, show (s.spawning 0 conn).fourTuple = s.fourTuple from rfl, hc]
    simp only [spawning, link]
    omega
  have hx : ({ (s.spawning 0 conn).readHead 0 with detectors := ds, nDetectors := n } : Session).work =
      ((s.spawning 0 conn).readHead 0).work := work_congr rfl rfl rfl rfl rfl
  have hread := work_readHead (s := s.spawning 0 conn) (m := 0) (n := 0) (Nat.zero_le _)
  rw [hd, hn, hx]
  omega

/-- A step of its own lowers the work, and the bytes that it sends to the process are
    worth 15 there. -/
def Works (s : Session) (e : Event) (s' : Session) : Prop :=
  s'.work + 15 * (s'.link.sent.length - s.link.sent.length) + (if e.Own then 1 else 0) ≤
    s.work + e.cost

/-- Bytes are sent to the process only by a part of a frame. -/
theorem sent_of_rule {e : Event} (hr : Rule s e s') : s'.link.sent.length ≤ s.link.sent.length ∨
    ∃ t k w, e = .push t k ∧ s.linkWrite t = some w ∧
      s'.link.sent = s.link.sent ++ w.rest.take k := by
  cases moves hr with
  | code hm => exact .inl (by rw [link, link, hm.conns, hm.sent])
  | @sent t k w hw =>
    refine .inr ⟨t, k, w, rfl, hw, ?_⟩
    obtain ⟨hlinks, hconns, -, -⟩ := Linked.setLinkWrite_frame (s.sendLink w k)
      { w with io := .idle, rest := w.rest.drop k } t
    rw [link, hlinks, hconns, ← link, sendLink, setLink_link]
  | connect => exact .inl (by simp [link])
  | connected => exact .inl le_rfl

/-- The work of a write to the process is that of its coroutine. -/
theorem work_setLinkWrite {t : Tid} {w w' : LinkWrite} (ht : s.linkWrite t = some w)
    (h0 : ∀ j, t = .connector j → j = 0) {m n : ℕ} (h : w'.work + m ≤ w.work + n) :
    (s.setLinkWrite w' t).work + m ≤ s.work + n := by
  cases t with
  | relay d =>
    refine work_setRelay (s := s) (d := d) ?_
    simp only [linkWrite] at ht
    cases hpc : (s.way d).relay <;> rw [hpc] at ht <;> cases ht <;>
      simp only [RelayPc.setLinkWrite, RelayPc.work] <;> omega
  | connector j =>
    obtain rfl := h0 j rfl
    refine work_setConnector (s := s) ?_
    simp only [linkWrite] at ht
    cases hpc : s.connectors 0 <;> rw [hpc] at ht <;> cases ht
    simp only [ConnectorPc.setLinkWrite, ConnectorPc.work]
    omega
  | reader | detector => cases ht

/-- A payload for the process is framed. -/
theorem work_writeProcess (s : Session) {d : Dir} {live : Bool} (bytes : List Byte)
    (hpc : (s.way d).relay = .readProcess live) :
    (s.writeProcess d bytes).work + 0 ≤ s.work + (18 * bytes.length + 172) := by
  rw [writeProcess_eq]
  generalize hw : ({ s.way d with
    received := (s.way d).received ++ bytes
    storedData := (s.way d).storedData ++ [Packet.ofData bytes]
    block := (s.way d).block.map fun b => b.updateAvailable (UInt32.ofNat bytes.length + 5)
    relay := .writeProcess (s.asyncWriteProcess (frame d.dataType bytes)) } : Way) = w
  have hwork : w.work + 0 ≤ (s.way d).work + (18 * bytes.length + 172) := by
    subst hw
    simp only [Way.work, hpc, List.length_append, RelayPc.work, LinkWrite.work, asyncWriteProcess,
      issued_work, length_frame]
    omega
  have hin : (s.framed d bytes s.conns).inbound = s.link.inbound := by
    unfold framed
    split
    · simp
    · rfl
  rw [show ({ s with
      way := Function.update s.way d w
      links := s.framed d bytes
      trace := s.trace ++ [.got d s.bypass bytes, .frame d bytes] } : Session).work =
    (s.setWay d w).work from work_congr rfl rfl rfl rfl hin]
  exact work_setWay hwork

theorem work_sendLink (s : Session) (w : LinkWrite) (k : ℕ) : (s.sendLink w k).work = s.work :=
  work_congr rfl rfl rfl rfl (by simp [sendLink])

/-- **A step of the proxy's own lowers its work**, but for what the process has to do. -/
theorem work_of_lasting {e : Event} (h : Lasting s e s') (hr : Rule s e s')
    (h0 : ∀ t w j, s.linkWrite t = some w → t = .connector j → j = 0)
    (he : ∀ g r, e ≠ .respond g r)
    (hle : ∀ d, (s'.way d).accepted.length ≤ (s'.way d).received.length) : Works s e s' := by
  have hquiet : (∀ t k w, e = .push t k → s.linkWrite t ≠ some w) →
      s'.work + (if e.Own then 1 else 0) ≤ s.work + e.cost → Works s e s' := by
    intro hn hw
    rcases sent_of_rule hr with hs | ⟨t, k, w, rfl, hw', -⟩
    · rw [Works, Nat.sub_eq_zero_of_le hs]
      exact hw
    · exact absurd hw' (hn t k w rfl)
  have hown : e.Own → (∀ t k w, e = .push t k → s.linkWrite t ≠ some w) →
      s'.work + 1 ≤ s.work + 0 → Works s e s' := by
    intro he hn hw
    refine hquiet hn ?_
    rw [if_pos he]
    exact hw.trans (Nat.add_le_add_left (Nat.zero_le _) _)
  cases h with
  | @gotDirect d live bytes hpc =>
    refine hquiet (by simp) ?_
    rw [writeDirect_eq]
    refine work_setWay (s := s) (d := d) (n := 18 * bytes.length + 172) (m := 0) ?_
    simp only [Way.work, hpc, List.length_append, RelayPc.work]
    omega
  | @gotProcess d live bytes hpc => exact hquiet (by simp) (s.work_writeProcess bytes hpc)
  | @pushDirect d k w hpc hk0 hk =>
    refine hown trivial ?_ (work_setWay ?_)
    · rintro t k w ⟨⟩
      simp [linkWrite, hpc, RelayPc.linkWrite]
    · have hd := hle d
      simp only [setWay_way, Function.update_self, List.length_append, List.length_take] at hd
      simp only [Way.work, hpc, List.length_append, List.length_take, RelayPc.work]
      omega
  | @notified d w hpc hf =>
    refine hown trivial (by simp) (work_setRelay (s := s) (d := d) ?_)
    rw [hpc]
    simp only [RelayPc.work]
    omega
  | @wroteDirect d w hpc hf =>
    refine hown trivial (by simp) ?_
    have h := s.work_relayLoop d
    rw [hpc] at h
    simp only [RelayPc.work] at h
    omega
  | @wroteProcess d w hpc hf =>
    refine hown trivial (by simp) ?_
    have h := s.work_relayLoop d
    rw [hpc] at h
    simp only [RelayPc.work] at h
    omega
  | @issueWrite t w hw hi hr =>
    refine hown trivial (by simp) (work_setLinkWrite hw (fun j => h0 t w j hw) ?_)
    simp only [LinkWrite.work, issued_work, hi]
    exact le_rfl
  | @pushLink t k w hw hi hk0 hk =>
    have hwork : ((s.sendLink w k).setLinkWrite { w with io := .idle, rest := w.rest.drop k } t).work +
        (15 * k + 1) ≤ s.work + 0 := by
      rw [← s.work_sendLink w k]
      refine work_setLinkWrite (w := w) (by cases t <;> exact hw) (fun j => h0 t w j hw) ?_
      simp only [LinkWrite.work, Io.work, List.length_drop]
      omega
    have hsent : ((s.sendLink w k).setLinkWrite { w with
        io := .idle, rest := w.rest.drop k } t).link.sent.length ≤ s.link.sent.length + k := by
      rcases sent_of_rule hr with hs | ⟨t', k', w', he, hw', hs⟩
      · omega
      · cases he
        rw [hs, List.length_append]
        exact Nat.add_le_add_left (List.length_take_le _ _) _
    rw [Works, if_pos (show Event.Own (.push t k) from trivial)]
    omega
  | @issueRead r hpc hi hw =>
    refine hown trivial (by simp) ?_
    rw [← s.work_noteRead 0]
    refine work_setReader ?_
    rw [noteRead_readers, hpc]
    simp only [ReaderPc.work, issued_work, hi]
    exact le_rfl
  | @pull k r hpc hi hk0 hk hin =>
    refine hown trivial (by simp) ?_
    have hx : (s.setLink { s.link with inbound := s.link.inbound.drop k }).work +
        3 * k = s.work := by
      simp only [work, setLink_link, List.length_drop]
      simp only [setLink]
      omega
    have h := work_setReader (s := s.setLink { s.link with inbound := s.link.inbound.drop k })
      (p := .readHead { r with io := .idle, got := r.got ++ s.link.inbound.take k }) (m := 0)
      (n := k + 1) (by
        rw [show ((s.setLink { s.link with inbound := s.link.inbound.drop k }).readers 0).pc =
          .readHead r from hpc]
        simp only [ReaderPc.work, hi, Io.work, List.length_append, List.length_take]
        omega)
    omega
  | @gotHead r hpc hf hl hb =>
    refine hown trivial (by simp) ?_
    have h := s.work_dispatch r.gen [] hb
    rw [hpc] at h
    simp only [ReaderPc.work, hl, responseHeadLen] at h
    omega
  | @pushRelease d count next k w hpc hk0 hk =>
    refine hown trivial (by rintro t k w ⟨⟩; simp [linkWrite]) ?_
    have hd := hle d
    simp only [accept, setReader, setWay_way, Function.update_self, List.length_append,
      List.length_take] at hd
    have h₁ : (s.accept d (w.rest.take k)).work + 1 ≤ s.work + 0 := by
      refine work_setWay ?_
      simp only [Way.work, List.length_append, List.length_take]
      omega
    have h₂ := work_setReader (s := s.accept d (w.rest.take k)) (m := 0) (n := 0)
      (p := .release d count next { w with rest := w.rest.drop k }) (by
        rw [show ((s.accept d (w.rest.take k)).readers 0).pc = .release d count next w from hpc]
        exact le_rfl)
    omega
  | @released d count next w hpc hf =>
    refine hown trivial (by simp) ?_
    have h := s.work_clearReleased d count next
    rw [hpc] at h
    exact h
  | connectFailed hpc =>
    refine hquiet (by simp) (work_setConnector (m := 0) (n := 1) ?_)
    rw [hpc]
    exact le_rfl
  | retry hpc =>
    refine hown trivial (by simp) (work_setConnector (s := s) (p := .connecting false) ?_)
    rw [hpc]
    exact le_rfl
  | connect hpc hs =>
    refine hown trivial (by simp) ?_
    simp only [work, hpc, ConnectorPc.work, link, Function.update_self, List.length_nil,
      Bool.false_eq_true, if_false, if_true]
    omega
  | connected hpc =>
    refine hown trivial (by simp) ?_
    have h := work_setConnector (s := s) (p := .fourTuple s.conns
      (s.asyncWriteProcess (frame .fourTuple s.fourTuple))) (m := 1) (n := 0) (by
        rw [hpc]
        simp [ConnectorPc.work, LinkWrite.work, asyncWriteProcess, issued_work])
    exact h
  | @wroteTuple conn w hpc hf hn =>
    refine hown trivial (by simp) ?_
    have h := s.work_superviseProcess conn hn
    rw [hpc] at h
    simp only [ConnectorPc.work] at h
    omega
  | @rearm k conn =>
    obtain ⟨ds, hd⟩ := s.detectLoop_detectors k conn
    refine hquiet (by simp) ?_
    rw [hd]
    exact Nat.add_le_add (work_congr rfl rfl rfl rfl rfl).le le_rfl
  | expire => exact hquiet (by simp) (Nat.add_le_add (work_congr rfl rfl rfl rfl rfl).le le_rfl)
  | respond => exact absurd rfl (he _ _)

/-- The reader has to read what the process answers. -/
theorem work_respond {r : Response} (hr : Rule s (.respond s.conns r) s') :
    s'.work = s.work + 3 * r.bytes.length ∧ s'.conns = s.conns ∧ s'.link.sent = s.link.sent := by
  cases hr with
  | respond =>
    refine ⟨?_, rfl, by simp [link]⟩
    simp only [work, link, Function.update_self, List.length_append]
    omega

end Session

/-! ## The functions of the process -/

namespace Process

variable {p p' x : Process}

/-- A head is sixteen bytes, and all of them are readable once it is begun. -/
theorem work_start (head : ResponseHead) : (HeadWrite.start head).work = 65 := by
  rw [HeadWrite.work, HeadWrite.start, if_pos rfl, ResponseHead.length_bytes]
  rfl

theorem Turns.work {parses : Bool} (h : p.Turns p' parses) : p'.work ≤ 65 + p.heartbeat.work := by
  rw [Process.work, h.heartbeat]
  refine Nat.add_le_add_right ?_ _
  rcases h.setup with ⟨hs, -⟩ | hs | ⟨d, hs⟩ <;> rw [hs]
  · exact Nat.zero_le _
  · exact Nat.zero_le _
  · exact (work_start _).le

theorem work_setHeadWrite {t : Coroutine} {w v : HeadWrite} (hw : x.headWrite t = some w) :
    (x.setHeadWrite v t).work + w.work = x.work + v.work := by
  cases t with
  | setup =>
    rw [work, work, Decoded.headWrite_setup hw]
    simp only [setHeadWrite, SetupPc.work]
    omega
  | heartbeat =>
    rw [work, work, headWrite_heartbeat hw]
    simp only [setHeadWrite, HeartbeatPc.work]
    omega

/-- A step of its own lowers the work; the bytes that it reads were worth 15 each, and
    a head that it begins is worth 48 to the proxy. -/
def Works (p : Process) (e : ProcessEvent) (p' : Process) : Prop :=
  p'.work + (if (p.begins e).isSome then 48 else 0) + (if e.Own then 1 else 0) ≤
    p.work + e.cost + 15 * (p'.received.length - p.received.length)

/-- **A step of the process's own lowers its work**, while the connection lasts. -/
theorem work_of_process (hl : p.Linked) {e : ProcessEvent} (hst : p.step e = some p')
    (hne : ∀ garbage parses, e ≠ .readEof garbage parses) (hf : ¬ e.Fails) : p.Works e p' := by
  have hquiet : p.begins e = none → p'.work + (if e.Own then 1 else 0) ≤
      p.work + e.cost + 15 * (p'.received.length - p.received.length) → p.Works e p' := by
    intro hb hw
    rw [Works, hb]
    exact hw
  cases e with
  | pull bytes =>
    simp only [Process.step] at hst
    split at hst
    case h_2 => cases hst
    case h_1 got want hq =>
      split at hst <;> cases hst
      rename_i hk
      refine hquiet rfl ?_
      have hpos := List.length_pos_of_ne_nil hk.2.1
      rw [if_pos (show ProcessEvent.Own (.pull bytes) from trivial)]
      simp only [work, List.length_append]
      cases hpc : p.setup <;> rw [hpc] at hq <;> cases hq <;>
        simp only [SetupPc.setGot, SetupPc.work, List.length_append] <;> omega
  | readDone parses =>
    refine hquiet rfl ?_
    rw [if_pos (show ProcessEvent.Own (.readDone parses) from trivial)]
    simp only [Process.step] at hst
    split at hst
    · rename_i got hpc
      split at hst <;> cases hst
      rename_i hl
      have hw : (p.setupHead got parses).work ≤ 66 + p.heartbeat.work := by
        unfold setupHead
        dsimp only
        split
        · exact le_rfl
        · exact ((p.growBuf _).turns_handle got parses).work.trans
            (Nat.add_le_add_right (by decide) _)
      have hp : p.work = 70 + p.heartbeat.work := by
        rw [work, hpc, SetupPc.work, hl]
        rfl
      omega
    · rename_i head got hpc
      split at hst <;> cases hst
      have hw : ((p.setBuf got).handle head parses).work ≤ 65 + p.heartbeat.work :=
        ((p.setBuf got).turns_handle head parses).work
      have hp : p.work = 14 * got.length + 66 + p.heartbeat.work := by
        rw [work, hpc, SetupPc.work]
      omega
    · cases hst
  | readEof garbage parses => exact absurd rfl (hne _ _)
  | readError => exact absurd trivial hf
  | tick =>
    refine hquiet rfl ?_
    simp only [Process.step] at hst
    split at hst <;> cases hst
    rename_i hpc
    simp only [work, hpc, HeartbeatPc.work, work_start]
    exact Nat.le_add_right _ _
  | cancelled =>
    refine hquiet rfl ?_
    simp only [Process.step] at hst
    split at hst
    · split at hst <;> cases hst
      rename_i hpc hc
      simp only [heartbeatLoop, work, hpc, hc]
      exact Nat.le_add_right _ _
    · cases hst
  | push t k =>
    simp only [Process.step] at hst
    split at hst
    · rename_i w hw
      split at hst <;> cases hst
      rename_i hk
      have hbegins : (p.begins (.push t k)).isSome → w.rest = w.frame := by
        simp only [begins, hw, Option.bind_some]
        split
        · exact fun _ => ‹_›
        · simp
      have hwork := work_setHeadWrite (x := p.send w k) (t := t) (w := w)
        (v := { w with rest := w.rest.drop k }) (by cases t <;> exact hw)
      change _ = p.work + _ at hwork
      have hdrop : ({ w with rest := w.rest.drop k } : HeadWrite).work + k +
          (if w.rest = w.frame then 48 else 0) = w.work := by
        have hle := (hl.frames t w hw).2.length_le
        have hne : ¬ w.rest.drop k = w.frame := by
          intro he
          have hlen := congrArg List.length he
          rw [List.length_drop] at hlen
          omega
        simp only [HeadWrite.work, List.length_drop]
        rw [if_neg hne]
        omega
      have hbegun : (if (p.begins (.push t k)).isSome then 48 else 0) ≤
          if w.rest = w.frame then 48 else 0 := by
        split
        · rw [if_pos (hbegins ‹_›)]
        · exact Nat.zero_le _
      rw [Works, if_pos (show ProcessEvent.Own (.push t k) from trivial)]
      omega
    · cases hst
  | wrote t =>
    refine hquiet rfl ?_
    rw [if_pos (show ProcessEvent.Own (.wrote t) from trivial)]
    simp only [Process.step] at hst
    split at hst
    · rename_i w hw
      split at hst
      · have hwork := work_setHeadWrite (x := p) (v := w) hw
        have hpos : 1 ≤ w.work := (Nat.le_add_left _ _).trans (Nat.le_add_right _ _)
        cases t with
        | setup =>
          cases hst
          have hp : p.work = w.work + p.heartbeat.work := by
            rw [work, Decoded.headWrite_setup hw, SetupPc.work]
          have hs : p.setupLoop.work = p.heartbeat.work := by
            unfold setupLoop
            split <;> exact Nat.zero_add _
          omega
        | heartbeat =>
          cases hst
          have hp : p.work = p.setup.work + w.work := by
            rw [work, headWrite_heartbeat hw, HeartbeatPc.work]
          have hs : p.heartbeatLoop.work = p.setup.work := by
            unfold heartbeatLoop
            split <;> rfl
          omega
      · cases hst
    · cases hst
  | writeFailed t => exact absurd trivial hf

theorem setupHead_received (p : Process) (head : List Byte) (parses : Bool) :
    (p.setupHead head parses).received = p.received := by
  unfold setupHead
  dsimp only
  split
  · rfl
  · exact ((p.growBuf _).turns_handle head parses).received

/-- What was received stays. -/
theorem received_of_step {e : ProcessEvent} (hst : p.step e = some p') :
    p.received <+: p'.received := by
  have hsame : p'.received = p.received → p.received <+: p'.received := fun h => h ▸ List.prefix_rfl
  cases e with
  | pull bytes =>
    simp only [Process.step] at hst
    split at hst
    · split at hst <;> cases hst
      exact List.prefix_append _ _
    · cases hst
  | readDone parses =>
    simp only [Process.step] at hst
    split at hst
    · split at hst <;> cases hst
      exact hsame (setupHead_received _ _ _)
    · split at hst <;> cases hst
      exact hsame ((p.setBuf _).turns_handle _ _).received
    · cases hst
  | readEof garbage parses =>
    simp only [Process.step] at hst
    split at hst
    · split at hst <;> cases hst
      exact hsame (setupHead_received { p with eof := true } _ _)
    · split at hst <;> cases hst
      exact hsame (({ p with eof := true } : Process).setBuf _ |>.turns_handle _ _).received
    · cases hst
  | push t k =>
    simp only [Process.step] at hst
    split at hst
    · split at hst <;> cases hst
      exact hsame (by cases t <;> rfl)
    · cases hst
  | wrote t =>
    simp only [Process.step] at hst
    split at hst
    · split at hst
      · cases t <;> cases hst
        · exact hsame p.setupLoop_rest.2.2.1
        · exact hsame rfl
      · cases hst
    · cases hst
  | writeFailed t =>
    simp only [Process.step] at hst
    split at hst
    · split at hst
      · cases t <;> cases hst <;> exact hsame rfl
      · cases hst
    · cases hst
  | readError | cancelled =>
    simp only [Process.step] at hst
    split at hst
    · split at hst <;> cases hst
      exact hsame rfl
    · cases hst
  | tick =>
    simp only [Process.step] at hst
    split at hst <;> cases hst
    exact hsame rfl

end Process

/-! ## Runs -/

namespace System

variable {y y' : System}

/-- The work of the two programs, in a run that lasts. -/
structure Working (y : System) : Prop where
  sound : y.Sound
  linked : ∀ g, (y.process g).Linked

theorem Working.init (c : Conf) : Working (System.init c) :=
  ⟨Sound.init c, fun _ => Process.Linked.init⟩

/-- A closed session stays closed. -/
theorem open_of_step {e : SystemEvent} (hst : y.step e = some y')
    (ho : y'.proxy.hasClosed = false) : y.proxy.hasClosed = false := by
  rcases step_cases hst with ⟨e₁, s', -, hr, -, rfl⟩ | ⟨g, e₁, p, s', -, -, -, -, hs', rfl⟩
  · exact open_before_of_rule hr ho
  · rcases answer_eq hs' with ⟨-, rfl⟩ | ⟨r, -, hr⟩
    · exact ho
    · exact open_before_of_rule hr ho

theorem Working.step (h : y.Working) {e : SystemEvent} (hL : KeepsApartShort y e)
    (hst : y.step e = some y') : y'.Working := by
  refine ⟨h.sound.step hL hst, fun g => ?_⟩
  rcases step_cases hst with ⟨e₁, s', -, -, -, rfl⟩ | ⟨g', e₁, p, s', rfl, -, -, hp, -, rfl⟩
  · exact h.linked g
  · by_cases hg : g = g'
    · subst hg
      show (Function.update y.process g p g).Linked
      rw [Function.update_self]
      exact (h.linked g).step hL.2.1 hp
    · show (Function.update y.process g' p g).Linked
      rw [Function.update_of_ne hg]
      exact h.linked g

/-- A step of the proxy keeps the process behind it, or connects to one that is just
    spawned. -/
theorem peer_of_rule (h : y.Working) (ho : y.proxy.hasClosed = false) {e : Event} {s' : Session}
    (hr : Rule y.proxy e s') : ({ y with proxy := s' } : System).peer = y.peer ∨
      ({ y with proxy := s' } : System).peer = .init ∧ s'.link.sent = [] := by
  cases moves hr with
  | code hm => exact .inl (congrArg y.process hm.conns)
  | @sent t k w =>
    obtain ⟨-, hconns, -, -⟩ := Linked.setLinkWrite_frame (y.proxy.sendLink w k)
      { w with io := .idle, rest := w.rest.drop k } t
    exact .inl (congrArg y.process hconns)
  | connect =>
    refine .inr ⟨(h.sound.joined ho).fresh _ (.inr (Nat.lt_succ_self _)), ?_⟩
    simp [link]
  | connected => exact .inl rfl

/-- **A step of its own lowers the work of an open system.** -/
theorem work_of_step (h : y.Working) {e : SystemEvent} (hL : KeepsApartShort y e)
    (hst : y.step e = some y') (ho' : y'.proxy.hasClosed = false) :
    y'.work + (if e.Own then 1 else 0) ≤ y.work + e.cost := by
  have ho := open_of_step hst ho'
  have h' := h.step hL hst
  have hrec := ((h.sound.joined ho).decoded.received).length_le
  rcases step_cases hst with ⟨e, s', rfl, hr, he, rfl⟩ | ⟨g, e, p, s', rfl, ⟨h0, hg⟩, ha, hp, hs', rfl⟩
  · have hlast := h.sound.intact.lasting ho hL.2.1 hr ho'
    have hw : y.proxy.Works e s' := work_of_lasting hlast hr
      (fun t w j hw ht => by
        subst ht
        refine (h.sound.intact.oneConnection ho).connector_eq h.sound.intact.shape fun hd => ?_
        rw [linkWrite, hd] at hw
        cases hw) he fun d => (h'.sound.intact.streams.intact d).length_le
    change _ + _ + (if e.Own then 1 else 0) ≤ _ + e.cost at hw
    show _ + (if e.Own then 1 else 0) ≤ y.work + e.cost
    rcases peer_of_rule h ho hr with hp | ⟨hp, hs⟩
    · rw [work, work, hp]
      show s'.work + _ + 15 * (s'.link.sent.length - _) + _ ≤ _
      omega
    · rw [work, work, hp]
      show s'.work + Process.init.work + 15 * (s'.link.sent.length - _) + _ ≤ _
      rw [hs, show Process.init.work = 0 from rfl]
      simp only [List.length_nil]
      omega
  · obtain rfl : g = y.proxy.conns := by
      have := h.sound.conns_le ho
      omega
    have hup : ∀ garbage parses, e ≠ .readEof garbage parses := by
      rintro garbage parses rfl
      have hup : y.proxy.proxyProcessSocket = .connected := by
        refine (h.sound.intact.oneConnection ho).up fun hd => ?_
        rw [(h.sound.intact.oneConnection ho).conns, if_pos hd] at h0
        omega
      exact ha.1.elim (fun hne => hne rfl) fun hne => hne hup
    have hw := Process.work_of_process (h.linked _) hp hup (hL.2.2 ho)
    have hmono := (Process.received_of_step hp).length_le
    have hrec' := ((h'.sound.joined ho').decoded.received).length_le
    change p.work + _ + (if e.Own then 1 else 0) ≤ _ + e.cost + _ at hw
    show _ + (if e.Own then 1 else 0) ≤ y.work + e.cost
    have hpeer : s'.conns = y.proxy.conns →
        (⟨s', Function.update y.process y.proxy.conns p⟩ : System).peer = p := by
      intro hc
      rw [peer, hc]
      exact Function.update_self _ _ _
    rcases answer_eq hs' with ⟨hb, rfl⟩ | ⟨r, hb, hr⟩
    · rw [hpeer rfl] at hrec'
      rw [work, work, hpeer rfl]
      rw [hb, if_neg (by simp)] at hw
      change y.peer.received.length ≤ _ at hmono
      change _ ≤ y.peer.work + _ + 15 * (_ - y.peer.received.length) at hw
      change p.received.length ≤ y.proxy.link.sent.length at hrec'
      show y.proxy.work + p.work + 15 * (y.proxy.link.sent.length - _) + _ ≤ _
      omega
    · have hlen : r.bytes.length = 16 := by
        rw [Response.bytes, List.length_append, ResponseHead.length_bytes, r.body_len,
          ((h.sound.joined ho).heads.head hb).2.1]
        rfl
      obtain ⟨hs, hc, hsent⟩ := work_respond hr
      rw [hpeer hc] at hrec'
      rw [work, work, hpeer hc]
      rw [hb, Option.isSome_some, if_pos rfl] at hw
      change y.peer.received.length ≤ _ at hmono
      change _ ≤ y.peer.work + _ + 15 * (_ - y.peer.received.length) at hw
      change p.received.length ≤ s'.link.sent.length at hrec'
      show s'.work + p.work + 15 * (s'.link.sent.length - _) + _ ≤ _
      rw [hsent] at hrec' ⊢
      omega

end System

/-- **The two programs do bounded work for what they are sent**: in an open session whose
    connection lasts, the steps of their own are at most the costs of the reads, of the
    heartbeats and of the refused connections, and of the four tuple. -/
theorem steps_le {c : Conf} {es : List SystemEvent} {y : System}
    (h : Path System.step System.KeepsApartShort (System.init c) es y) (ho : y.proxy.hasClosed = false) :
    es.countP (fun e => decide e.Own) ≤
      17 * c.fourTuple.length + 88 + (es.map SystemEvent.cost).sum := by
  have hinit : (System.init c).work = 17 * (c.fourTuple.length + 5) + 3 := by
    have hc : (System.init c).proxy.connectors 0 = .connecting false := rfl
    have hw : ∀ d, ((System.init c).proxy.way d).work = 0 := fun d => by cases d <;> rfl
    have hr : ((System.init c).proxy.readers 0).pc.work = 0 := rfl
    have hl : (System.init c).proxy.link = {} := rfl
    have hp : (System.init c).peer.work = 0 := rfl
    have hf : (System.init c).proxy.fourTuple = c.fourTuple := rfl
    rw [System.work, Session.work, hw, hw, hc, hr, hl, hp, hf]
    simp [ConnectorPc.work]
  have hle := (h.work_le System.work SystemEvent.cost (P := fun y => y.proxy.hasClosed = false)
    (System.Working.init c) fun y e y' hy hL hst =>
      ⟨hy.step hL hst, fun ho' => ⟨System.open_of_step hst ho', System.work_of_step hy hL hst ho'⟩⟩).2 ho
  omega

/-- A request and a heartbeat, on a connection that was refused once. -/
def beats : List SystemEvent :=
  [.proxy (.fail (.connector 0)), .proxy (.complete (.connector 0))] ++
    firstUp.map SystemEvent.proxy ++
    [.process 1 .tick, .process 1 (.push .heartbeat 10), .process 1 (.push .heartbeat 6),
      .process 1 (.wrote .heartbeat), .proxy (.pull 0 16), .proxy (.complete (.reader 0)),
      .proxy (.read .req (.data [2])), .proxy (.push (.relay .req) 6),
      .proxy (.complete (.relay .req))]

theorem steps_le_beats : ∃ y : System, y.proxy.hasClosed = false ∧
    beats.countP (fun e => decide e.Own) = 14 ∧
      beats.countP (fun e => decide e.Own) ≤ 1516 + (beats.map SystemEvent.cost).sum := by
  have hrun : (runIf System.step System.KeepsApartShort (System.init (localConf false)) beats).any
      (fun y => !y.proxy.hasClosed) = true := by decide +kernel
  obtain ⟨y, hy, ho⟩ := (Option.any_eq_true _ _).1 hrun
  rw [Bool.not_eq_true'] at ho
  exact ⟨y, ho, by decide, steps_le (path_runIf hy) ho⟩

end CppProxy
