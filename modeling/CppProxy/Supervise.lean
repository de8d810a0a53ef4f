/-
  cpp_proxy — who supervises the process link.

  `connect_process` clears `bypass_` as soon as it is connected.  From then on
  someone has to notice when the process is gone: the reader it spawns, itself
  until it has spawned one, or an error path that leads to another
  `connect_process`.

  * `Session.Supervised`: one of these is there;
  * `Backed`: the write of the four tuple fails only when somebody else is there;
  * `superviseRule`: what becomes of a reader or a flush;
  * `notOrphaned_of_backed`: then an open session that is not bypassed is supervised, as
    long as nothing undefined happens.
-/
import CppProxy.Align
import CppProxy.Defined
import CppProxy.Moves

namespace CppProxy

open Session Runs

namespace Session

variable (s : Session)

/-- A `connect_process` is connecting or sends the four tuple on the current connection,
    a reader of that connection has not returned, or a flush leads to `connect_process`. -/
def Supervised : Prop :=
  (∃ j, (s.connectors j).IsConnecting) ∨ (∃ j w, s.connectors j = .fourTuple s.conns w) ∨
    (∃ i, (s.readers i).home = s.conns ∧ (s.readers i).pc ≠ .done) ∨
      (∃ i, (s.readers i).pc.IsFlush) ∨ ∃ d, (s.way d).relay.IsFlush

/-- No orphaned inspection mode. -/
def NotOrphaned : Prop := s.hasClosed = false → s.bypass = false → s.Supervised

/-- Somebody else leads to a connection. -/
def HasBackup : Prop := s.processConnecting = true ∨ ¬ s.NoFlush

instance : Decidable s.HasBackup := inferInstanceAs (Decidable (_ ∨ _))

/-- The four tuple on the current connection fails in an open session that is not
    bypassed only when somebody else leads to a connection. -/
def BackedFail (j : ℕ) : Prop :=
  match s.connectors j with
  | .fourTuple conn _ =>
    s.hasClosed = false → s.bypass = false → conn = s.conns → s.HasBackup
  | _ => True

instance (j : ℕ) : Decidable (s.BackedFail j) := by
  unfold BackedFail; split <;> infer_instance

end Session

/-- A four tuple fails only where `BackedFail` allows it. -/
def Backed (s : Session) : Event → Prop
  | .fail (.connector j) => s.BackedFail j
  | _ => True

instance (s : Session) : ∀ e, Decidable (Backed s e)
  | .fail (.connector _) => inferInstanceAs (Decidable (BackedFail _ _))
  | .fail (.relay _) | .fail (.reader _) | .fail (.detector _) | .read _ _ | .push _ _ | .pull _ _
  | .issue _ | .complete _ | .connect _ | .expire _ | .respond _ _ =>
    inferInstanceAs (Decidable True)

/-! ## Readers and flushes go on -/

/-- The session closes or a `connect_process` is under way. -/
def Session.Handled (s : Session) : Prop := s.hasClosed = true ∨ s.processConnecting = true

/-- A reader goes on, and in a flush if it was in one. -/
def ReaderPc.GoesOn (pc pc' : ReaderPc) : Prop := pc' ≠ .done ∧ (pc.IsFlush → pc'.IsFlush)

namespace Handled

variable {s : Session}

theorem readerReconnect (s : Session) (i gen : ℕ) : (s.readerReconnect i gen).Handled :=
  .inr (connectProcess_connecting s gen)

theorem readerFlushClient (s : Session) (i gen : ℕ) : (s.readerFlushClient i gen).Handled ∨
    ((s.readerFlushClient i gen).readers i).pc.IsFlush :=
  readerFlushClient_ind (P := fun s' => s'.Handled ∨ (s'.readers i).pc.IsFlush)
    (fun _ => .inl (readerReconnect _ i gen)) fun _ => .inr (by simp [ReaderPc.IsFlush])

theorem readerFlushServer (s : Session) (i gen : ℕ) : (s.readerFlushServer i gen).Handled ∨
    ((s.readerFlushServer i gen).readers i).pc.IsFlush :=
  readerFlushServer_ind (P := fun s' => s'.Handled ∨ (s'.readers i).pc.IsFlush)
    (fun _ => readerFlushClient _ i gen) fun _ => .inr (by simp [ReaderPc.IsFlush])

theorem relayLoop (d : Dir) (h : s.Handled) : (s.relayLoop d).Handled := by
  rcases h with h | h
  · refine .inl (relayLoop_ind (P := fun s' => s'.hasClosed = true) (fun _ => ?_) (fun _ _ => h)
      (fun _ _ _ _ => h) fun _ _ _ => h)
    exact graceClose_hasClosed s
  · exact .inr (by rw [relayLoop_connecting]; exact h)

theorem relayReconnect (s : Session) (d : Dir) (gen : ℕ) : (s.relayReconnect d gen).Handled :=
  relayLoop d (.inr (connectProcess_connecting s gen))

/-- A reader that acts on a head closes the session, or goes on. -/
theorem actOnHead (s : Session) (i : ℕ) (d : Dir) (conn : ℕ) (head : ResponseHead) :
    (s.actOnHead i d conn head).Handled ∨ ((s.actOnHead i d conn head).readers i).pc ≠ .done :=
  actOnHead_ind (P := fun s' => s'.Handled ∨ (s'.readers i).pc ≠ .done)
    (fun _ => .inl (.inl (graceClose_hasClosed s))) fun _ => .inr (by simp [releasing])

theorem dispatch (s : Session) (i conn : ℕ) (head : ResponseHead) (buf : List Byte) :
    (s.dispatch i conn head buf).Handled ∨ ((s.dispatch i conn head buf).readers i).pc ≠ .done :=
  dispatch_ind (P := fun s' => s'.Handled ∨ (s'.readers i).pc ≠ .done)
    (fun d _ => innerProxy_ind (P := fun s' => s'.Handled ∨ (s'.readers i).pc ≠ .done)
      (fun _ => .inr (by simp)) fun _ => actOnHead _ i d conn head)
    (.inr (by simp [Session.readHead])) (.inr (by simp [Session.readHead]))

end Handled

theorem ReaderPc.not_isFlush_of_linkRead {pc : ReaderPc} {r : LinkRead} (h : pc.linkRead = some r) :
    ¬ pc.IsFlush := by
  cases pc <;> cases h <;> exact id

theorem ReaderPc.done_of_setLinkRead {pc : ReaderPc} {r : LinkRead} (h : pc.setLinkRead r = .done) :
    pc = .done := by
  cases pc <;> simp [setLinkRead] at h ⊢

theorem ReaderPc.goesOn_of_plain {pc pc' : ReaderPc} (hf : ¬ pc.IsFlush) (h : pc' ≠ .done) :
    pc.GoesOn pc' := ⟨h, fun hp => absurd hp hf⟩

theorem ReaderPc.goesOn_of_flush {pc pc' : ReaderPc} (h : pc'.IsFlush) : pc.GoesOn pc' :=
  ⟨by rintro rfl; exact h, fun _ => h⟩

/-- **A reader that has not returned goes on**, unless the session closes or a
    `connect_process` is under way. -/
theorem reader_of_rule {s s' : Session} {e : Event} (hs : Shape s) (hr : Rule s e s') {i : ℕ}
    (hi : (s.readers i).pc ≠ .done) :
    s'.Handled ∨ (s.readers i).pc.GoesOn (s'.readers i).pc := by
  have hsame : (s'.readers i).pc = (s.readers i).pc →
      s'.Handled ∨ (s.readers i).pc.GoesOn (s'.readers i).pc := fun h =>
    .inr (by rw [h]; exact ⟨hi, id⟩)
  by_cases ht : e.tid = some (.reader i)
  · cases hr with
    | @pushPeer t k d w hw =>
      cases ht
      refine .inr ?_
      simp only [setPeerWrite, setReader_readers, Function.update_self]
      refine ⟨fun hd => hi ?_, fun h => ReaderPc.isFlush_setPeerWrite.2 h⟩
      cases hpc : (s.readers i).pc <;>
        simp [accept, Session.setWay, hpc, ReaderPc.setPeerWrite] at hd ⊢
    | pushLink hw => cases ht; cases hw
    | @pull i' k r hr =>
      cases ht
      refine .inr (ReaderPc.goesOn_of_plain (ReaderPc.not_isFlush_of_linkRead hr) fun hd => hi ?_)
      simp only [setLinkRead, setReader_readers, Function.update_self] at hd
      exact ReaderPc.done_of_setLinkRead hd
    | issueWrite hw => cases ht; cases hw
    | @issueRead i' r hr =>
      cases ht
      refine .inr (ReaderPc.goesOn_of_plain (ReaderPc.not_isFlush_of_linkRead hr) fun hd => hi ?_)
      simp only [setLinkRead, setReader_readers, Function.update_self, noteRead_readers] at hd
      exact ReaderPc.done_of_setLinkRead hd
    | gotHead hpc =>
      cases ht
      exact .inr (ReaderPc.goesOn_of_plain (by rw [hpc]; exact id) (by simp [readBody]))
    | @gotHeadOnly i' r hpc =>
      cases ht
      exact (Handled.dispatch s i _ _ _).imp_right
        (ReaderPc.goesOn_of_plain (by rw [hpc]; exact id))
    | gotBody hpc =>
      cases ht
      exact (Handled.dispatch s i _ _ _).imp_right
        (ReaderPc.goesOn_of_plain (by rw [hpc]; exact id))
    | @readFailed i' r hr =>
      cases ht
      exact readerFailed_ind (P := fun s' => s'.Handled ∨ (s.readers i).pc.GoesOn (s'.readers i).pc)
        (fun hc => .inl (.inl hc))
        fun _ => (Handled.readerFlushServer s i _).imp_right ReaderPc.goesOn_of_flush
    | wroteNew hpc =>
      cases ht
      exact (Handled.actOnHead s i _ _ _).imp_right
        (ReaderPc.goesOn_of_plain (by rw [hpc]; exact id))
    | released hpc =>
      cases ht
      refine .inr (ReaderPc.goesOn_of_plain (by rw [hpc]; exact id) ?_)
      exact clearReleased_ind (P := fun s' => (s'.readers i).pc ≠ .done)
        (fun _ _ => by simp [Session.readHead]) fun _ => by simp [Session.readHead]
    | readerWriteFailed => cases ht; exact .inl (.inl (graceClose_hasClosed s))
    | flushedServer | flushServerFailed =>
      cases ht
      exact (Handled.readerFlushClient _ i _).imp_right ReaderPc.goesOn_of_flush
    | flushedClient | flushClientFailed =>
      cases ht
      exact .inl (Handled.readerReconnect _ i _)
    | _ => cases ht
  · exact hsame (by rw [reader_of_other hr (hs.reader_lt hi) ht])

theorem RelayPc.linkWrite_of_flush {pc : RelayPc} (h : pc.IsFlush) : pc.linkWrite = none := by
  cases pc with
  | flush => rfl
  | _ => cases h

/-- A flush of a relay goes on, unless the session closes or a `connect_process` is under
    way. -/
theorem relay_of_rule {s s' : Session} {e : Event} (hr : Rule s e s') {d : Dir}
    (hf : (s.way d).relay.IsFlush) : s'.Handled ∨ (s'.way d).relay.IsFlush := by
  by_cases ht : e.tid = some (.relay d)
  · have hlink : s.linkWrite (.relay d) = none := RelayPc.linkWrite_of_flush hf
    cases hr with
    | gotDirect hpc | gotProcess hpc | notified hpc | notifyFailed hpc | wroteDirect hpc
    | wroteProcess hpc | processFailed hpc => cases ht; rw [hpc] at hf; cases hf
    | readEof hpc | readError hpc =>
      cases ht
      rcases hpc with hpc | hpc <;> rw [hpc] at hf <;> cases hf
    | @pushPeer t k d' w hw =>
      cases ht
      refine .inr ?_
      have hacc : ((s.accept d' (w.rest.take k)).way d).relay = (s.way d).relay :=
        (accept_frame s d' _ d).2
      simp only [setPeerWrite, setRelay_way, Function.update_self, hacc]
      exact RelayPc.isFlush_setPeerWrite.2 hf
    | pushLink hw | issueWrite hw => cases ht; rw [hlink] at hw; cases hw
    | relayFlushed => cases ht; exact .inl (Handled.relayReconnect _ d _)
    | relayWriteFailed => cases ht; exact .inl (.inl (graceClose_hasClosed s))
    | _ => cases ht
  · rw [relay_of_other hr ht]
    exact .inr hf

/-- A `connect_process` that is connecting connects, waits and connects again, or sends the
    four tuple, unless the session is closed. -/
theorem connecting_of_rule {s s' : Session} {e : Event} (hs : Shape s) (hr : Rule s e s') {j : ℕ}
    (hj : (s.connectors j).IsConnecting) : s'.hasClosed = true ∨ (s'.connectors j).IsConnecting ∨
      s'.processConnecting = false ∧ ∃ w, s'.connectors j = .fourTuple s'.conns w := by
  have hlt : j < s.nConnectors := hs.connector_lt fun hd => by
    simp [hd, ConnectorPc.IsConnecting] at hj
  by_cases ht : e.tid = some (.connector j)
  · have hlink : s.linkWrite (.connector j) = none := by
      rcases hj with ⟨up, hj⟩ | hj <;> rw [linkWrite, hj] <;> rfl
    cases hr with
    | pushLink hw | issueWrite hw => cases ht; rw [hlink] at hw; cases hw
    | pushPeer hw => cases ht; cases hw
    | connected =>
      cases ht
      refine .inr (.inr ⟨rfl, s.asyncWriteProcess (frame .fourTuple s.fourTuple), ?_⟩)
      simp only [fourTuple2process, Session.setConnector, Function.update_self]
      rfl
    | connectFailed =>
      cases ht
      exact .inr (.inl (.inr (by simp [Session.setConnector])))
    | retry =>
      cases ht
      exact connectLoop_ind (P := fun s' => s'.hasClosed = true ∨ (s'.connectors j).IsConnecting ∨
        s'.processConnecting = false ∧ ∃ w, s'.connectors j = .fourTuple s'.conns w)
        (fun hc => .inl hc)
        fun _ => .inr (.inl (.inl ⟨false, by simp [asyncConnect]⟩))
    | wroteTuple hpc | tupleFailed hpc =>
      cases ht
      rcases hj with ⟨up, hj⟩ | hj <;> rw [hpc] at hj <;> cases hj
    | connect => cases ht; exact .inr (.inl (.inl ⟨true, by simp⟩))
    | _ => cases ht
  · refine .inr (.inl ?_)
    rw [connector_of_other hr hlt ht]
    exact hj

/-- The four tuple goes on, or is followed by a reader, unless its write fails. -/
theorem tuple_of_rule {s s' : Session} {e : Event} (hs : Shape s) (hr : Rule s e s') {j conn : ℕ}
    {w : LinkWrite} (hj : s.connectors j = .fourTuple conn w) :
    (∃ w', s'.connectors j = .fourTuple conn w') ∨
      (∃ i, (s'.readers i).home = conn ∧ (s'.readers i).pc ≠ .done) ∨ e = .fail (.connector j) := by
  have hlt : j < s.nConnectors := hs.connector_lt (by rw [hj]; simp)
  by_cases ht : e.tid = some (.connector j)
  · cases hr with
    | pushPeer hw => cases ht; cases hw
    | pushLink hw =>
      cases ht
      exact .inl ⟨_, by simp [setLinkWrite, Session.setConnector, Session.sendLink, Session.setLink,
        hj, ConnectorPc.setLinkWrite]; rfl⟩
    | issueWrite hw =>
      cases ht
      exact .inl ⟨_, by simp [setLinkWrite, Session.setConnector, hj, ConnectorPc.setLinkWrite]
                        rfl⟩
    | connected hpc | connectFailed hpc | retry hpc | connect hpc =>
      cases ht
      rw [hj] at hpc; cases hpc
    | wroteTuple hpc =>
      cases ht
      rw [hj] at hpc; cases hpc
      refine .inr (.inl ⟨s.nReaders, ?_⟩)
      obtain ⟨ds, n, hd⟩ := s.superviseProcess_detectors j conn
      rw [hd]
      simp [Session.readHead, spawning]
    | tupleFailed => cases ht; exact .inr (.inr rfl)
    | _ => cases ht
  · refine .inl ⟨w, ?_⟩
    rw [connector_of_other hr hlt ht]
    exact hj

/-! ## The invariant -/

/-- An open session that is connecting has a connector for it, and one that is not
    bypassed is supervised. -/
structure Watched (s : Session) : Prop where
  connecting : s.hasClosed = false → s.processConnecting = true →
    ∃ j, (s.connectors j).IsConnecting
  supervised : s.NotOrphaned

namespace Watched

variable {s s' : Session}

theorem init (c : Conf) : Watched (Session.init c) where
  connecting _ _ := ⟨0, .inl ⟨false, rfl⟩⟩
  supervised _ hb := by cases hb

/-- What a step of an open session keeps, but for the kernel's connect. -/
structure Keeps (s s' : Session) : Prop where
  conns : s'.conns = s.conns
  home : ∀ i < s.nReaders, (s'.readers i).home = (s.readers i).home
  bypass : s'.bypass = false → s.bypass = false
  reconnects : s'.processConnecting = true → s'.hasClosed = false → s.processConnecting = true ∨
    ∃ j, s'.connectors j = .connecting false

theorem still_connecting (h : Watched s) (hs : Shape s) (ho : s.hasClosed = false) {e : Event}
    (hr : Rule s e s') (hk : s'.processConnecting = true → s'.hasClosed = false →
      s.processConnecting = true ∨ ∃ j, s'.connectors j = .connecting false)
    (ho' : s'.hasClosed = false) (hp : s'.processConnecting = true) :
    ∃ j, (s'.connectors j).IsConnecting := by
  rcases hk hp ho' with hp₀ | ⟨j, hj⟩
  · obtain ⟨j, hj⟩ := h.connecting ho hp₀
    rcases connecting_of_rule hs hr hj with hc | hj | ⟨hn, -⟩
    · rw [ho'] at hc; cases hc
    · exact ⟨j, hj⟩
    · rw [hp] at hn; cases hn
  · exact ⟨j, .inl ⟨false, hj⟩⟩

/-- Whoever supervises goes on, or somebody else does. -/
theorem still_supervised (h : Watched s) (hs : Shape s) (ho : s.hasClosed = false) {e : Event}
    (hB : Backed s e) (hr : Rule s e s') (hk : Keeps s s') (ho' : s'.hasClosed = false)
    (hb' : s'.bypass = false) : s'.Supervised := by
  by_cases hp : s'.processConnecting = true
  · exact .inl (h.still_connecting hs ho hr hk.reconnects ho' hp)
  have hn : ¬ s'.Handled := by
    rintro (hc | hc)
    · rw [ho'] at hc; cases hc
    · exact hp hc
  have hreader : ∀ {i}, (s.readers i).pc.IsFlush → (s'.readers i).pc.IsFlush := by
    intro i hf
    have hne : (s.readers i).pc ≠ .done := by rintro hd; rw [hd] at hf; exact hf
    exact ((reader_of_rule hs hr hne).resolve_left hn).2 hf
  have hrelay : ∀ {d}, (s.way d).relay.IsFlush → (s'.way d).relay.IsFlush := fun hf =>
    (relay_of_rule hr hf).resolve_left hn
  rcases h.supervised ho (hk.bypass hb') with ⟨j, hj⟩ | ⟨j, w, hj⟩ | ⟨i, hi, hne⟩ | ⟨i, hf⟩ |
    ⟨d, hf⟩
  · rcases connecting_of_rule hs hr hj with hc | hj | ⟨-, w, hw⟩
    · rw [ho'] at hc; cases hc
    · exact .inl ⟨j, hj⟩
    · exact .inr (.inl ⟨j, w, hw⟩)
  · rcases tuple_of_rule hs hr hj with ⟨w', hw⟩ | ⟨i, hi, hne⟩ | rfl
    · exact .inr (.inl ⟨j, w', by rw [hk.conns]; exact hw⟩)
    · exact .inr (.inr (.inl ⟨i, by rw [hk.conns]; exact hi, hne⟩))
    · -- the write of the four tuple failed: somebody else leads to a connection
      have hback : s.HasBackup := by
        have hB' : s.BackedFail j := hB
        simp only [BackedFail, hj] at hB'
        exact hB' ho (hk.bypass hb') trivial
      rcases hback with hp₀ | hf
      · cases hr with
        | connectFailed hpc => rw [hj] at hpc; cases hpc
        | tupleFailed =>
          refine absurd (breakLink_ind (P := fun s' => s'.processConnecting = true) (fun _ => hp₀)
            fun _ => hp₀) hp
      · simp only [NoFlush, not_and_or, not_forall, not_not] at hf
        rcases hf with ⟨d, hf⟩ | ⟨i, -, hf⟩
        · exact .inr (.inr (.inr (.inr ⟨d, hrelay hf⟩)))
        · exact .inr (.inr (.inr (.inl ⟨i, hreader hf⟩)))
  · have hgo := (reader_of_rule hs hr hne).resolve_left hn
    refine .inr (.inr (.inl ⟨i, ?_, hgo.1⟩))
    rw [hk.home i (hs.reader_lt hne), hk.conns]
    exact hi
  · exact .inr (.inr (.inr (.inl ⟨i, hreader hf⟩)))
  · exact .inr (.inr (.inr (.inr ⟨d, hrelay hf⟩)))

theorem step (h : Watched s) (hs : Shape s) {e : Event} (hB : Backed s e) (hr : Rule s e s') :
    Watched s' := by
  by_cases ho' : s'.hasClosed = false
  · have ho : s.hasClosed = false := open_before_of_rule hr ho'
    have hkeeps : Keeps s s' → Watched s' := fun hk =>
      ⟨h.still_connecting hs ho hr hk.reconnects, h.still_supervised hs ho hB hr hk⟩
    cases moves hr with
    | code hm =>
      exact hkeeps ⟨hm.conns, hm.home, hm.bypass, fun hp ho' =>
        (hm.reconnects hp ho').imp_right fun ⟨j, _, _, hj⟩ => ⟨j, hj⟩⟩
    | @sent t =>
      refine hkeeps ⟨?_, ?_, ?_, ?_⟩ <;> cases t <;>
        first | rfl | exact fun _ _ => rfl | exact id | exact fun hp _ => .inl hp
    | @connect j hpc =>
      have hj : ∃ j', ((Function.update s.connectors j (.connecting true)) j').IsConnecting :=
        ⟨j, .inl ⟨true, by simp⟩⟩
      exact ⟨fun _ _ => hj, fun _ _ => .inl hj⟩
    | @connected j hpc =>
      refine ⟨fun _ hp => ?_, fun _ _ => .inr (.inl ⟨j, s.asyncWriteProcess
        (frame .fourTuple s.fourTuple), ?_⟩)⟩
      · cases hp
      · simp only [fourTuple2process, Session.setConnector, Function.update_self]
        rfl
  · exact ⟨fun hc => absurd hc ho', fun hc => absurd hc ho'⟩

end Watched

/-- **An open session that is not bypassed is supervised**, when the four tuple fails only
    while somebody else leads to a connection, and nothing undefined happens. -/
theorem notOrphaned_of_backed {c : Conf} {s : Session}
    (h : Reach Session.step (fun s e => Backed s e ∧ StaysDefined s e) (Session.init c) s) :
    s.undefined = false ∧ s.NotOrphaned := by
  have hi : Shape s ∧ Defined s ∧ Watched s :=
    h.inv (I := fun s => Shape s ∧ Defined s ∧ Watched s)
      ⟨Shape.init c, Defined.init c, Watched.init c⟩ fun _ _ _ ⟨hs, hd, hw⟩ hC he =>
        have hr := rule_of_step he
        ⟨hs.step hr, hd.step hs hC.2 hr, hw.step hs hC.1 hr⟩
  exact ⟨hi.2.1.defined, hi.2.2.supervised⟩

/-- The connection breaks after the hand-over: the reader leads to the next one. -/
theorem notOrphaned_reconnected : ∃ s : Session, s.conns = 2 ∧ s.bypass = false ∧
    s.undefined = false ∧ s.NotOrphaned := by
  obtain ⟨s, hs, hp⟩ := exists_runIf Session.step (fun s e => Backed s e ∧ StaysDefined s e)
    (Session.init (localConf true))
    (firstUp ++ [.fail (.reader 0), .connect 1, .complete (.connector 1)])
    (fun s => s.conns == 2 && s.bypass == false) (by decide +kernel)
  simp only [Bool.and_eq_true, beq_iff_eq] at hp
  exact ⟨s, hp.1, hp.2, notOrphaned_of_backed hs⟩

/-- The write of the first four tuple fails: `connect_process` returns, and the session
    stays in process mode with nobody at the link. -/
theorem not_notOrphaned : ¬ ∀ (c : Conf) (s : Session),
    Reach Session.step (fun _ _ => True) (Session.init c) s → s.NotOrphaned := by
  intro h
  obtain ⟨s, hs, hp⟩ := exists_run Session.step (fun _ _ => True)
    (Session.init (localConf true))
    ([.connect 0, .complete (.connector 0), .fail (.connector 0)])
    (fun s => (s.hasClosed == false) && (s.bypass == false) && (s.nConnectors == 1) &&
      (s.connectors 0 == .done) && (s.nReaders == 0) && decide s.NoFlush)
    (fun _ _ _ => trivial) (by decide +kernel)
  simp only [Bool.and_eq_true, beq_iff_eq, decide_eq_true_eq] at hp
  obtain ⟨⟨⟨⟨⟨ho, hb⟩, hn⟩, hj⟩, hnr⟩, hf⟩ := hp
  have hshape : Shape s := shape hs
  have hdone : ∀ j, s.connectors j = .done := by
    intro j
    by_cases h0 : j = 0
    · rw [h0]; exact hj
    · exact hshape.connectors j (by omega)
  have hret : ∀ i, (s.readers i).pc = .done := fun i => hshape.readers i (by omega)
  rcases h _ s hs ho hb with ⟨j, hc⟩ | ⟨j, w, hc⟩ | ⟨i, -, hne⟩ | ⟨i, hc⟩ | ⟨d, hc⟩
  · simp [hdone, ConnectorPc.IsConnecting] at hc
  · rw [hdone] at hc; cases hc
  · exact hne (hret i)
  · rw [hret i] at hc; exact hc
  · exact hf.1 d hc

end CppProxy
