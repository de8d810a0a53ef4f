/-
  cpp_proxy — the way back from bypass.

  A session starts in bypass, and an error path of the process link puts it there
  again.  Somebody is then to connect to the process, and `process_connecting_` says
  so.

  * `Session.Recovers`: the flag is set exactly while one `connect_process` is
    connecting, and a bypassed session has one, or a flush that leads to it;
  * `bypassed_of_rule`: who puts a session in bypass;
  * `recovers`: every open session recovers, in every run in which nothing undefined
    happens.
-/
import CppProxy.Supervise

namespace CppProxy

open Session Runs

/-- A `connect_process` of its own is connecting while `process_connecting_` is set; a
    bypassed session has one, or flushes a queue before it spawns one. -/
structure Session.Recovers (s : Session) : Prop where
  connecting : s.processConnecting = true ↔ ∃! j, (s.connectors j).IsConnecting
  bypassed : s.bypass = true → s.processConnecting = true ∨ ¬ s.NoFlush

/-! ## Who enables bypass -/

section

variable {s s' : Session}

theorem graceClose_bypass (s : Session) : s.graceClose.bypass = s.bypass :=
  graceClose_ind (P := fun s' => s'.bypass = s.bypass) (fun _ => rfl) fun _ => rfl

theorem relayLoop_bypass (s : Session) (d : Dir) : (s.relayLoop d).bypass = s.bypass :=
  relayLoop_ind (P := fun s' => s'.bypass = s.bypass) (fun _ => graceClose_bypass s)
    (fun _ _ => rfl) (fun _ _ _ _ => rfl) fun _ _ _ => rfl

theorem noteRead_bypass (s : Session) (i : ℕ) : (s.noteRead i).bypass = s.bypass :=
  noteRead_ind (P := fun s' => s'.bypass = s.bypass) (fun _ => rfl) fun _ => rfl

theorem breakLink_bypass (s : Session) (w : LinkWrite) : (s.breakLink w).bypass = s.bypass :=
  breakLink_ind (P := fun s' => s'.bypass = s.bypass) (fun _ => rfl) fun _ => rfl

theorem actOnHead_bypass (s : Session) (i : ℕ) (d : Dir) (conn : ℕ) (head : ResponseHead) :
    (s.actOnHead i d conn head).bypass = s.bypass :=
  actOnHead_ind (P := fun s' => s'.bypass = s.bypass) (fun _ => graceClose_bypass s) fun _ => rfl

theorem dispatch_bypass (s : Session) (i conn : ℕ) (head : ResponseHead) (buf : List Byte) :
    (s.dispatch i conn head buf).bypass = s.bypass :=
  dispatch_ind (P := fun s' => s'.bypass = s.bypass)
    (fun d _ => innerProxy_ind (P := fun s' => s'.bypass = s.bypass) (fun _ => rfl)
      fun _ => actOnHead_bypass (s.emit (.response i head)) i d conn head)
    (noteRead_bypass (s.emit (.response i head)).cancelTimer i)
    (noteRead_bypass (s.emit (.response i head)) i)

theorem not_noFlush_of_relay {d : Dir} (h : (s.way d).relay.IsFlush) : ¬ s.NoFlush :=
  fun hn => hn.1 d h

theorem not_noFlush_of_reader (hs : Shape s) {i : ℕ} (h : (s.readers i).pc.IsFlush) :
    ¬ s.NoFlush := by
  intro hn
  refine hn.2 i (hs.reader_lt ?_) h
  intro hd
  rw [hd] at h
  exact h

/-- **A step that enables bypass** closes the session, is followed by a flush, or leaves a
    `connect_process` under way. -/
theorem bypassed_of_rule (hs : Shape s) {e : Event} (hr : Rule s e s') (hb : s.bypass = false)
    (hb' : s'.bypass = true) : s'.Handled ∨ ¬ s'.NoFlush := by
  have hs' : Shape s' := hs.step hr
  have hsame : s'.bypass = s.bypass → s'.Handled ∨ ¬ s'.NoFlush := fun h => by
    rw [h, hb] at hb'
    cases hb'
  have hreader : ∀ {i}, s'.Handled ∨ (s'.readers i).pc.IsFlush → s'.Handled ∨ ¬ s'.NoFlush :=
    fun h => h.imp_right (not_noFlush_of_reader hs')
  cases hr with
  | gotDirect => exact hsame (by rw [writeDirect_eq])
  | gotProcess => exact hsame (by rw [writeProcess_eq])
  | readEof => exact .inl (.inl (by rw [relayEof_eq]; exact graceClose_hasClosed _))
  | readError | relayWriteFailed => exact .inl (.inl (graceClose_hasClosed s))
  | @pushPeer t | @pushLink t | @issueWrite t => exact hsame (by cases t <;> rfl)
  | issueRead => exact hsame (noteRead_bypass s _)
  | notifyFailed => exact hsame (breakLink_bypass s _)
  | wroteDirect | wroteProcess => exact hsame (relayLoop_bypass s _)
  | @processFailed d w =>
    refine relayFlush_ind (P := fun s' => s'.Handled ∨ ¬ s'.NoFlush)
      (fun _ => .inl (Handled.relayReconnect _ d w.gen))
      fun _ => .inr (not_noFlush_of_relay (d := d) ?_)
    simp [RelayPc.IsFlush]
  | relayFlushed => exact .inl (Handled.relayReconnect _ _ _)
  | gotHead => exact hsame (noteRead_bypass s _)
  | gotHeadOnly | gotBody => exact hsame (dispatch_bypass s _ _ _ _)
  | @readFailed i r =>
    revert hreader
    refine readerFailed_ind (P := fun s' => (∀ {i}, s'.Handled ∨ (s'.readers i).pc.IsFlush →
      s'.Handled ∨ ¬ s'.NoFlush) → s'.Handled ∨ ¬ s'.NoFlush) (fun hc _ => .inl (.inl hc))
      fun _ hreader => hreader (Handled.readerFlushServer s i r.gen)
  | wroteNew => exact hsame (actOnHead_bypass s _ _ _ _)
  | released =>
    exact hsame (clearReleased_ind (P := fun s' => s'.bypass = s.bypass)
      (fun stored _ => noteRead_bypass (s.setStored _ stored) _)
      fun _ => noteRead_bypass { s with undefined := true } _)
  | readerWriteFailed => exact .inl (.inl (graceClose_hasClosed s))
  | flushedServer | flushServerFailed => exact hreader (Handled.readerFlushClient _ _ _)
  | flushedClient | flushClientFailed => exact .inl (Handled.readerReconnect _ _ _)
  | connected => cases hb'
  | retry =>
    exact hsame (connectLoop_ind (P := fun s' => s'.bypass = s.bypass) (fun _ => rfl) fun _ => rfl)
  | @wroteTuple j conn =>
    obtain ⟨ds, n, hd⟩ := s.superviseProcess_detectors j conn
    rw [hd] at hsame ⊢
    exact hsame (noteRead_bypass (s.spawning j conn) _)
  | tupleFailed => exact hsame (breakLink_bypass s _)
  | rearm =>
    obtain ⟨ds, hd⟩ := s.detectLoop_detectors _ _
    rw [hd] at hsame ⊢
    exact hsame rfl
  | pull | notified | connectFailed | timedOut | connect | expire | respond => exact hsame rfl

/-- A connector that was connecting and sends the four tuple has disabled bypass. -/
theorem inspects_of_tuple {e : Event} (hr : Rule s e s') {j conn : ℕ} {w : LinkWrite}
    (hj : (s.connectors j).IsConnecting) (hj' : s'.connectors j = .fourTuple conn w) :
    s'.bypass = false := by
  have hne : ∀ conn w, s.connectors j ≠ .fourTuple conn w := by
    rintro conn w hpc
    rcases hj with ⟨up, hj⟩ | hj <;> rw [hpc] at hj <;> cases hj
  cases moves hr with
  | @code _ _ hm =>
    by_cases ht : e.tid = some (.connector j)
    · cases hr with
      | pushPeer hw => cases ht; cases hw
      | pushLink hw | issueWrite hw =>
        cases ht
        rw [linkWrite] at hw
        rcases hj with ⟨up, hj⟩ | hj <;> rw [hj] at hw <;> cases hw
      | connected => rfl
      | connectFailed => cases ht; simp [Session.setConnector] at hj'
      | retry =>
        cases ht
        revert hj'
        exact connectLoop_ind (P := fun s' => s'.connectors j = _ → _)
          (fun _ h => by simp [Session.setConnector] at h) fun _ h => by simp [asyncConnect] at h
      | wroteTuple hpc | tupleFailed hpc => cases ht; exact absurd hpc (hne _ _)
      | connect => cases ht; simp at hj'
      | _ => cases ht
    · rcases hm.connector j ht with h | ⟨-, h | h⟩
      · exact absurd (h.symm.trans hj') (hne _ _)
      · rw [h] at hj'; cases hj'
      · rw [h] at hj'; cases hj'
  | @sent t k w₁ hw =>
    cases t with
    | connector j₁ =>
      by_cases hjj : j = j₁
      · subst hjj
        rw [linkWrite] at hw
        rcases hj with ⟨up, hj⟩ | hj <;> rw [hj] at hw <;> cases hw
      · simp only [setLinkWrite, Session.setConnector, Function.update_of_ne hjj] at hj'
        exact absurd hj' (hne _ _)
    | relay | reader | detector => exact absurd hj' (hne _ _)
  | @connect j₁ =>
    by_cases hjj : j = j₁
    · subst hjj
      simp at hj'
    · simp only [Function.update_of_ne hjj] at hj'
      exact absurd hj' (hne _ _)
  | connected => rfl

end

/-! ## The invariant -/

/-- An open session that is connecting has a connector for it, and one that is bypassed is
    connecting, or flushes a queue. -/
structure Recovering (s : Session) : Prop where
  connecting : s.hasClosed = false → s.processConnecting = true →
    ∃ j, (s.connectors j).IsConnecting
  bypassed : s.hasClosed = false → s.bypass = true → s.processConnecting = true ∨ ¬ s.NoFlush

namespace Recovering

variable {s s' : Session}

theorem init (c : Conf) : Recovering (Session.init c) where
  connecting _ _ := ⟨0, .inl ⟨false, rfl⟩⟩
  bypassed _ _ := .inl rfl

theorem step (h : Recovering s) (hs : Shape s) {e : Event} (hr : Rule s e s') : Recovering s' := by
  have hs' := hs.step hr
  have hopen : s'.hasClosed = false → s.hasClosed = false := open_before_of_rule hr
  have hclosed : s'.hasClosed = false → ¬ s'.hasClosed = true := fun ho hc => by
    rw [ho] at hc
    cases hc
  constructor
  · intro ho hp
    have hk : s.processConnecting = true ∨ ∃ j, s'.connectors j = .connecting false := by
      cases moves hr with
      | code hm => exact (hm.reconnects hp ho).imp_right fun ⟨j, _, _, hj⟩ => ⟨j, hj⟩
      | @sent t => cases t <;> exact .inl hp
      | connect => exact .inl hp
      | connected => cases hp
    rcases hk with hk | ⟨j, hj⟩
    · obtain ⟨j, hj⟩ := h.connecting (hopen ho) hk
      rcases connecting_of_rule hs hr hj with hc | hj | ⟨hn, -⟩
      · exact absurd hc (hclosed ho)
      · exact ⟨j, hj⟩
      · rw [hp] at hn; cases hn
    · exact ⟨j, .inl ⟨false, hj⟩⟩
  · intro ho hb
    have hhandled : s'.Handled → s'.processConnecting = true := fun hh =>
      hh.resolve_left (hclosed ho)
    cases hb₀ : s.bypass with
    | false => exact (bypassed_of_rule hs hr hb₀ hb).imp_left hhandled
    | true =>
      rcases h.bypassed (hopen ho) hb₀ with hp | hf
      · -- who was connecting still is
        obtain ⟨j, hj⟩ := h.connecting (hopen ho) hp
        rcases connecting_of_rule hs hr hj with hc | hj' | ⟨-, w, hw⟩
        · exact absurd hc (hclosed ho)
        · exact .inl (hs'.connecting j hj')
        · rw [inspects_of_tuple hr hj hw] at hb
          cases hb
      · -- the flush goes on, or is done
        simp only [NoFlush, not_and_or, not_forall, not_not] at hf
        rcases hf with ⟨d, hf⟩ | ⟨i, -, hf⟩
        · exact (relay_of_rule hr hf).imp hhandled not_noFlush_of_relay
        · have hne : (s.readers i).pc ≠ .done := by
            intro hd
            rw [hd] at hf
            exact hf
          exact (reader_of_rule hs hr hne).imp hhandled fun hg =>
            not_noFlush_of_reader hs' (hg.2 hf)

end Recovering

/-- **The way back from bypass is never lost**: in an open session `process_connecting_` is
    set exactly while one `connect_process` is connecting, and a bypassed session has one, or
    a flush that leads to it. -/
theorem recovers {c : Conf} {s : Session}
    (h : Reach Session.step StaysDefined (Session.init c) s) (ho : s.hasClosed = false) :
    s.undefined = false ∧ s.Recovers := by
  have hi : Shape s ∧ Defined s ∧ Recovering s :=
    h.inv (I := fun s => Shape s ∧ Defined s ∧ Recovering s)
      ⟨Shape.init c, Defined.init c, Recovering.init c⟩ fun _ _ _ ⟨hs, hd, hr⟩ hC he =>
        ⟨hs.step (rule_of_step he), hd.step hs hC (rule_of_step he), hr.step hs (rule_of_step he)⟩
  obtain ⟨hs, hd, hr⟩ := hi
  refine ⟨hd.defined, ⟨fun hp => ?_, ?_⟩, hr.bypassed ho⟩
  · obtain ⟨j, hj⟩ := hr.connecting ho hp
    exact ⟨j, hj, fun j' hj' => hs.unique j' j hj' hj⟩
  · rintro ⟨j, hj, -⟩
    exact hs.connecting j hj

/-- The connection is lost while a packet is stored: the relay is flushing it. -/
theorem recovers_flushing : ∃ s : Session, s.bypass = true ∧ s.processConnecting = false ∧
    s.undefined = false ∧ s.Recovers := by
  obtain ⟨s, hs, hp⟩ := exists_runIf Session.step StaysDefined
    (Session.init (localConf true))
    (firstUp ++ [.read .req (.data [2]), .fail (.relay .req)])
    (fun s => s.bypass && !s.processConnecting && !s.hasClosed) (by decide +kernel)
  simp only [Bool.and_eq_true, Bool.not_eq_true'] at hp
  exact ⟨s, hp.1.1, hp.1.2, recovers hs hp.2⟩

end CppProxy
