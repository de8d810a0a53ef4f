/-
  cpp_proxy — who writes to the process.

  The coroutines start their writes to the process without looking at each other, and a
  write that is part-way issues its next part on whatever connection is current.

  * `Session.issues`: the coroutine that issues a part of a write in a step;
  * `issued_of_rule`: a part that is on its way was issued before, or is in this step;
  * `Session.IsWriting`: some of a frame is still to be sent on the current connection.
-/
import CppProxy.LinkFrames
import CppProxy.Moves

namespace CppProxy

open Session

namespace Session

variable (s : Session)

/-- `server_response` is about to notify the process when it goes on. -/
def Notifies : Prop := s.eof = false ∧ s.bypass = false ∧ s.responseBypass = true

instance : Decidable s.Notifies := inferInstanceAs (Decidable (_ ∧ _ ∧ _))

/-- The coroutine that issues a part of a write to the process: the first one of a
    payload, of a notification or of the four tuple, or the next one.  After a flush
    `connect_process` leaves the socket as it is only if it is connecting already. -/
def issues : Event → Option Tid
  | .read d (.data _) =>
    match (s.way d).relay with
    | .readProcess _ => some (.relay d)
    | _ => none
  | .complete (.relay .res) =>
    match (s.way .res).relay with
    | .writeDirect _ | .writeProcess _ => if s.Notifies then some (.relay .res) else none
    | .flush _ _ => if s.Notifies ∧ s.processConnecting = true then some (.relay .res) else none
    | _ => none
  | .complete (.connector j) =>
    if s.connectors j = .connecting true then some (.connector j) else none
  | .issue t => (s.linkWrite t).map fun _ => t
  | _ => none

/-- Coroutine `t` has a write on the current connection, and not all of it is sent. -/
def IsWriting (t : Tid) : Prop :=
  ∃ w ∈ s.linkWrite t, w.gen = s.conns ∧ w.io ≠ .dead ∧ w.rest ≠ []

/-- The write of which the next part is issued is one on the current connection. -/
def Continues : Event → Prop
  | .issue t => ∀ w ∈ s.linkWrite t, w.gen = s.conns
  | _ => True

instance (t : Tid) : Decidable (s.IsWriting t) :=
  inferInstanceAs (Decidable (∃ w ∈ s.linkWrite t, _ ∧ _ ∧ _))

instance : ∀ e, Decidable (s.Continues e)
  | .issue t => inferInstanceAs (Decidable (∀ w ∈ s.linkWrite t, _))
  | .read _ _ | .push _ _ | .pull _ _ | .complete _ | .fail _ | .connect _ | .expire _
  | .respond _ _ => inferInstanceAs (Decidable True)

end Session

section

variable {s s' : Session} {e : Event}

theorem Resumed.linkWrite_before {o : Option Tid} (h : Resumed s s' o) {t : Tid} {w : LinkWrite}
    (ht : o ≠ some t) (hw : s'.linkWrite t = some w) : s.linkWrite t = some w := by
  cases t with
  | relay d => rw [Session.linkWrite, ← h.relay d ht]; exact hw
  | connector j =>
    rw [Session.linkWrite] at hw ⊢
    rcases h.connector j ht with hj | ⟨-, hj | hj⟩
    · rw [← hj]; exact hw
    · rw [hj] at hw; cases hw
    · rw [hj] at hw; cases hw
  | reader i => cases hw
  | detector k => cases hw

/-- A part that is issued now goes to a connection that is up. -/
theorem connected_of_issued (h : s.issued ≠ .dead) : s.proxyProcessSocket = .connected := by
  by_contra hn
  simp [issued, hn] at h

/-- A relay goes on with its loop: a notification is issued. -/
theorem linkWrite_relayLoop {d : Dir} {w : LinkWrite}
    (hw : (s.relayLoop d).linkWrite (.relay d) = some w) (hl : w.io ≠ .dead) :
    d = .res ∧ s.Notifies ∧ w.gen = s.conns ∧ s.proxyProcessSocket = .connected := by
  revert hw
  refine relayLoop_ind (P := fun s' => s'.linkWrite (.relay d) = some w → _) (fun _ hw => ?_)
    (fun _ _ hw => ?_) (fun he hb hd hr hw => ?_) fun _ _ _ hw => ?_
  · simp [Session.linkWrite, RelayPc.linkWrite] at hw
  · simp [Session.linkWrite, relayDirect, RelayPc.linkWrite] at hw
  · simp only [Session.linkWrite, setRelay_way, Function.update_self, RelayPc.linkWrite,
      Option.some.injEq] at hw
    subst hw
    exact ⟨hd, ⟨he, hb, hr⟩, rfl, connected_of_issued hl⟩
  · simp [Session.linkWrite, innerClientOrServer2proxy2process, RelayPc.linkWrite] at hw

/-- `connect_process` takes the connection down, or is connecting already. -/
theorem linkWrite_relayReconnect {d : Dir} {gen : ℕ} {w : LinkWrite}
    (hw : (s.relayReconnect d gen).linkWrite (.relay d) = some w) (hl : w.io ≠ .dead) :
    d = .res ∧ (s.Notifies ∧ s.processConnecting = true) ∧ w.gen = s.conns ∧
      s.proxyProcessSocket = .connected := by
  obtain ⟨hd, hn, hg, hs⟩ := linkWrite_relayLoop hw hl
  revert hn hg hs
  refine connectProcess_ind (P := fun s' => s'.Notifies → w.gen = s'.conns →
    s'.proxyProcessSocket = .connected → _) (fun hp hn hg hs => ⟨hd, ⟨hn, hp⟩, hg, hs⟩)
    fun _ _ _ hs => ?_
  simp only [reconnecting] at hs
  split at hs <;> cases hs

theorem linkWrite_relayFlush {d : Dir} {gen : ℕ} {w : LinkWrite}
    (hw : (s.relayFlush d gen).linkWrite (.relay d) = some w) : w.io = .dead := by
  by_contra hl
  revert hw
  refine relayFlush_ind (P := fun s' => s'.linkWrite (.relay d) = some w → False) (fun _ hw => ?_)
    fun _ hw => ?_
  · exact absurd (linkWrite_relayReconnect hw hl).2.1.1.2.1 (by simp)
  · simp [Session.linkWrite, RelayPc.linkWrite] at hw

/-- What a step does to a write to the process that can go on: the write is as it was, or
    issues a part now, or one has left. -/
inductive Session.Wrote (s : Session) (e : Event) (t : Tid) (w : LinkWrite) : Prop
  | kept (hw : s.linkWrite t = some w)
  | issued (hi : s.issues e = some t) (hg : w.gen = s.conns)
      (hs : s.proxyProcessSocket = .connected)
  | sent {k w₀} (he : e = .push t k) (hw₀ : s.linkWrite t = some w₀) (hl : w₀.io = .live)
      (hw : w = { w₀ with io := .idle, rest := w₀.rest.drop k })

/-- **What a step does to the writes** to the process. -/
theorem wrote_of_rule (hr : Rule s e s') {t : Tid} {w : LinkWrite}
    (hw : s'.linkWrite t = some w) (hl : w.io ≠ .dead) : s.Wrote e t w := by
  by_cases ht : e.tid = some t
  · cases hr with
    | @gotDirect d =>
      cases ht
      rw [writeDirect_eq] at hw
      simp [Session.linkWrite, RelayPc.linkWrite] at hw
    | @gotProcess d live bytes hpc =>
      cases ht
      rw [writeProcess_eq] at hw
      simp only [Session.linkWrite, Function.update_self, RelayPc.linkWrite,
        Option.some.injEq] at hw
      subst hw
      exact .issued (by simp [issues, hpc]) rfl (connected_of_issued hl)
    | readEof =>
      cases ht
      rw [relayEof_eq] at hw
      simp [Session.linkWrite, RelayPc.linkWrite] at hw
    | readError | relayWriteFailed =>
      cases ht
      simp [Session.linkWrite, relayClose, RelayPc.linkWrite] at hw
    | @pushPeer t' k d w₁ hw₁ =>
      cases ht
      cases t with
      | relay d' =>
        simp only [Session.linkWrite, setPeerWrite, setRelay_way, Function.update_self] at hw
        rw [(accept_frame s d _ d').2] at hw
        simp only [peerWrite, Option.map_eq_some_iff] at hw₁
        obtain ⟨w', hw', -⟩ := hw₁
        cases hpc : (s.way d').relay <;> rw [hpc] at hw' hw <;> cases hw' <;> cases hw
      | connector j => cases hw₁
      | _ => cases hw
    | @pushLink t' k w₁ hw₁ hi =>
      cases ht
      rw [(Linked.linkWrite_setLinkWrite (s := s.sendLink w₁ k) (w := w₁)
        (by rw [← hw₁]; cases t <;> rfl)).1] at hw
      cases hw
      exact .sent rfl hw₁ hi rfl
    | @issueWrite t' w₁ hw₁ =>
      cases ht
      rw [(Linked.linkWrite_setLinkWrite hw₁).1] at hw
      cases hw
      exact .issued (by simp [issues, hw₁]) rfl (connected_of_issued hl)
    | notified | notifyFailed =>
      cases ht
      simp [Session.linkWrite, relayDirect, RelayPc.linkWrite] at hw
    | @wroteDirect d w₁ hpc | @wroteProcess d w₁ hpc =>
      cases ht
      obtain ⟨rfl, hn, hg, hs⟩ := linkWrite_relayLoop hw hl
      exact .issued (by simp [issues, hpc, hn]) hg hs
    | processFailed =>
      cases ht
      exact absurd (linkWrite_relayFlush hw) hl
    | @relayFlushed d gen w₁ hpc =>
      cases ht
      obtain ⟨rfl, hn, hg, hs⟩ := linkWrite_relayReconnect hw hl
      exact .issued (by rw [issues, hpc]; exact if_pos hn) hg hs
    | @connected j hpc =>
      cases ht
      simp only [Session.linkWrite, fourTuple2process, Session.setConnector, Function.update_self,
        ConnectorPc.linkWrite, Option.some.injEq] at hw
      subst hw
      exact .issued (by simp [issues, hpc]) rfl (connected_of_issued hl)
    | connectFailed | tupleFailed | connect =>
      cases ht
      simp [Session.linkWrite, Session.setConnector, ConnectorPc.linkWrite] at hw
    | @retry j =>
      cases ht
      revert hw
      exact connectLoop_ind (P := fun s' => s'.linkWrite (.connector j) = some w → _)
        (fun _ hw => by simp [Session.linkWrite, Session.setConnector, ConnectorPc.linkWrite] at hw)
        fun _ hw => by simp [Session.linkWrite, asyncConnect, ConnectorPc.linkWrite] at hw
    | @wroteTuple j conn =>
      cases ht
      simp [Session.linkWrite, superviseProcess_connectors, ConnectorPc.linkWrite] at hw
    | respond => cases ht
    | _ => cases ht; cases hw
  · refine .kept ?_
    cases moves hr with
    | code h => exact h.linkWrite_before ht hw
    | @sent t' k w₁ hw₁ =>
      have htt : t ≠ t' := fun h => ht (by rw [h]; rfl)
      rw [(Linked.linkWrite_setLinkWrite (s := s.sendLink w₁ k) (w := w₁)
        (by rw [← hw₁]; cases t' <;> rfl)).2 t htt] at hw
      rw [← hw]
      cases t <;> rfl
    | @connect j =>
      cases t with
      | connector j' =>
        have hj : j' ≠ j := fun h => ht (by rw [h]; rfl)
        simpa [Session.linkWrite, hj] using hw
      | _ => exact hw
    | @connected j =>
      cases t with
      | connector j' =>
        have hj : j' ≠ j := fun h => ht (by rw [h]; rfl)
        simpa [Session.linkWrite, fourTuple2process, Session.setConnector, hj] using hw
      | _ => exact hw

/-- No write was issued on a connection that is still to come. -/
theorem gen_le_of_rule (hold : ∀ t w, s.linkWrite t = some w → w.io ≠ .dead → w.gen ≤ s.conns)
    (hr : Rule s e s') {t : Tid} {w : LinkWrite} (hw : s'.linkWrite t = some w)
    (hl : w.io ≠ .dead) : w.gen ≤ s.conns := by
  cases wrote_of_rule hr hw hl with
  | kept hw => exact hold t w hw hl
  | issued _ hg => exact hg.le
  | @sent k w₀ _ hw₀ hi heq =>
    subst heq
    exact hold t w₀ hw₀ (by simp [hi])

/-- The connection is the one it was, and up only if it was up, or a new one. -/
theorem alive_of_rule (hr : Rule s e s') :
    s'.conns = s.conns ∧ (s'.Alive → s.Alive) ∨ s'.conns = s.conns + 1 := by
  cases moves hr with
  | code h =>
    refine .inl ⟨h.conns, fun ha => ⟨h.socket ha.1, ?_⟩⟩
    by_contra hb
    have := h.broken s.conns (by simpa [link] using hb)
    rw [← h.conns] at this
    exact absurd ha.2 (by simpa [link] using this)
  | @sent t k w hw hg hs hb => exact .inl ⟨by cases t <;> rfl, fun _ => ⟨hs, hb⟩⟩
  | connect => exact .inr rfl
  | connected => exact .inl ⟨rfl, id⟩

/-- A write that goes on was going on, or issues a part now. -/
theorem isWriting_of_rule (hr : Rule s e s') (hc : s'.conns = s.conns) {t : Tid}
    (hw : s'.IsWriting t) : s.IsWriting t ∨ s.issues e = some t := by
  obtain ⟨w, hw, hg, hd, hn⟩ := hw
  cases wrote_of_rule hr hw hd with
  | kept hw => exact .inl ⟨w, hw, hg.trans hc, hd, hn⟩
  | issued hi => exact .inr hi
  | @sent k w₀ he hw₀ hl heq =>
    subst heq
    refine .inl ⟨w₀, hw₀, hg.trans hc, by simp [hl], fun hr => hn ?_⟩
    rw [hr, List.drop_nil]

end

end CppProxy
