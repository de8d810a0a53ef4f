/-
  cpp_proxy — packets left behind by a reconnect.

  A failed write flushes the queue of its own direction, a failed read flushes both, and
  each then asks for a new connection.  The counters start from zero on it, so a packet
  that is still stored then must be flushed before the connection is handed over.

  * `Session.Owed`, `Session.Tended`: somebody is still to flush a queue; or it is empty;
  * `Session.leaves`: the direction that an error path does not look at when it ends;
  * `ClearsQueues`: the steps that leave no packet behind;
  * `Reconnecting`: what `connect_process` then finds in the queues;
  * `countsFrames_of_clearsQueues`: the counters and the queues stay aligned.
-/
import CppProxy.Counters
import CppProxy.Defined
import CppProxy.Writes

namespace CppProxy

open Session Runs

/-- The other direction. -/
def Dir.other : Dir → Dir
  | req => .res
  | res => .req

/-! ## Who is still to flush -/

/-- The relay flushes, or its frame is not all sent and cannot be sent on connection
    `conns`, if that is `up`: the write is going to fail. -/
def RelayPc.Owes (up : Prop) (conns : ℕ) : RelayPc → Prop
  | flush _ _ => True
  | writeProcess w => w.rest ≠ [] ∧ ¬ (up ∧ w.gen = conns ∧ w.io ≠ .dead)
  | _ => False

/-- The reader flushes the queue of direction `d` before it returns. -/
def ReaderPc.Owes (d : Dir) : ReaderPc → Prop
  | flushClient _ _ => d = .res
  | done => False
  | _ => True

instance (up : Prop) [Decidable up] (conns : ℕ) : ∀ pc : RelayPc, Decidable (pc.Owes up conns)
  | .flush _ _ => inferInstanceAs (Decidable True)
  | .writeProcess _ => inferInstanceAs (Decidable (_ ∧ ¬ (_ ∧ _ ∧ _)))
  | .notify _ | .readDirect _ | .writeDirect _ | .readProcess _ | .done =>
    inferInstanceAs (Decidable False)

instance (d : Dir) : ∀ pc : ReaderPc, Decidable (pc.Owes d)
  | .flushClient _ _ => inferInstanceAs (Decidable (_ = _))
  | .done => inferInstanceAs (Decidable False)
  | .readHead _ | .readBody _ _ | .writeNew _ _ _ _ | .release _ _ _ _ | .flushServer _ _ =>
    inferInstanceAs (Decidable True)

namespace Session

variable (s : Session)

/-- `connect_process` has its connection up. -/
def ComesUp : Prop := s.processConnecting = true ∧ s.proxyProcessSocket = .connected

/-- A coroutine is still to flush the queue of direction `d`. -/
def Owed (d : Dir) : Prop :=
  (s.way d).relay.Owes s.ComesUp s.conns ∨ ∃ i < s.nReaders, (s.readers i).pc.Owes d

/-- The queue of direction `d` is empty, or still to be flushed. -/
def Tended (d : Dir) : Prop := (s.way d).storedData = [] ∨ s.Owed d

/-- The direction whose queue an error path leaves as it is when it ends. -/
def leaves : Event → Option Dir
  | .fail (.relay d) =>
    match (s.way d).relay with
    | .writeProcess _ => if (s.way d).storedData = [] then some d.other else none
    | _ => none
  | .complete (.relay d) =>
    match (s.way d).relay with
    | .flush _ _ => some d.other
    | _ => none
  | .complete (.reader i) =>
    match (s.readers i).pc with
    | .flushClient _ _ => some .req
    | _ => none
  | _ => none

/-- Coroutine `t` is the `connect_process` that is to hand its connection over. -/
def IsConnected : Tid → Prop
  | .connector j => s.connectors j = .connecting true
  | _ => False

/-- While `connect_process` is at work: a response releases nothing that is stored; a flush
    ends before anything is framed to the new connection, and no write goes on there that
    was not begun there; and the connection is handed over with no flush outstanding. -/
def AwaitsConnection : Event → Prop
  | .complete t => ∀ d,
      (∀ head ∈ s.acting d t, head.act ≠ Action.block.code → (s.way d).storedData = []) ∧
        (s.proxyProcessSocket = .connected →
          (s.flushing d t ≠ none → s.link.frames d = []) ∧
            (s.IsConnected t → s.NoFlush → (s.way d).storedData = [] ∨ ¬ s.Owed d))
  | .issue t => s.proxyProcessSocket = .connected → s.Continues (.issue t)
  | _ => True

instance : ∀ t, Decidable (s.IsConnected t)
  | .connector _ => inferInstanceAs (Decidable (_ = _))
  | .relay _ | .reader _ | .detector _ => inferInstanceAs (Decidable False)
/-- The counter of a direction is zero, unless the session is closed or not connecting. -/
def Zeroed (d : Dir) : Prop :=
  s.hasClosed = true ∨ s.processConnecting = false ∨ (s.way d).handledTotalPkgLen = 0

instance : Decidable s.ComesUp := inferInstanceAs (Decidable (_ ∧ _))
instance (d : Dir) : Decidable (s.Owed d) := inferInstanceAs (Decidable (_ ∨ _))
instance (d : Dir) : Decidable (s.Tended d) := inferInstanceAs (Decidable (_ ∨ _))

instance : ∀ e, Decidable (s.AwaitsConnection e)
  | .complete t => inferInstanceAs (Decidable (∀ d, (∀ head ∈ s.acting d t, _ → _) ∧
      (_ → (_ → _) ∧ (s.IsConnected t → _ → _ ∨ ¬ s.Owed d))))
  | .issue t => inferInstanceAs (Decidable (_ → s.Continues (.issue t)))
  | .read _ _ | .push _ _ | .pull _ _ | .fail _ | .connect _ | .expire _ | .respond _ _ =>
    inferInstanceAs (Decidable True)

end Session

/-- The steps that leave no packet behind.  An error path that ends, and asks for a new
    connection, leaves the other queue to somebody who is still to flush it; what
    `connect_process` starts with is flushed before it hands its connection over; a
    connection is made with no reader between two reads (see `Vacant`); and fewer than
    `2 ^ 64` bytes are framed to it. -/
def ClearsQueues (s : Session) (e : Event) : Prop :=
  Vacant s e ∧ (∀ d, s.Short d) ∧ (s.hasClosed = false →
    if s.processConnecting then s.AwaitsConnection e else ∀ d ∈ s.leaves e, s.Tended d)

instance (s : Session) (e : Event) : Decidable (ClearsQueues s e) :=
  inferInstanceAs (Decidable (_ ∧ _ ∧ (_ → ite _ _ _)))

/-! ## What a step changes -/

section

variable {s s' : Session} {e : Event} {t : Tid} {d : Dir}

/-- Only a payload is framed to a connection. -/
theorem frames_of_rule (hr : Rule s e s') (hc : ∀ j, e ≠ .connect j)
    (hp : ∀ bytes, e = .read d (.data bytes) → ∀ live, (s.way d).relay ≠ .readProcess live) :
    s'.link.frames d = s.link.frames d := by
  cases updated_of_rule hr with
  | code _ _ h | readEof h | overrun _ _ h | flushed _ _ h | cleared _ _ h =>
    rw [link, h.same.conns, h.same.frames]
    rfl
  | gotDirect => rw [writeDirect_eq]; rfl
  | @gotProcess d' live bytes hpc =>
    have hd : d ≠ d' := by rintro rfl; exact hp bytes rfl live hpc
    rw [writeProcess_eq]
    simp only [link, framed]
    split <;> simp [hd]
  | @pushPeer t => cases t <;> rfl
  | @pushLink t => cases t <;> simp [setLinkWrite, sendLink, Session.setConnector, link,
      Session.setLink, setRelay, Session.setWay]
  | pull => simp [setLinkRead]
  | release h₁ _ h =>
    obtain ⟨-, rfl⟩ := h
    rcases h₁ with rfl | rfl <;> rfl
  | connected => rfl
  | connect => exact absurd rfl (hc _)
  | @respond g => by_cases hg : s.conns = g <;> simp [link, hg]

/-- Code of an open session zeroes the counters when it starts to connect. -/
theorem Edit.zeroed (h : Edit s t s') (hz : s.Zeroed d) : s'.Zeroed d := by
  have hset : ∀ d' w, w.handledTotalPkgLen = (s.way d').handledTotalPkgLen →
      (s.setWay d' w).Zeroed d := by
    intro d' w hw
    refine hz.imp_right (Or.imp_right fun h => ?_)
    by_cases hd : d = d'
    · subst hd; simpa [hw] using h
    · simpa [hd] using h
  cases h with
  | close => exact .inl rfl
  | reconnect => exact .inr (.inr rfl)
  | @issueWrite t w =>
    cases t with
    | relay d' => exact hset d' _ rfl
    | _ => exact hz
  | relayDone | relayDirect | notified | notify | readProcess | relayFlush => exact hset _ _ rfl
  | _ => exact hz

/-- While `connect_process` is at work, the code starts no other one. -/
theorem Edit.connecting (h : Edit s t s') (hp : s.processConnecting = true) :
    s'.processConnecting = true ∧ ∀ j, (s'.connectors j).IsConnecting →
      (s.connectors j).IsConnecting ∧
        (s'.connectors j = .connecting true ↔ s.connectors j = .connecting true) := by
  have hset : ∀ j pc, (pc.IsConnecting → (s.connectors j).IsConnecting ∧
      (pc = .connecting true ↔ s.connectors j = .connecting true)) →
      ∀ j', (Function.update s.connectors j pc j').IsConnecting →
        (s.connectors j').IsConnecting ∧ (Function.update s.connectors j pc j' = .connecting true ↔
          s.connectors j' = .connecting true) := by
    intro j pc hpc j' hj'
    by_cases hj : j' = j
    · subst hj
      simp only [Function.update_self] at hj' ⊢
      exact hpc hj'
    · rw [Function.update_of_ne hj] at hj' ⊢
      exact ⟨hj', Iff.rfl⟩
  cases h with
  | reconnect _ _ hn => rw [hp] at hn; cases hn
  | @issueWrite t w hw =>
    cases t with
    | connector j =>
      refine ⟨hp, hset j _ fun hc => ?_⟩
      rw [linkWrite] at hw
      cases hpc : s.connectors j <;> rw [hpc] at hw hc <;> cases hw
      simp [ConnectorPc.setLinkWrite, ConnectorPc.IsConnecting] at hc
    | _ => exact ⟨hp, fun _ h => ⟨h, Iff.rfl⟩⟩
  | connectorDone => exact ⟨hp, hset _ _ fun hc => by simp [ConnectorPc.IsConnecting] at hc⟩
  | wait hpc => exact ⟨hp, hset _ _ fun _ => by simp [hpc, ConnectorPc.IsConnecting]⟩
  | retry hpc => exact ⟨hp, hset _ _ fun _ => by simp [hpc, ConnectorPc.IsConnecting]⟩
  | spawn => exact ⟨hp, hset _ _ fun hc => by simp [ConnectorPc.IsConnecting] at hc⟩
  | _ => exact ⟨hp, fun _ h => ⟨h, Iff.rfl⟩⟩

theorem Edits.connecting (h : Edits t s s') (hp : s.processConnecting = true) {j : ℕ}
    (hj : (s'.connectors j).IsConnecting) : (s.connectors j).IsConnecting ∧
      (s'.connectors j = .connecting true ↔ s.connectors j = .connecting true) := by
  refine (h.inv (P := fun x => x.processConnecting = true ∧ ∀ j, (x.connectors j).IsConnecting →
      (s.connectors j).IsConnecting ∧
        (x.connectors j = .connecting true ↔ s.connectors j = .connecting true))
    (fun x x' ⟨hx, hall⟩ he => ?_) ⟨hp, fun _ h => ⟨h, Iff.rfl⟩⟩).2 j hj
  obtain ⟨hx', hall'⟩ := he.connecting hx
  refine ⟨hx', fun j hj => ?_⟩
  obtain ⟨hj₁, hiff⟩ := hall' j hj
  exact ⟨(hall j hj₁).1, hiff.trans (hall j hj₁).2⟩

/-- The code does not connect the socket, and a new `connect_process` finds it closed. -/
theorem Edit.down (h : Edit s t s') (hd : ∀ j, s.connectors j = .connecting false ∨
    s.connectors j = .waiting → s.proxyProcessSocket ≠ .connected) (j : ℕ)
    (hj : s'.connectors j = .connecting false ∨ s'.connectors j = .waiting) :
    s'.proxyProcessSocket ≠ .connected := by
  have hset : ∀ j' pc, (pc = .connecting false ∨ pc = .waiting →
      s.connectors j' = .connecting false ∨ s.connectors j' = .waiting) →
      Function.update s.connectors j' pc j = .connecting false ∨
        Function.update s.connectors j' pc j = .waiting → s.proxyProcessSocket ≠ .connected := by
    intro j' pc hpc hj
    by_cases hjj : j = j'
    · subst hjj
      rw [Function.update_self] at hj
      exact hd j (hpc hj)
    · rw [Function.update_of_ne hjj] at hj
      exact hd j hj
  cases h with
  | close => simp
  | reconnect => cases hc : s.hasClosed <;> simp [reconnecting, hc]
  | @issueWrite t w hw =>
    cases t with
    | connector j' =>
      refine hset j' _ (fun hpc => ?_) hj
      rw [linkWrite] at hw
      cases hc : s.connectors j' <;> rw [hc] at hw hpc <;> cases hw
      simp [ConnectorPc.setLinkWrite] at hpc
    | _ => exact hd j hj
  | connectorDone => exact hset _ _ (by simp) hj
  | @wait j' hpc => exact hset j' _ (fun _ => .inl hpc) hj
  | @retry j' hpc =>
    have hne := hd j' (.inr hpc)
    by_cases hc : s.proxyProcessSocket = .closed <;> simp [asyncConnect, hc, hne]
  | spawn => exact hset _ _ (by simp) hj
  | timedOut => simp
  | _ => exact hd j hj

/-! ## Flushes that are outstanding -/

/-- A relay that is to flush stays so, or has flushed. -/
theorem owes_relay (hold : ∀ t w, s.linkWrite t = some w → w.io ≠ .dead → w.gen ≤ s.conns)
    (hp : s.processConnecting = true) (hA : s.AwaitsConnection e) (hr : Rule s e s')
    (ho' : s'.hasClosed = false) (h : (s.way d).relay.Owes s.ComesUp s.conns) :
    (s'.way d).relay.Owes s'.ComesUp s'.conns ∨ (s'.way d).storedData = [] := by
  by_cases ht : e.tid = some (.relay d)
  · have hnil : ∀ pc, (s.way d).relay = pc → (∀ gen w, pc ≠ .flush gen w) →
        (∀ w, pc ≠ .writeProcess w) → False := by
      rintro pc hpc hf hw
      rw [hpc] at h
      cases pc with
      | flush gen w => exact hf gen w rfl
      | writeProcess w => exact hw w rfl
      | _ => exact h
    cases hr with
    | @gotDirect d' live _ hpc | @gotProcess d' live _ hpc =>
      cases ht
      exact (hnil _ hpc (by simp) (by simp)).elim
    | @readEof d' live hpc | @readError d' live hpc =>
      cases ht
      rcases hpc with hpc | hpc <;> exact (hnil _ hpc (by simp) (by simp)).elim
    | @pushPeer t' k d' w hw =>
      cases ht
      left
      simp only [setPeerWrite, setRelay_way, Function.update_self]
      rw [(accept_frame s d' _ d).2]
      simp only [peerWrite, Option.map_eq_some_iff] at hw
      obtain ⟨w', hw', -⟩ := hw
      cases hpc : (s.way d).relay <;> rw [hpc] at hw' h <;> cases hw' <;>
        first | exact h.elim | trivial
    | @pushLink t' k w hw hi hg hsock =>
      cases ht
      rw [linkWrite] at hw
      cases hpc : (s.way d).relay <;> rw [hpc] at hw h <;> cases hw
      · exact h.elim
      · exact absurd ⟨⟨hp, hsock⟩, hg, by simp [hi]⟩ h.2
    | @issueWrite t' w hw hi hrest =>
      cases ht
      left
      have hw' := hw
      rw [linkWrite] at hw
      cases hpc : (s.way d).relay <;> rw [hpc] at hw h <;> cases hw
      · exact h.elim
      · simp only [setLinkWrite, setRelay_way, Function.update_self, hpc, RelayPc.setLinkWrite]
        refine ⟨hrest, fun hn => ?_⟩
        have hsock : s.proxyProcessSocket = .connected := hn.1.2
        exact h.2 ⟨⟨hp, hsock⟩, hA hsock w hw', by simp [hi]⟩
    | @notified d' w hpc | @notifyFailed d' w hpc | @wroteDirect d' w hpc =>
      cases ht
      exact (hnil _ hpc (by simp) (by simp)).elim
    | @wroteProcess d' w hpc hf =>
      cases ht
      rw [hpc] at h
      exact absurd hf.2 h.1
    | @processFailed d' w hpc =>
      cases ht
      refine relayFlush_ind (P := fun x => (x.way d).relay.Owes x.ComesUp x.conns ∨
        (x.way d).storedData = []) (fun hnil => .inr ?_) fun _ => .inl ?_
      · have hu : ((s.breakLink w).way d).relay.unsent = [] := by
          rw [breakLink_way, hpc]
          rfl
        rw [(Edits.relayReconnect (s := { s.breakLink w with bypass := true }) hu _).same.stored]
        exact hnil
      · simp [RelayPc.Owes]
    | @relayFlushed d' gen w hpc =>
      cases ht
      right
      have hu : ((s.clearFlushed d w).way d).relay.unsent = [] := by
        simp [Session.clearFlushed, setStored, hpc, RelayPc.unsent]
      rw [(Edits.relayReconnect hu gen).same.stored]
      simp [Session.clearFlushed, setStored]
    | relayWriteFailed =>
      change s.graceClose.hasClosed = false at ho'
      rw [graceClose_hasClosed] at ho'
      cases ho'
    | respond => cases ht
    | _ => cases ht
  · left
    have hrelay := relay_of_other hr ht
    rw [hrelay]
    cases hpc : (s.way d).relay with
    | writeProcess w =>
      rw [hpc] at h
      refine ⟨h.1, fun hn => ?_⟩
      obtain ⟨hup, hg, hd⟩ := hn
      have hle := hold (.relay d) w (by rw [linkWrite, hpc]; rfl) hd
      cases moves hr with
      | code hm => exact h.2 ⟨⟨hp, hm.socket hup.2⟩, hg.trans hm.conns, hd⟩
      | @sent t k w' _ _ hsock =>
        exact h.2 ⟨⟨hp, hsock⟩, by cases t <;> exact hg, hd⟩
      | connect =>
        change w.gen = s.conns + 1 at hg
        omega
      | connected => exact absurd hup.1 (by simp [fourTuple2process, Session.setConnector])
    | _ => rw [hpc] at h; exact h

theorem owes_readerFlushClient (x : Session) (i gen : ℕ) :
    ((x.readerFlushClient i gen).readers i).pc.Owes .res ∨
      ((x.readerFlushClient i gen).way .res).storedData = [] := by
  refine readerFlushClient_ind (P := fun y => (y.readers i).pc.Owes .res ∨
    (y.way .res).storedData = []) (fun hnil => .inr ?_) fun _ => .inl ?_
  · rw [(Edits.readerReconnect _ i gen).same.stored]
    exact hnil
  · simp [ReaderPc.Owes]

theorem owes_readerFlushServer (x : Session) (i gen : ℕ) (d : Dir) :
    ((x.readerFlushServer i gen).readers i).pc.Owes d ∨
      ((x.readerFlushServer i gen).way d).storedData = [] := by
  refine readerFlushServer_ind (P := fun y => (y.readers i).pc.Owes d ∨
    (y.way d).storedData = []) (fun hnil => ?_) fun _ => .inl ?_
  · cases d with
    | req =>
      right
      rw [(Edits.readerFlushClient _ i gen).same.stored]
      exact hnil
    | res => exact owes_readerFlushClient _ i gen
  · simp [ReaderPc.Owes]

/-- A reader that acts on a head goes on reading, unless it closes the session. -/
theorem owes_actOnHead (x : Session) (i : ℕ) (d' : Dir) (conn : ℕ) (head : ResponseHead)
    (ho : (x.actOnHead i d' conn head).hasClosed = false) (d : Dir) :
    ((x.actOnHead i d' conn head).readers i).pc.Owes d := by
  revert ho
  refine actOnHead_ind (P := fun y => y.hasClosed = false → (y.readers i).pc.Owes d) (fun _ ho => ?_)
    fun _ _ => ?_
  · change x.graceClose.hasClosed = false at ho
    rw [graceClose_hasClosed] at ho
    cases ho
  · simp [releasing, ReaderPc.Owes]

theorem owes_readHead (x : Session) (i : ℕ) (d : Dir) : ((x.readHead i).readers i).pc.Owes d := by
  simp [Session.readHead, ReaderPc.Owes]

theorem owes_dispatch (x : Session) (i conn : ℕ) (head : ResponseHead) (buf : List Byte)
    (ho : (x.dispatch i conn head buf).hasClosed = false) (d : Dir) :
    ((x.dispatch i conn head buf).readers i).pc.Owes d := by
  revert ho
  refine dispatch_ind (P := fun y => y.hasClosed = false → (y.readers i).pc.Owes d)
    (fun d' _ => innerProxy_ind (P := fun y => y.hasClosed = false → (y.readers i).pc.Owes d)
      (fun _ _ => ?_) fun _ ho => owes_actOnHead _ i d' conn head ho d)
    (fun _ => owes_readHead _ i d) fun _ => owes_readHead _ i d
  simp [ReaderPc.Owes]

/-- A reader that is to flush stays so, or has flushed. -/
theorem owes_reader (hr : Rule s e s') (ho' : s'.hasClosed = false) {i : ℕ}
    (hi : i < s.nReaders) (h : (s.readers i).pc.Owes d) :
    (s'.readers i).pc.Owes d ∨ (s'.way d).storedData = [] := by
  by_cases ht : e.tid = some (.reader i)
  · have hclosed : ∀ {x : Session}, Resumed s.graceClose x (some (.reader i)) → x = s' → False := by
      rintro x hx rfl
      rw [hx.closed (graceClose_hasClosed s)] at ho'
      cases ho'
    cases hr with
    | @pushPeer t' k d' w hw =>
      cases ht
      left
      simp only [setPeerWrite, setReader_readers, Function.update_self]
      change ((s.readers i).pc.setPeerWrite _).Owes d
      cases hpc : (s.readers i).pc <;> rw [hpc] at h <;> exact h
    | pushLink hw | issueWrite hw => cases ht; cases hw
    | pull hr | issueRead hr =>
      cases ht
      left
      simp only [setLinkRead, setReader_readers, Function.update_self, noteRead_readers]
      change ((s.readers i).pc.setLinkRead _).Owes d
      cases hpc : (s.readers i).pc <;> rw [hpc] at h <;> exact h
    | gotHead => cases ht; exact .inl (by simp [Session.readBody, ReaderPc.Owes])
    | gotHeadOnly | gotBody => cases ht; exact .inl (owes_dispatch _ _ _ _ _ ho' d)
    | readFailed =>
      cases ht
      revert ho'
      exact readerFailed_ind (P := fun x => x.hasClosed = false → (x.readers i).pc.Owes d ∨
        (x.way d).storedData = []) (fun hc ho => absurd (hc.symm.trans ho) (by simp))
        fun _ _ => owes_readerFlushServer s i _ d
    | wroteNew => cases ht; exact .inl (owes_actOnHead _ _ _ _ _ ho' d)
    | released =>
      cases ht
      exact clearReleased_ind (P := fun x => (x.readers i).pc.Owes d ∨ (x.way d).storedData = [])
        (fun _ _ => .inl (owes_readHead _ i d)) fun _ => .inl (owes_readHead _ i d)
    | readerWriteFailed => cases ht; exact (hclosed ((Resumed.refl _ _).setReader _) rfl).elim
    | @flushedServer i' gen w hpc =>
      cases ht
      cases d with
      | req =>
        right
        rw [(Edits.readerFlushClient _ i gen).same.stored]
        simp [Session.clearFlushed, setStored]
      | res => exact owes_readerFlushClient _ i gen
    | flushServerFailed =>
      cases ht; exact (hclosed (Edits.readerFlushClient _ _ _).resumed rfl).elim
    | @flushedClient i' gen w hpc =>
      cases ht
      rw [hpc] at h
      obtain rfl : d = .res := h
      right
      rw [(Edits.readerReconnect _ i gen).same.stored]
      simp [Session.clearFlushed, setStored]
    | flushClientFailed => cases ht; exact (hclosed (Edits.readerReconnect _ _ _).resumed rfl).elim
    | respond => cases ht
    | _ => cases ht
  · exact .inl (by rw [reader_of_other hr hi ht]; exact h)

/-- **A flush that is outstanding stays so, or is made.** -/
theorem owed_of_rule (hold : ∀ t w, s.linkWrite t = some w → w.io ≠ .dead → w.gen ≤ s.conns)
    (hp : s.processConnecting = true) (hA : s.AwaitsConnection e) (hr : Rule s e s')
    (ho' : s'.hasClosed = false) (h : s.Owed d) : s'.Owed d ∨ (s'.way d).storedData = [] := by
  rcases h with h | ⟨i, hi, h⟩
  · exact (owes_relay hold hp hA hr ho' h).imp_left .inl
  · exact (owes_reader hr ho' hi h).imp_left fun h =>
      .inr ⟨i, hi.trans_le (nReaders_of_rule hr), h⟩

/-- A flush of another coroutine is outstanding still, when the connection is down. -/
theorem owed_of_other (hm : Resumed s s' (some t)) (ht : t ≠ .relay d)
    (hrd : ∀ i, t = .reader i → ¬ (s.readers i).pc.Owes d)
    (hdown : s'.proxyProcessSocket ≠ .connected) (h : s.Owed d) : s'.Owed d := by
  rcases h with h | ⟨i, hi, h⟩
  · left
    rw [hm.relay d fun he => ht (Option.some_inj.1 he)]
    cases hpc : (s.way d).relay with
    | writeProcess w =>
      rw [hpc] at h
      exact ⟨h.1, fun hn => hdown hn.1.2⟩
    | _ => rw [hpc] at h; exact h
  · right
    have hne : some t ≠ some (.reader i) := fun he => hrd i (Option.some_inj.1 he) h
    refine ⟨i, hi.trans_le hm.nReaders, ?_⟩
    rcases hm.reader i hne with heq | ⟨hn, -⟩
    · rw [heq]; exact h
    · omega

/-- **When `connect_process` starts, each queue is empty or still to be flushed.** -/
theorem tended_of_rule (hl : ∀ d ∈ s.leaves e, s.Tended d)
    (hp : s.processConnecting = false) (hr : Rule s e s') (hp' : s'.processConnecting = true)
    (ho' : s'.hasClosed = false) (hdown : s'.proxyProcessSocket ≠ .connected) (d : Dir) :
    s'.Tended d := by
  have hsame : s'.processConnecting = s.processConnecting → s'.Tended d := fun h => by
    rw [h, hp] at hp'
    cases hp'
  have hm := moves hr
  -- the queue of `d` is not looked at
  have hleft : ∀ {t}, e.tid = some t → t ≠ .relay d →
      (∀ i, t = .reader i → ¬ (s.readers i).pc.Owes d) → Resumed s s' (some t) →
      s.leaves e = some d → ((s.way d).storedData = [] → (s'.way d).storedData = []) →
      s'.Tended d := by
    intro t ht hd hrd hm he hkeep
    rcases hl d he with hnil | howed
    · exact .inl (hkeep hnil)
    · exact .inr (owed_of_other hm hd hrd hdown howed)
  have hclosed : ∀ {x t}, Resumed s.graceClose x t → x = s' → False := by
    rintro x t hx rfl
    rw [hx.closed (graceClose_hasClosed s)] at ho'
    cases ho'
  cases hr with
  | gotDirect => exact hsame (by rw [writeDirect_eq])
  | gotProcess => exact hsame (by rw [writeProcess_eq])
  | readEof =>
    rw [relayEof_eq] at ho'
    exact absurd ho' (by simp [setRelay, Session.setWay])
  | readError | relayWriteFailed => exact hsame (graceClose_connecting s)
  | @pushPeer t | @pushLink t | @issueWrite t => exact hsame (by cases t <;> rfl)
  | issueRead | gotHead => exact hsame (noteRead_connecting s _)
  | notifyFailed | tupleFailed => exact hsame (breakLink_connecting s _)
  | wroteDirect | wroteProcess => exact hsame (relayLoop_connecting s _)
  | gotHeadOnly | gotBody => exact hsame (dispatch_connecting s _ _ _ _)
  | wroteNew => exact hsame (actOnHead_connecting s _ _ _ _)
  | released => exact hsame (clearReleased_connecting s _ _ _ _)
  | readerWriteFailed => exact (hclosed ((Resumed.refl _ _).setReader _) rfl).elim
  | retry => exact hsame (connectLoop_connecting s _)
  | wroteTuple => exact hsame (superviseProcess_connecting s _ _)
  | rearm =>
    obtain ⟨ds, hd⟩ := s.detectLoop_detectors _ _
    exact hsame (by rw [hd])
  | pull | notified | connectFailed | timedOut | connect | expire | respond => exact hsame rfl
  | connected => cases hp'
  | @processFailed d₀ w hpc =>
    cases hm with | code hm => ?_
    have hq : ∀ d, (((s.breakLink w).relayFlush d₀ w.gen).way d).storedData =
        (s.way d).storedData := fun d => by
      have hu : ((s.breakLink w).way d₀).relay.unsent = [] := by
        rw [breakLink_way, hpc]
        rfl
      rw [(Edits.relayFlush hu w.gen).same.stored, breakLink_way]
    by_cases hnil : (s.way d₀).storedData = []
    · by_cases hd : d = d₀
      · subst hd
        exact .inl ((hq d).trans hnil)
      · obtain rfl : d = d₀.other := by cases d <;> cases d₀ <;> first | rfl | exact absurd rfl hd
        refine hleft rfl (by simpa using Ne.symm hd) (by simp) hm ?_ fun h => (hq _).trans h
        simp [leaves, hpc, hnil]
    · refine hsame (relayFlush_ind (P := fun x => x.processConnecting = s.processConnecting)
        (fun h => absurd ?_ hnil) fun _ => breakLink_connecting s w)
      rwa [breakLink_way] at h
  | @relayFlushed d₀ gen w hpc =>
    cases hm with | code hm => ?_
    have hu : ((s.clearFlushed d₀ w).way d₀).relay.unsent = [] := by
      simp [Session.clearFlushed, setStored, hpc, RelayPc.unsent]
    have hq := fun d => (Edits.relayReconnect hu gen).same.stored d
    by_cases hd : d = d₀
    · subst hd
      refine .inl ((hq d).trans ?_)
      simp [Session.clearFlushed, setStored]
    · obtain rfl : d = d₀.other := by cases d <;> cases d₀ <;> first | rfl | exact absurd rfl hd
      refine hleft rfl (by simpa using Ne.symm hd) (by simp) hm ?_ fun h => (hq _).trans ?_
      · simp [leaves, hpc]
      · simpa [Session.clearFlushed, setStored, hd] using h
  | @readFailed i r =>
    revert hp' ho'
    refine readerFailed_ind (P := fun x => x.processConnecting = true → x.hasClosed = false →
      x.Tended d) (fun _ hp' _ => absurd (hp.symm.trans hp') (by simp)) fun _ => ?_
    refine readerFlushServer_ind (P := fun x => x.processConnecting = true → x.hasClosed = false →
      x.Tended d) (fun hreq => ?_) fun _ hp' _ => absurd (hp.symm.trans hp') (by simp)
    refine readerFlushClient_ind (P := fun x => x.processConnecting = true → x.hasClosed = false →
      x.Tended d) (fun hres _ _ => .inl ?_) fun _ hp' _ => absurd (hp.symm.trans hp') (by simp)
    rw [(Edits.readerReconnect _ i r.gen).same.stored]
    cases d
    exacts [hreq, hres]
  | @flushedServer i gen w hpc =>
    revert hp' ho'
    refine readerFlushClient_ind (P := fun x => x.processConnecting = true → x.hasClosed = false →
      x.Tended d) (fun hres _ _ => .inl ?_) fun _ hp' _ => absurd (hp.symm.trans hp') (by simp)
    rw [(Edits.readerReconnect _ i gen).same.stored]
    cases d
    · simp [Session.clearFlushed, setStored]
    · exact hres
  | @flushedClient i gen w hpc =>
    cases hm with | code hm => ?_
    have hq := fun d => (Edits.readerReconnect (s.clearFlushed .res w) i gen).same.stored d
    cases d with
    | res =>
      refine .inl ((hq _).trans ?_)
      simp [Session.clearFlushed, setStored]
    | req =>
      refine hleft rfl (by simp) (fun i' hi' => ?_) hm ?_ fun h => (hq _).trans ?_
      · cases hi'
        rw [hpc]
        simp [ReaderPc.Owes]
      · simp [leaves, hpc]
      · simpa [Session.clearFlushed, setStored] using h
  | flushServerFailed => exact (hclosed (Edits.readerFlushClient _ _ _).resumed rfl).elim
  | flushClientFailed => exact (hclosed (Edits.readerReconnect _ _ _).resumed rfl).elim

end

/-! ## The invariant -/

/-- `connect_process` is at work: it waits for the kernel, or its connection is up. -/
def Session.AtWork (s : Session) : Prop :=
  s.hasClosed = false ∧ ∃ j, (s.connectors j).IsConnecting ∧
    (s.connectors j = .connecting true → s.proxyProcessSocket = .connected)

/-- The payloads framed to the connection, if it is up. -/
def Session.fresh (s : Session) (d : Dir) : List (List Byte) :=
  if s.proxyProcessSocket = .connected then s.link.frames d else []

/-- While `connect_process` is at work the counter of a direction is zero, and its queue
    holds what was framed to the new connection, behind what is still to be flushed. -/
structure Reconnecting (d : Dir) (s : Session) : Prop where
  old : ∀ t w, s.linkWrite t = some w → w.io ≠ .dead → w.gen ≤ s.conns
  down : ∀ j, s.connectors j = .connecting false ∨ s.connectors j = .waiting →
    s.proxyProcessSocket ≠ .connected
  counter : s.Zeroed d
  queue : s.AtWork → ∃ l r, (s.way d).storedData = l ++ r ∧ Frames r (s.fresh d) ∧
    (l = [] ∨ s.Owed d)

namespace Reconnecting

variable {d : Dir} {s s' : Session} {e : Event}

theorem init (d : Dir) (c : Conf) : Reconnecting d (Session.init c) where
  old t w hw := by rw [linkWrite_init] at hw; cases hw
  down _ _ h := by cases h
  counter := .inr (.inr (by cases d <;> rfl))
  queue _ := ⟨[], [], by cases d <;> rfl, ⟨by simp, rfl⟩, .inl rfl⟩

/-- The kernel connects only a socket that `connect_process` has opened. -/
theorem down_of_rule (h : Reconnecting d s) (hs : Shape s) (hr : Rule s e s') (j : ℕ)
    (hj : s'.connectors j = .connecting false ∨ s'.connectors j = .waiting) :
    s'.proxyProcessSocket ≠ .connected := by
  have hkeep : ∀ {t x}, Edits t s x → ∀ j, x.connectors j = .connecting false ∨
      x.connectors j = .waiting → x.proxyProcessSocket ≠ .connected := fun hx =>
    hx.inv (P := fun x => ∀ j, x.connectors j = .connecting false ∨
      x.connectors j = .waiting → x.proxyProcessSocket ≠ .connected)
      (fun _ _ hx he => he.down hx) h.down
  cases updated_of_rule hr with
  | code _ _ hx => exact hkeep hx j hj
  | readEof hx | overrun _ _ hx | flushed _ _ hx | cleared _ _ hx =>
    exact hx.inv (P := fun x => ∀ j, x.connectors j = .connecting false ∨
      x.connectors j = .waiting → x.proxyProcessSocket ≠ .connected)
      (fun _ _ hx he => he.down hx) h.down j hj
  | gotDirect => rw [writeDirect_eq] at hj ⊢; exact h.down j hj
  | gotProcess => rw [writeProcess_eq] at hj ⊢; exact h.down j hj
  | @pushPeer t => cases t <;> exact h.down j hj
  | @pushLink t k w hw =>
    cases t with
    | connector j' =>
      simp only [setLinkWrite, Session.setConnector] at hj
      by_cases hjj : j = j'
      · subst hjj
        rw [Function.update_self] at hj
        rw [linkWrite] at hw
        simp only [Session.sendLink, Session.setLink] at hj
        cases hc : s.connectors j <;> rw [hc] at hw hj <;> cases hw
        simp [ConnectorPc.setLinkWrite] at hj
      · rw [Function.update_of_ne hjj] at hj
        exact h.down j hj
    | _ => exact h.down j hj
  | pull => exact h.down j hj
  | release h₁ _ hx =>
    obtain ⟨-, rfl⟩ := hx
    rcases h₁ with rfl | rfl <;> exact h.down j hj
  | @connected j' =>
    simp only [fourTuple2process, Session.setConnector] at hj
    by_cases hjj : j = j'
    · subst hjj
      rw [Function.update_self] at hj
      simp at hj
    · rw [Function.update_of_ne hjj] at hj
      exact h.down j hj
  | @connect j' hpc =>
    by_cases hjj : j = j'
    · subst hjj
      simp at hj
    · simp only [Function.update_of_ne hjj] at hj
      refine absurd (hs.unique j j' ?_ (.inl ⟨_, hpc⟩)) hjj
      rcases hj with hj | hj
      exacts [.inl ⟨_, hj⟩, .inr hj]
  | respond => exact h.down j hj

/-- The counters stay zero: nothing that is stored is released meanwhile. -/
theorem zeroed_of_rule (h : Reconnecting d s)
    (hA : s.hasClosed = false → s.processConnecting = true → s.AwaitsConnection e)
    (hr : Rule s e s') : s'.Zeroed d := by
  have hkeep : ∀ {t x y}, x.Zeroed d → Edits t x y → y.Zeroed d := fun hx hy =>
    hy.inv (P := fun x => x.Zeroed d) (fun _ _ hx he => he.zeroed hx) hx
  have hset : ∀ d' w, w.handledTotalPkgLen = (s.way d').handledTotalPkgLen →
      (s.setWay d' w).Zeroed d := by
    intro d' w hw
    refine h.counter.imp_right (Or.imp_right fun h => ?_)
    by_cases hd : d = d'
    · subst hd; simpa [hw] using h
    · simpa [hd] using h
  cases updated_of_rule hr with
  | code _ _ hx => exact hkeep h.counter hx
  | readEof hx => exact hkeep (x := { s with eof := true, trace := _ }) h.counter hx
  | overrun _ _ hx => exact hkeep (x := { s with undefined := true }) h.counter hx
  | @flushed d' _ w _ _ _ hx =>
    exact hkeep (x := s.clearFlushed d' w) (hset d' { s.way d' with storedData := [] } rfl) hx
  | @cleared _ d' _ _ _ stored _ _ _ hx =>
    exact hkeep (x := s.setStored d' stored) (hset d' _ rfl) hx
  | @gotDirect d' live bytes =>
    rw [writeDirect_eq]
    exact hset d' { s.way d' with received := _, relay := _ } rfl
  | @gotProcess d' live bytes =>
    rw [writeProcess_eq]
    exact hset d' { s.way d' with received := _, storedData := _, block := _, relay := _ } rfl
  | @pushPeer t k d' w =>
    have hacc : (s.accept d' (w.rest.take k)).Zeroed d := hset d' _ rfl
    cases t with
    | relay d₁ =>
      refine hacc.imp_right (Or.imp_right fun h => ?_)
      by_cases hd : d = d₁
      · subst hd; simpa [setPeerWrite] using h
      · simpa [setPeerWrite, hd] using h
    | _ => exact hacc
  | @pushLink t k w =>
    cases t with
    | relay d₁ => exact hset d₁ _ rfl
    | _ => exact h.counter
  | pull => exact h.counter
  | @release i d' conn head s₁ s' h₁ hh hx =>
    obtain ⟨ha, rfl⟩ := hx
    have hway : s₁.way = s.way := by rcases h₁ with rfl | rfl <;> rfl
    have hc : s₁.hasClosed = s.hasClosed := by rcases h₁ with rfl | rfl <;> rfl
    have hp : s₁.processConnecting = s.processConnecting := by rcases h₁ with rfl | rfl <;> rfl
    rcases h.counter with hcl | hn | hz
    · exact .inl (hc.trans hcl)
    · exact .inr (.inl (hp.trans hn))
    by_cases hcl : s.hasClosed = true
    · exact .inl (hc.trans hcl)
    by_cases hn : s.processConnecting = false
    · exact .inr (.inl (hp.trans hn))
    have hnil := ((hA (by simpa using hcl) (by simpa using hn)) d').1 head hh ha
    refine .inr (.inr ?_)
    simp only [releasing, hway, hnil, prepareTransferPacket]
    by_cases hd : d = d'
    · subst hd; simpa using hz
    · simpa [hd] using hz
  | connected => exact .inr (.inl rfl)
  | connect => exact h.counter
  | respond => exact h.counter

/-- The `connect_process` that is at work was at work. -/
theorem connecting_of_rule (hr : Rule s e s') (hc : ∀ j, e ≠ .connect j)
    (hp : s.processConnecting = true) (hp' : s'.processConnecting = true) {j : ℕ}
    (hj : (s'.connectors j).IsConnecting) : (s.connectors j).IsConnecting ∧
      (s'.connectors j = .connecting true ↔ s.connectors j = .connecting true) := by
  cases updated_of_rule hr with
  | code _ _ hx => exact hx.connecting hp hj
  | readEof hx | overrun _ _ hx | flushed _ _ hx | cleared _ _ hx => exact hx.connecting hp hj
  | gotDirect => rw [writeDirect_eq] at hj ⊢; exact ⟨hj, Iff.rfl⟩
  | gotProcess => rw [writeProcess_eq] at hj ⊢; exact ⟨hj, Iff.rfl⟩
  | @pushPeer t => cases t <;> exact ⟨hj, Iff.rfl⟩
  | @pushLink t k w hw =>
    cases t with
    | connector j' =>
      by_cases hjj : j = j'
      · subst hjj
        rw [linkWrite] at hw
        cases hc : s.connectors j <;> rw [hc] at hw <;> cases hw
        simp [setLinkWrite, Session.setConnector, Session.sendLink, Session.setLink, hc,
          ConnectorPc.setLinkWrite, ConnectorPc.IsConnecting] at hj
      · have heq : ((s.sendLink w k).setLinkWrite { w with io := .idle, rest := w.rest.drop k }
            (.connector j')).connectors j = s.connectors j := by
          simp [setLinkWrite, Session.setConnector, Session.sendLink, Session.setLink, hjj]
        rw [heq] at hj ⊢
        exact ⟨hj, Iff.rfl⟩
    | _ => exact ⟨hj, Iff.rfl⟩
  | release h₁ _ hx =>
    obtain ⟨-, rfl⟩ := hx
    rcases h₁ with rfl | rfl <;> exact ⟨hj, Iff.rfl⟩
  | connected => cases hp'
  | connect => exact absurd rfl (hc _)
  | pull | respond => exact ⟨hj, Iff.rfl⟩

/-- A `connect_process` that has started waits for the kernel. -/
theorem started_of_rule (hs : Shape s) (hr : Rule s e s') (hp : s.processConnecting = false)
    (hp' : s'.processConnecting = true) (ho' : s'.hasClosed = false) {j : ℕ}
    (hj : (s'.connectors j).IsConnecting) : s'.connectors j = .connecting false := by
  cases moves hr with
  | code hm =>
    rcases hm.reconnects hp' ho' with hn | ⟨j₁, -, -, hj₁⟩
    · rw [hp] at hn
      cases hn
    · rwa [(hs.step hr).unique j j₁ hj (.inl ⟨_, hj₁⟩)]
  | @sent t =>
    have hsame : s.processConnecting = true := by cases t <;> exact hp'
    rw [hp] at hsame
    cases hsame
  | connect hpc =>
    have := hs.connecting _ (.inl ⟨_, hpc⟩)
    rw [hp] at this
    cases this
  | connected => cases hp'

theorem fresh_eq (hc : s.proxyProcessSocket = .connected) : s.fresh d = s.link.frames d := if_pos hc

theorem fresh_nil (hc : s.proxyProcessSocket ≠ .connected) : s.fresh d = [] := if_neg hc

theorem frames_nil {r : List Packet} (h : Frames r []) : r = [] := List.map_eq_nil_iff.1 h.bytes

/-- The queue, when `connect_process` starts. -/
theorem queue_of_start (h : Reconnecting d s) (hs : Shape s)
    (hl : ∀ d ∈ s.leaves e, s.Tended d) (hr : Rule s e s') (hp : s.processConnecting = false)
    (hp' : s'.processConnecting = true) (hw : s'.AtWork) :
    ∃ l r, (s'.way d).storedData = l ++ r ∧ Frames r (s'.fresh d) ∧ (l = [] ∨ s'.Owed d) := by
  obtain ⟨ho', j, hj, -⟩ := hw
  have hdown := h.down_of_rule hs hr j (.inl (started_of_rule hs hr hp hp' ho' hj))
  have hnone : Frames [] (s'.fresh d) := by
    rw [fresh_nil hdown]
    exact ⟨by simp, rfl⟩
  rcases tended_of_rule hl hp hr hp' ho' hdown d with hnil | howed
  · exact ⟨[], [], hnil, hnone, .inl rfl⟩
  · exact ⟨_, [], (List.append_nil _).symm, hnone, .inr howed⟩

/-- The queue, when the kernel connects the socket. -/
theorem queue_of_connect (h : Reconnecting d s) (ho : s.hasClosed = false)
    (hp : s.processConnecting = true) {j : ℕ} (hA : s.AwaitsConnection (.connect j))
    (hr : Rule s (.connect j) s') (ho' : s'.hasClosed = false) :
    ∃ l r, (s'.way d).storedData = l ++ r ∧ Frames r (s'.fresh d) ∧ (l = [] ∨ s'.Owed d) := by
  have hpc : s.connectors j = .connecting false := by cases hr; assumption
  obtain ⟨l, r, hq, hfr, howed⟩ := h.queue ⟨ho, j, .inl ⟨_, hpc⟩, by simp [hpc]⟩
  rw [fresh_nil (h.down j (.inl hpc))] at hfr
  obtain rfl := frames_nil hfr
  have howed' : l = [] ∨ s'.Owed d := by
    rcases howed with hl | howed
    · exact .inl hl
    · rcases owed_of_rule h.old hp hA hr ho' howed with h' | hnil
      · exact .inr h'
      · left
        cases hr
        rw [List.append_nil] at hq
        exact hq.symm.trans hnil
  refine ⟨l, [], ?_, ⟨by simp, ?_⟩, howed'⟩
  · cases hr
    exact hq
  · cases hr
    simp [Session.fresh, link]

/-- A payload that is read meanwhile is framed to the new connection, or its write is
    going to fail. -/
theorem queue_of_payload (h : Reconnecting d s) (hw : s.AtWork) (hp : s.processConnecting = true)
    {bytes : List Byte} (hA : s.AwaitsConnection (.read d (.data bytes)))
    (hr : Rule s (.read d (.data bytes)) (s.writeProcess d bytes))
    (hb : bytes.length < 2 ^ 32) :
    ∃ l r, ((s.writeProcess d bytes).way d).storedData = l ++ r ∧
      Frames r ((s.writeProcess d bytes).fresh d) ∧
        (l = [] ∨ (s.writeProcess d bytes).Owed d) := by
  obtain ⟨l, r, hq, hfr, howed⟩ := h.queue hw
  have hst : ((s.writeProcess d bytes).way d).storedData =
      (s.way d).storedData ++ [Packet.ofData bytes] := by
    rw [writeProcess_eq]
    simp
  have hsock : (s.writeProcess d bytes).proxyProcessSocket = s.proxyProcessSocket := by
    rw [writeProcess_eq]
  have ho' : (s.writeProcess d bytes).hasClosed = false := by
    rw [writeProcess_eq]
    exact hw.1
  by_cases hc : s.proxyProcessSocket = .connected
  · refine ⟨l, r ++ [Packet.ofData bytes], by rw [hst, hq, List.append_assoc], ?_, ?_⟩
    · rw [fresh_eq hc] at hfr
      rw [fresh_eq (hsock.trans hc)]
      have := hfr.append hb
      rw [writeProcess_eq]
      simpa [link, framed, hc] using this
    · refine howed.imp_right fun howed => ?_
      rcases owed_of_rule h.old hp hA hr ho' howed with h' | hnil
      · exact h'
      · rw [hst] at hnil
        simp at hnil
  · refine ⟨_, [], (List.append_nil _).symm, ?_, .inr (.inl ?_)⟩
    · rw [fresh_nil fun h => hc (hsock.symm.trans h)]
      exact ⟨by simp, rfl⟩
    · rw [writeProcess_eq]
      simp only [Function.update_self]
      refine ⟨?_, fun hn => hc hn.1.2⟩
      simp [asyncWriteProcess, CppProxy.frame]

/-- **The queues, while `connect_process` is at work.** -/
theorem queue_of_rule (h : Reconnecting d s) (hs : Shape s) (ho : OneReader s)
    (hC : ClearsQueues s e) (hr : Rule s e s') (hw : s'.AtWork) :
    ∃ l r, (s'.way d).storedData = l ++ r ∧ Frames r (s'.fresh d) ∧ (l = [] ∨ s'.Owed d) := by
  have hw' := hw
  obtain ⟨ho', j, hj, hup⟩ := hw
  have hopen : s.hasClosed = false := open_before_of_rule hr ho'
  have hguard := hC.2.2 hopen
  have hp' := (hs.step hr).connecting j hj
  cases hp : s.processConnecting with
  | false =>
    rw [if_neg (by simp [hp])] at hguard
    exact h.queue_of_start hs hguard hr hp hp' hw'
  | true =>
    rw [if_pos hp] at hguard
    by_cases hcon : ∃ j, e = .connect j
    · obtain ⟨j', rfl⟩ := hcon
      exact h.queue_of_connect hopen hp hguard hr ho'
    have hcon : ∀ j, e ≠ .connect j := fun j hj => hcon ⟨j, hj⟩
    obtain ⟨hj₀, hiff⟩ := connecting_of_rule hr hcon hp hp' hj
    have hsock : s'.proxyProcessSocket = .connected → s.proxyProcessSocket = .connected := by
      intro hc
      cases moves hr with
      | code hm => exact hm.socket hc
      | sent _ _ hs => exact hs
      | connect => exact absurd rfl (hcon _)
      | connected => cases hp'
    have hwork : s.AtWork := ⟨hopen, j, hj₀, fun hu => hsock (hup (hiff.2 hu))⟩
    by_cases hpay : ∃ bytes live, e = .read d (.data bytes) ∧ (s.way d).relay = .readProcess live
    · obtain ⟨bytes, live, rfl, hpc⟩ := hpay
      have hr' := hr
      cases hr with
      | gotDirect hpc' => rw [hpc] at hpc'; cases hpc'
      | gotProcess hpc' hposs =>
        exact h.queue_of_payload hwork hp hguard hr'
          (lt_of_le_of_lt hposs.2.1 (UInt32.toNat_lt _))
    have hsock' : s.proxyProcessSocket = .connected → s.connectors j = .connecting true := by
      intro hc
      rcases hj₀ with ⟨up, hj₀⟩ | hj₀
      · cases up with
        | true => exact hj₀
        | false => exact absurd hc (h.down j (.inl hj₀))
      · exact absurd hc (h.down j (.inr hj₀))
    have hfresh : s'.fresh d = s.fresh d := by
      by_cases hc : s.proxyProcessSocket = .connected
      · rw [fresh_eq hc, fresh_eq (hup (hiff.2 (hsock' hc)))]
        exact frames_of_rule hr hcon fun bytes he live hpc => hpay ⟨bytes, live, he, hpc⟩
      · rw [fresh_nil hc, fresh_nil fun h => hc (hsock h)]
    have howed : s.Owed d → s'.Owed d ∨ (s'.way d).storedData = [] :=
      owed_of_rule h.old hp hguard hr ho'
    obtain ⟨l, r, hq, hfr, hl⟩ := h.queue hwork
    have hst := (stored_of_rule hr d).1
    rw [hfresh]
    generalize hkept : (s'.way d).storedData = kept at hst howed
    cases hst with
    | keep =>
      refine ⟨l, r, hq, hfr, hl.elim .inl fun hl => (howed hl).elim .inr fun hnil => .inl ?_⟩
      exact (List.append_eq_nil_iff.1 (hq.symm.trans hnil)).1
    | store hpc => exact absurd ⟨_, _, rfl, hpc⟩ hpay
    | flushed hf =>
      refine ⟨[], [], rfl, ?_, .inl rfl⟩
      by_cases hc : s.proxyProcessSocket = .connected
      · rw [fresh_eq hc, ((hguard d).2 hc).1 (by rw [hf]; simp)]
        exact ⟨by simp, rfl⟩
      · rw [fresh_nil hc]
        exact ⟨by simp, rfl⟩
    | @released i count next w kept hpc =>
      have hserv : (s.readers i).pc.Serving := by rw [hpc]; trivial
      have hc : s.proxyProcessSocket ≠ .connected := fun hc =>
        ho.connecting j _ _ (hsock' hc) (ho.owns_of_serving hs hserv) rfl
      refine ⟨kept, [], (List.append_nil _).symm, ?_, ?_⟩
      · rw [fresh_nil hc]
        exact ⟨by simp, rfl⟩
      · refine (howed (.inr ⟨i, hs.reader_lt (by rw [hpc]; simp), ?_⟩)).symm
        rw [hpc]
        trivial

theorem step (h : Reconnecting d s) (hs : Shape s) (ho : OneReader s) (hC : ClearsQueues s e)
    (hr : Rule s e s') : Reconnecting d s' where
  old t w hw hl := (gen_le_of_rule h.old hr hw hl).trans (by
    rcases alive_of_rule hr with ⟨hc, -⟩ | hc <;> omega)
  down := h.down_of_rule hs hr
  counter := h.zeroed_of_rule (fun ho hp => by
    have := hC.2.2 ho
    rwa [if_pos hp] at this) hr
  queue := h.queue_of_rule hs ho hC hr

/-- **A connection is handed over with aligned queues.** -/
theorem realigned (h : Reconnecting d s) (hs : Shape s) (hC : ClearsQueues s e) :
    Realigned d s e := by
  cases e with
  | complete t =>
    cases t with
    | connector j =>
      intro hpc hc hn
      have ho : s.hasClosed = false := by
        by_contra hcl
        rw [hs.closed (by simpa using hcl)] at hc
        cases hc
      have hp := hs.connecting j (.inl ⟨_, hpc⟩)
      have hguard := hC.2.2 ho
      rw [if_pos hp] at hguard
      obtain ⟨l, r, hq, hfr, hl⟩ := h.queue ⟨ho, j, .inl ⟨_, hpc⟩, fun _ => hc⟩
      rw [fresh_eq hc] at hfr
      refine ⟨?_, ?_⟩
      · rcases h.counter with hcl | hn | hz
        · rw [ho] at hcl
          cases hcl
        · rw [hp] at hn
          cases hn
        · exact hz
      · -- a packet left over would still have to be flushed
        have hnil : l = [] := by
          rcases hl with hl | hl
          · exact hl
          · rcases ((hguard d).2 hc).2 hpc hn with hnil | hno
            · exact (List.append_eq_nil_iff.1 (hq.symm.trans hnil)).1
            · exact absurd hl hno
        rwa [hq, hnil, List.nil_append]
    | _ => trivial
  | _ => trivial

end Reconnecting

/-! ## Runs -/

/-- **Counters and queues stay aligned** with a truthful process, when no packet is left
    behind by a reconnect and nothing undefined happens. -/
theorem countsFrames_of_clearsQueues {c : Conf} {s : Session}
    (h : Reach Session.step (fun s e => Truthful s e ∧ ClearsQueues s e ∧ StaysDefined s e)
      (Session.init c) s) : s.undefined = false ∧ s.CountsFrames := by
  have hi : Counted s ∧ Defined s ∧ ∀ d, Reconnecting d s :=
    h.inv (I := fun s => Counted s ∧ Defined s ∧ ∀ d, Reconnecting d s)
      ⟨Counted.init c, Defined.init c, fun d => Reconnecting.init d c⟩ fun s e s' hI hC he =>
        have hr := rule_of_step he
        have hL : LeavesNothing s e :=
          ⟨hC.2.1.1, fun d => (hI.2.2 d).realigned hI.1.shape hC.2.1, hC.2.1.2.1⟩
        ⟨hI.1.step hC.1 hL hr, hI.2.1.step hI.1.shape hC.2.2 hr,
          fun d => (hI.2.2 d).step hI.1.shape hI.1.one hC.2.1 hr⟩
  exact ⟨hi.2.1.defined, hi.1.countsFrames⟩

/-- The process fails with a packet stored: the reader flushes it, and the next connection
    starts from zero. -/
theorem countsFrames_reconnected : ∃ s : Session, s.conns = 2 ∧
    (s.way .req).accepted = [1, 2] ∧ s.link.frames .req = [[3]] ∧ s.undefined = false ∧
      s.CountsFrames := by
  obtain ⟨s, hs, hp⟩ := exists_runIf Session.step
    (fun s e => Truthful s e ∧ ClearsQueues s e ∧ StaysDefined s e)
    (Session.init (localConf true))
    (firstUp ++ [.read .req (.data [2]), .push (.relay .req) 6, .complete (.relay .req),
      .fail (.reader 0), .push (.reader 0) 1, .complete (.reader 0), .connect 1,
      .complete (.connector 1), .push (.connector 1) 89, .complete (.connector 1),
      .read .req (.data [3]), .push (.relay .req) 6])
    (fun s => s.conns == 2 && (s.way .req).accepted == [1, 2] && s.link.frames .req == [[3]])
    (by decide +kernel)
  simp only [Bool.and_eq_true, beq_iff_eq] at hp
  exact ⟨s, hp.1.1, hp.1.2, hp.2, countsFrames_of_clearsQueues hs⟩

/-- The reader writes new data to a slow client; `client_request` fails to write, and
    flushes its own queue only: the packet of the server is still stored when the next
    connection comes up. -/
theorem not_countsFrames : ¬ ∀ (c : Conf) (s : Session),
    Reach Session.step Truthful (Session.init c) s → s.CountsFrames := by
  intro h
  obtain ⟨s, hs, hp⟩ := exists_runIf Session.step Truthful
    (Session.init (localConf false))
    (firstUp ++ [.read .res (.data [2]), .push (.relay .res) 1, .complete (.relay .res),
      .read .res (.data [3]), .push (.relay .res) 6, .complete (.relay .res),
      .respond 1 ⟨{ type := 1, act := 0, newDataLen := 1, handledTotalPkgLen := 0 }, [9], rfl⟩,
      .pull 0 16, .complete (.reader 0), .pull 0 1, .complete (.reader 0),
      .read .req (.data [4]), .fail (.relay .req), .push (.relay .req) 1, .complete (.relay .req),
      .connect 1, .complete (.connector 1)])
    (fun s => decide s.Steady && s.link.frames .res == [] && s.nReaders == 1 &&
      storedLen (s.way .res).storedData == 1 &&
      decide (∀ d, (s.readers 0).pc.releasing d = none)) (by decide +kernel)
  simp only [Bool.and_eq_true, beq_iff_eq, decide_eq_true_eq] at hp
  obtain ⟨⟨⟨⟨hu, hf⟩, hn⟩, hl⟩, hrel⟩ := hp
  have hshape : Shape s := hs.inv (Shape.init _) fun _ _ _ hs _ he => hs.step (rule_of_step he)
  have hsum := (h _ s hs hu (fun d i => ?_) .res).1
  · rw [hf, hl] at hsum
    simp at hsum
  · by_cases hi : i = 0
    · rw [hi]; exact hrel d
    · rw [hshape.readers i (by omega)]; rfl

end CppProxy
