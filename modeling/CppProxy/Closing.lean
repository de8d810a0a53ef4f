/-
  cpp_proxy — a closed session.

  After `grace_close` every coroutine is resumed a few more times at most: its
  operation fails, the error path flushes to a closed socket or spawns a
  `connect_process` that returns at once, and the next operation fails again.

  * `rank`: how often a coroutine can still be resumed in a closed session;
  * `Drains`: one coroutine goes on at a given rank, and no other one's rank grows;
  * `rank_of_rule`: a resumption lowers the rank of its coroutine;
  * `closed_drains`: a closed session stays closed, and drains.
-/
import CppProxy.Moves

namespace CppProxy

open Session Runs

/-! ## Ranks -/

/-- How many resumptions a relay of a closed session has left, at most. -/
def RelayPc.rank : RelayPc → ℕ
  | notify w => if w.io = .idle then 3 else 2
  | readDirect live => if live then 4 else 1
  | writeDirect _ | flush _ _ => 3
  | readProcess live => if live then 5 else 1
  | writeProcess w => if w.io = .idle then 5 else 4
  | done => 0

/-- How many resumptions a reader of a closed session has left, at most. -/
def ReaderPc.rank : ReaderPc → ℕ
  | readHead r | readBody _ r => if r.io = .idle then 4 else 1
  | writeNew _ _ _ _ => 3
  | release _ _ _ _ | flushServer _ _ => 2
  | flushClient _ _ => 1
  | done => 0

/-- How many resumptions a connector of a closed session has left, at most. -/
def ConnectorPc.rank : ConnectorPc → ℕ
  | connecting up => if up then 3 else 2
  | waiting => 1
  | fourTuple _ w => if w.io = .idle then 2 else 1
  | done => 0

/-- How many resumptions a detector of a closed session has left, at most. -/
def DetectorPc.rank : DetectorPc → ℕ
  | waiting _ .pending => 2
  | waiting _ _ => 1
  | done => 0

namespace Session

variable (s : Session)

/-- How often a coroutine can be resumed once the session is closed; a reader that is
    spawned later fails on its first read. -/
def rank : Tid → ℕ
  | .relay d => (s.way d).relay.rank
  | .reader i => if i < s.nReaders then (s.readers i).pc.rank else 1
  | .connector j => (s.connectors j).rank
  | .detector k => (s.detectors k).rank

/-- A coroutine has returned, or was not spawned. -/
def Returned : Tid → Prop
  | .relay d => (s.way d).relay = .done
  | .reader i => (s.readers i).pc = .done
  | .connector j => s.connectors j = .done
  | .detector k => s.detectors k = .done

/-- The three sockets are closed. -/
def SocketsClosed : Prop :=
  s.proxyClientOpen = false ∧ s.proxyServerOpen = false ∧ s.proxyProcessSocket = .closed

variable {s}

theorem rank_le (t : Tid) : s.rank t ≤ 5 := by
  cases t with
  | relay d => simp only [rank, RelayPc.rank]; split <;> (try split) <;> omega
  | reader i => simp only [rank, ReaderPc.rank]; split <;> (try split) <;> (try split) <;> omega
  | connector j => simp only [rank, ConnectorPc.rank]; split <;> (try split) <;> omega
  | detector k => simp only [rank, DetectorPc.rank]; split <;> omega

theorem graceClose_of_closed (hc : s.hasClosed = true) : s.graceClose = s := by
  unfold graceClose
  rw [if_pos hc]

/-- Every operation on the process socket fails. -/
theorem issued_of_closed (hs : Shape s) (hc : s.hasClosed = true) : s.issued = .dead := by
  simp [issued, hs.closed hc]

theorem noteRead_of_closed (hs : Shape s) (hc : s.hasClosed = true) (i : ℕ) : s.noteRead i = s :=
  noteRead_ind (P := fun s' => s' = s) (fun h => by rw [hs.closed hc] at h; cases h) fun _ => rfl

end Session

/-! ## What the functions of a closed session do -/

/-- The session is closed and no rank grows. -/
structure Quiets (s s' : Session) : Prop where
  closed : s'.hasClosed = true
  rank : ∀ t, s'.rank t ≤ s.rank t

/-- The session is closed, coroutine `t` goes on with rank `n` at most, and no other
    rank grows. -/
structure Drains (s s' : Session) (t : Tid) (n : ℕ) : Prop where
  closed : s'.hasClosed = true
  own : s'.rank t ≤ n
  other : ∀ t', t' ≠ t → s'.rank t' ≤ s.rank t'

theorem Quiets.drains {s s₁ s' : Session} {t : Tid} {n : ℕ} (h : Quiets s s₁)
    (h' : Drains s₁ s' t n) : Drains s s' t n :=
  ⟨h'.closed, h'.own, fun t' ht => (h'.other t' ht).trans (h.rank t')⟩

theorem Quiets.trans {s s₁ s' : Session} (h : Quiets s s₁) (h' : Quiets s₁ s') : Quiets s s' :=
  ⟨h'.closed, fun t => (h'.rank t).trans (h.rank t)⟩

namespace Drains

variable {s s' : Session}

theorem mono {t : Tid} {n m : ℕ} (h : Drains s s' t n) (hn : n ≤ m) : Drains s s' t m :=
  ⟨h.closed, h.own.trans hn, h.other⟩

theorem quiet (hc : s.hasClosed = true) (hh : s'.hasClosed = s.hasClosed) (hw : s'.way = s.way)
    (hr : s'.readers = s.readers) (hn : s'.nReaders = s.nReaders)
    (hj : ∀ j, (s'.connectors j).rank ≤ (s.connectors j).rank)
    (hk : ∀ k, (s'.detectors k).rank ≤ (s.detectors k).rank) : Quiets s s' := by
  refine ⟨hh.trans hc, fun t => ?_⟩
  cases t with
  | relay d => simp only [rank, hw]; exact le_rfl
  | reader i => simp only [rank, hr, hn]; exact le_rfl
  | connector j => exact hj j
  | detector k => exact hk k

theorem emit (hc : s.hasClosed = true) (a : Act) : Quiets s (s.emit a) :=
  quiet hc rfl rfl rfl rfl (fun _ => le_rfl) fun _ => le_rfl

theorem bypass (hc : s.hasClosed = true) (b : Bool) : Quiets s { s with bypass := b } :=
  quiet hc rfl rfl rfl rfl (fun _ => le_rfl) fun _ => le_rfl

theorem cancelTimer_rank (s : Session) (k : ℕ) :
    (s.cancelTimer.detectors k).rank ≤ (s.detectors k).rank := by
  simp only [Session.cancelTimer]
  split
  · rename_i h
    rw [h]
    exact Nat.le_succ 1
  · exact le_rfl

theorem cancelTimer (hc : s.hasClosed = true) : Quiets s s.cancelTimer :=
  quiet hc rfl rfl rfl rfl (fun _ => le_rfl) (cancelTimer_rank s)

theorem breakLink (hc : s.hasClosed = true) (w : LinkWrite) : Quiets s (s.breakLink w) :=
  breakLink_ind (fun _ => quiet hc rfl rfl rfl rfl (fun _ => le_rfl) fun _ => le_rfl)
    fun _ => ⟨hc, fun _ => le_rfl⟩

/-- `connect_process` of a closed session returns at once. -/
theorem connectProcess (hc : s.hasClosed = true) (gen : ℕ) : Quiets s (s.connectProcess gen) := by
  refine connectProcess_ind (fun _ => ⟨hc, fun _ => le_rfl⟩) fun _ => ⟨hc, fun t => ?_⟩
  cases t with
  | relay d => exact le_rfl
  | reader i => exact le_rfl
  | connector j =>
    by_cases hj : j = s.nConnectors
    · subst hj
      simp [rank, reconnecting, hc, ConnectorPc.rank]
    · simp [rank, reconnecting, hj]
  | detector k => exact cancelTimer_rank s k

theorem setWay (hc : s.hasClosed = true) (d : Dir) (w : Way) :
    Drains s (s.setWay d w) (.relay d) w.relay.rank := by
  refine ⟨hc, by simp [rank], fun t ht => ?_⟩
  cases t with
  | relay d' =>
    have hd : d' ≠ d := fun hd => ht (by rw [hd])
    simp [rank, hd]
  | _ => exact le_rfl

theorem setReader (hc : s.hasClosed = true) {i : ℕ} (hi : i < s.nReaders) (pc : ReaderPc) :
    Drains s (s.setReader i pc) (.reader i) pc.rank := by
  refine ⟨hc, ?_, fun t ht => ?_⟩
  · show (if i < s.nReaders then ((s.setReader i pc).readers i).pc.rank else 1) ≤ _
    rw [if_pos hi]
    simp
  · cases t with
    | reader i' =>
      have hi' : i' ≠ i := fun hi' => ht (by rw [hi'])
      simp only [rank, setReader_readers, Function.update_of_ne hi']
      exact le_rfl
    | _ => exact le_rfl

theorem setConnector (hc : s.hasClosed = true) (j : ℕ) (pc : ConnectorPc) :
    Drains s (s.setConnector j pc) (.connector j) pc.rank := by
  refine ⟨hc, by simp [rank, Session.setConnector], fun t ht => ?_⟩
  cases t with
  | connector j' =>
    have hj : j' ≠ j := fun hj => ht (by rw [hj])
    simp [rank, Session.setConnector, hj]
  | _ => exact le_rfl

theorem setDetector (hc : s.hasClosed = true) (k : ℕ) (pc : DetectorPc) :
    Drains s { s with detectors := Function.update s.detectors k pc } (.detector k) pc.rank := by
  refine ⟨hc, by simp [rank], fun t ht => ?_⟩
  cases t with
  | detector k' =>
    have hk : k' ≠ k := fun hk => ht (by rw [hk])
    simp [rank, hk]
  | _ => exact le_rfl

theorem relayLoop (hs : Shape s) (hc : s.hasClosed = true) (d : Dir) :
    Drains s (s.relayLoop d) (.relay d) 2 := by
  have hsrc : s.srcOpen d = false := by rw [hs.src, hc]; rfl
  refine relayLoop_ind (P := fun s' => Drains s s' _ _) (fun _ => ?_) (fun _ _ => ?_)
    (fun _ _ _ _ => ?_) fun _ _ _ => ?_
  · rw [graceClose_of_closed hc]
    exact (setWay hc d _).mono (Nat.zero_le 2)
  · refine (setWay hc d _).mono ?_
    simp [RelayPc.rank, hsrc]
  · refine (setWay hc d _).mono ?_
    simp [RelayPc.rank, asyncWriteProcess, issued_of_closed hs hc]
  · refine (setWay hc d _).mono ?_
    simp [RelayPc.rank, hsrc]

theorem relayReconnect (hs : Shape s) (hc : s.hasClosed = true) (d : Dir) (gen : ℕ) :
    Drains s (s.relayReconnect d gen) (.relay d) 2 :=
  (connectProcess hc gen).drains
    (relayLoop (hs.connectProcess gen) (connectProcess hc gen).closed d)

theorem relayFlush (hs : Shape s) (hc : s.hasClosed = true) (d : Dir) (gen : ℕ) :
    Drains s (s.relayFlush d gen) (.relay d) 3 := by
  have h₁ := bypass hc true
  refine relayFlush_ind (P := fun s' => Drains s s' _ _) (fun _ => ?_) fun _ => ?_
  · exact h₁.drains ((relayReconnect (hs.bypass true) h₁.closed d gen).mono (by omega))
  · have h₂ := h₁.trans (emit h₁.closed
      (.flush d (s.dstOpen d) (storedBytes (s.way d).storedData)))
    exact h₂.drains (setWay h₂.closed d _)

theorem readHead (hs : Shape s) (hc : s.hasClosed = true) {i : ℕ} (hi : i < s.nReaders) :
    Drains s (s.readHead i) (.reader i) 1 := by
  unfold Session.readHead
  rw [noteRead_of_closed hs hc]
  refine (setReader hc hi _).mono ?_
  simp [ReaderPc.rank, asyncReadProcess, issued_of_closed hs hc]

theorem readerReconnect (hc : s.hasClosed = true) {i : ℕ} (hi : i < s.nReaders) (gen : ℕ) :
    Drains s (s.readerReconnect i gen) (.reader i) 0 :=
  (connectProcess hc gen).drains (setReader (connectProcess hc gen).closed
    (connectProcess_ind (P := fun s' => i < s'.nReaders) (fun _ => hi) fun _ => hi) .done)

theorem readerFlushClient (hc : s.hasClosed = true) {i : ℕ} (hi : i < s.nReaders) (gen : ℕ) :
    Drains s (s.readerFlushClient i gen) (.reader i) 1 := by
  have h₁ := bypass hc true
  refine readerFlushClient_ind (P := fun s' => Drains s s' _ _) (fun _ => ?_) fun _ => ?_
  · exact h₁.drains ((readerReconnect h₁.closed hi gen).mono (by omega))
  · have h₂ := h₁.trans (emit h₁.closed
      (.flush .res (s.dstOpen .res) (storedBytes (s.way .res).storedData)))
    exact h₂.drains (setReader h₂.closed hi _)

theorem actOnHead (hc : s.hasClosed = true) {i : ℕ} (hi : i < s.nReaders) (d : Dir) (conn : ℕ)
    (head : ResponseHead) : Drains s (s.actOnHead i d conn head) (.reader i) 2 := by
  refine actOnHead_ind (P := fun s' => Drains s s' _ _) (fun _ => ?_) fun _ => ?_
  · rw [graceClose_of_closed hc]
    exact (setReader hc hi .done).mono (by simp [ReaderPc.rank])
  · refine ⟨hc, ?_, fun t ht => ?_⟩
    · show (if i < s.nReaders then _ else 1) ≤ 2
      rw [if_pos hi]
      simp [Session.releasing, ReaderPc.rank]
    · cases t with
      | relay d' =>
        by_cases hd : d' = d
        · subst hd; simp [rank, Session.releasing]
        · simp [rank, Session.releasing, hd]
      | reader i' =>
        have hi' : i' ≠ i := fun hi' => ht (by rw [hi'])
        simp [rank, Session.releasing, hi']
      | _ => exact le_rfl

theorem dispatch (hs : Shape s) (hc : s.hasClosed = true) {i : ℕ} (hi : i < s.nReaders) (conn : ℕ)
    (head : ResponseHead) (buf : List Byte) :
    Drains s (s.dispatch i conn head buf) (.reader i) 3 := by
  have h₁ := emit hc (.response i head)
  have hs₁ := hs.emit (.response i head)
  refine dispatch_ind (P := fun s' => Drains s s' _ _)
    (fun d _ => innerProxy_ind (P := fun s' => Drains s s' _ _) (fun _ => ?_) fun _ => ?_) ?_ ?_
  · have h₂ := h₁.trans (emit h₁.closed (.newData d (s.dstOpen d) buf))
    exact h₂.drains (setReader h₂.closed hi _)
  · exact h₁.drains ((actOnHead h₁.closed hi d conn head).mono (by omega))
  · have h₂ := h₁.trans (cancelTimer h₁.closed)
    exact h₂.drains ((readHead hs₁.cancelTimer h₂.closed hi).mono (by omega))
  · exact h₁.drains ((readHead hs₁ h₁.closed hi).mono (by omega))

theorem clearReleased (hs : Shape s) (hc : s.hasClosed = true) {i : ℕ} (hi : i < s.nReaders)
    (d : Dir) (count : ℕ) (next : Int32) :
    Drains s (s.clearReleased i d count next) (.reader i) 1 := by
  refine clearReleased_ind (P := fun s' => Drains s s' _ _) (fun stored _ => ?_) fun _ => ?_
  · have h₁ : Quiets s (s.setStored d stored) := by
      refine ⟨hc, fun t => ?_⟩
      cases t with
      | relay d' => by_cases hd : d' = d <;> simp [rank, setStored, hd]
      | _ => exact le_rfl
    exact h₁.drains (readHead (hs.setWay d _) hc hi)
  · have h₁ : Quiets s { s with undefined := true } :=
      quiet hc rfl rfl rfl rfl (fun _ => le_rfl) fun _ => le_rfl
    exact h₁.drains (readHead (s := { s with undefined := true })
      (hs.congr rfl rfl rfl rfl rfl rfl rfl rfl rfl) hc hi)

theorem spawning (hc : s.hasClosed = true) (j conn : ℕ) :
    Drains s (s.spawning j conn) (.connector j) 0 ∧ s.nReaders < (s.spawning j conn).nReaders := by
  refine ⟨⟨hc, by simp [rank, Session.spawning, ConnectorPc.rank], fun t ht => ?_⟩,
    Nat.lt_succ_self _⟩
  cases t with
  | reader i =>
    by_cases hi : i = s.nReaders
    · subst hi
      simp [rank, Session.spawning, ReaderPc.rank]
    · simp only [rank, Session.spawning, Function.update_of_ne hi]
      by_cases hlt : i < s.nReaders
      · rw [if_pos hlt, if_pos (by omega)]
      · rw [if_neg hlt, if_neg (by omega)]
  | connector j' =>
    have hj : j' ≠ j := fun hj => ht (by rw [hj])
    simp [rank, Session.spawning, hj]
  | _ => exact le_rfl

/-- `detect_process_timeout` returns at once. -/
theorem detectLoop (hc : s.hasClosed = true) (k conn : ℕ) :
    Drains s (s.detectLoop k conn) (.detector k) 0 := by
  unfold Session.detectLoop
  rw [if_neg (by simp [hc])]
  exact setDetector hc k .done

/-- The reader and the detector that are spawned fail and return. -/
theorem superviseProcess (hs : Shape s) (hc : s.hasClosed = true) {j : ℕ} (conn : ℕ)
    (hj : j < s.nConnectors) : Drains s (s.superviseProcess j conn) (.connector j) 0 := by
  obtain ⟨h₁, hi⟩ := spawning hc j conn
  have h₂ := readHead (hs.spawning conn hj) h₁.closed hi
  let s₂ := (s.spawning j conn).readHead s.nReaders
  have h₃ := detectLoop (s := { s₂ with nDetectors := s₂.nDetectors + 1 }) h₂.closed
    s₂.nDetectors conn
  have hrank : ∀ t, t ≠ .detector s₂.nDetectors → (s.superviseProcess j conn).rank t ≤ s₂.rank t :=
    h₃.other
  refine ⟨h₃.closed, ?_, fun t ht => ?_⟩
  · exact ((hrank _ (by simp)).trans (h₂.other _ (by simp))).trans h₁.own
  · by_cases hd : t = .detector s₂.nDetectors
    · rw [hd]
      exact h₃.own.trans (Nat.zero_le _)
    · refine (hrank t hd).trans ?_
      by_cases hr : t = .reader s.nReaders
      · rw [hr]
        exact h₂.own.trans (by simp [rank])
      · exact (h₂.other t hr).trans (h₁.other t ht)

end Drains

/-! ## The steps -/

/-- **A resumption of a coroutine lowers its rank**, and no step of a closed session
    raises one. -/
theorem rank_of_rule {s s' : Session} {e : Event} (hs : Shape s) (hc : s.hasClosed = true)
    (hr : Rule s e s') :
    s'.hasClosed = true ∧ ∀ t, s'.rank t + (if e.Resumes t then 1 else 0) ≤ s.rank t := by
  have hown : ∀ {s' : Session} {t : Tid} {n : ℕ} {e : Event}, Drains s s' t n → n < s.rank t →
      (∀ t', e.Resumes t' → t = t') →
        s'.hasClosed = true ∧ ∀ t, s'.rank t + (if e.Resumes t then 1 else 0) ≤ s.rank t := by
    intro s' t n e h hn he
    refine ⟨h.closed, fun t' => ?_⟩
    by_cases ht : t' = t
    · have := h.own
      subst ht
      split <;> omega
    · rw [if_neg fun hre => ht (he t' hre).symm]
      exact h.other t' ht
  have hsock := hs.closed hc
  have hdst : ∀ d, s.dstOpen d = false := fun d => by rw [hs.dst, hc]; rfl
  have hdead := issued_of_closed hs hc
  have hreader : ∀ {i}, (s.readers i).pc ≠ .done → i < s.nReaders ∧
      s.rank (.reader i) = (s.readers i).pc.rank := fun hi =>
    ⟨hs.reader_lt hi, if_pos (hs.reader_lt hi)⟩
  have hrelay : ∀ d, s.rank (.relay d) = (s.way d).relay.rank := fun _ => rfl
  cases hr with
  | @gotDirect d live bytes hpc hp =>
    have hd := Drains.setWay hc d { s.way d with
      received := (s.way d).received ++ bytes
      relay := .writeDirect (s.asyncWrite d bytes) }
    rw [writeDirect_eq]
    refine hown (t := .relay d) (n := 3) ⟨hc, hd.own, hd.other⟩ ?_ fun t ht => ht
    rw [hrelay, hpc, hp.1]
    decide
  | @gotProcess d live bytes hpc hp =>
    have hd := Drains.setWay hc d { s.way d with
      received := (s.way d).received ++ bytes
      storedData := (s.way d).storedData ++ [Packet.ofData bytes]
      block := (s.way d).block.map fun b => b.updateAvailable (UInt32.ofNat bytes.length + 5)
      relay := .writeProcess (s.asyncWriteProcess (frame d.dataType bytes)) }
    rw [writeProcess_eq]
    refine hown (t := .relay d) (n := 4) ⟨hc, hd.own.trans ?_, hd.other⟩ ?_ fun t ht => ht
    · simp [RelayPc.rank, asyncWriteProcess, hdead]
    · rw [hrelay, hpc, hp.1]
      decide
  | @readEof d live hpc hl =>
    rw [relayEof_eq, graceClose_of_closed (s := { s with eof := true, trace := _ }) hc]
    have hd := Drains.setWay hc d { s.way d with relay := .done }
    refine hown (t := .relay d) (n := 0) ⟨hc, hd.own, hd.other⟩ ?_ fun t ht => ht
    subst hl
    rcases hpc with hpc | hpc <;> rw [hrelay, hpc] <;> simp [RelayPc.rank]
  | @readError d live hpc =>
    rw [relayClose, graceClose_of_closed hc]
    refine hown (Drains.setWay hc d _) ?_ fun t ht => ht
    rcases hpc with hpc | hpc <;> rw [hrelay, hpc] <;> cases live <;> simp [RelayPc.rank]
  | pushPeer _ _ ho => rw [hdst] at ho; cases ho
  | pushLink _ _ _ hc' => rw [hsock] at hc'; cases hc'
  | pull _ _ _ hc' => rw [hsock] at hc'; cases hc'
  | @issueWrite t w hw hi =>
    cases t with
    | relay d =>
      refine hown (Drains.setWay hc d _) ?_ fun t ht => ht
      simp only [linkWrite] at hw
      rw [hrelay]
      cases hpc : (s.way d).relay <;> rw [hpc] at hw <;> cases hw <;>
        simp [RelayPc.setLinkWrite, RelayPc.rank, hi, hdead]
    | connector j =>
      refine hown (Drains.setConnector hc j _) ?_ fun t ht => ht
      simp only [linkWrite] at hw
      show _ < (s.connectors j).rank
      cases hpc : s.connectors j <;> rw [hpc] at hw <;> cases hw
      simp [ConnectorPc.setLinkWrite, ConnectorPc.rank, hi, hdead]
    | reader i => cases hw
    | detector k => cases hw
  | @issueRead i r hr hi =>
    have hne : (s.readers i).pc ≠ .done := fun hd => by rw [linkRead, hd] at hr; cases hr
    rw [noteRead_of_closed hs hc]
    refine hown (Drains.setReader hc (hreader hne).1 _) ?_ fun t ht => ht
    rw [(hreader hne).2]
    simp only [linkRead] at hr
    cases hpc : (s.readers i).pc <;> rw [hpc] at hr <;> cases hr <;>
      simp [ReaderPc.setLinkRead, ReaderPc.rank, hi, hdead]
  | @notified d w hpc hf =>
    have hsrc : s.srcOpen d = false := by rw [hs.src, hc]; rfl
    refine hown (Drains.setWay hc d _) ?_ fun t ht => ht
    rw [hrelay, hpc]
    simp [RelayPc.rank, hsrc, hf.1]
  | @notifyFailed d w hpc hf =>
    have hsrc : (s.breakLink w).srcOpen d = false := by
      rw [(hs.breakLink w).src, breakLink_hasClosed, hc]; rfl
    have hb := Drains.breakLink hc w
    refine hown (hb.drains (Drains.setWay hb.closed d _)) ?_ fun t ht => ht
    rw [hrelay, hpc]
    simp only [RelayPc.rank, hsrc, if_neg (show w.io ≠ .idle from hf)]
    decide
  | @wroteDirect d w hpc =>
    refine hown (Drains.relayLoop hs hc d) ?_ fun t ht => ht
    rw [hrelay, hpc]
    exact Nat.lt_succ_self 2
  | @wroteProcess d w hpc hf =>
    refine hown (Drains.relayLoop hs hc d) ?_ fun t ht => ht
    rw [hrelay, hpc]
    simp [RelayPc.rank, hf.1]
  | @processFailed d w hpc hf =>
    have hb := Drains.breakLink hc w
    refine hown (hb.drains (Drains.relayFlush (hs.breakLink w) hb.closed d _)) ?_ fun t ht => ht
    rw [hrelay, hpc]
    simp only [RelayPc.rank, if_neg (show w.io ≠ .idle from hf)]
    exact Nat.lt_succ_self 3
  | @relayFlushed d gen w hpc =>
    have hq : Quiets s (s.clearFlushed d w) := by
      refine ⟨hc, fun t => ?_⟩
      cases t with
      | relay d' => by_cases hd : d' = d <;> simp [rank, Session.clearFlushed, setStored, hd]
      | _ => exact le_rfl
    refine hown (hq.drains (Drains.relayReconnect (hs.clearFlushed d w) hq.closed d gen)) ?_
      fun t ht => ht
    rw [hrelay, hpc]
    exact Nat.lt_succ_self 2
  | @relayWriteFailed d w hpc =>
    rw [relayClose, graceClose_of_closed hc]
    refine hown (Drains.setWay hc d _) ?_ fun t ht => ht
    rw [hrelay]
    cases h : (s.way d).relay <;> rw [h] at hpc <;> cases hpc <;> simp [RelayPc.rank]
  | @gotHead i r hpc hf =>
    have hi := hreader (i := i) (by rw [hpc]; simp)
    rw [readBody, noteRead_of_closed hs hc]
    refine hown (Drains.setReader hc hi.1 _) ?_ fun t ht => ht
    rw [hi.2, hpc]
    simp [ReaderPc.rank, asyncReadProcess, hdead, hf.1]
  | @gotHeadOnly i r hpc hf =>
    have hi := hreader (i := i) (by rw [hpc]; simp)
    refine hown (Drains.dispatch hs hc hi.1 _ _ _) ?_ fun t ht => ht
    rw [hi.2, hpc]
    simp [ReaderPc.rank, hf.1]
  | @gotBody i head r hpc hf =>
    have hi := hreader (i := i) (by rw [hpc]; simp)
    refine hown (Drains.dispatch hs hc hi.1 _ _ _) ?_ fun t ht => ht
    rw [hi.2, hpc]
    simp [ReaderPc.rank, hf.1]
  | @readFailed i r hr hf =>
    have hne : (s.readers i).pc ≠ .done := fun hd => by rw [linkRead, hd] at hr; cases hr
    rw [readerFailed, if_pos hc]
    refine hown (Drains.setReader hc (hreader hne).1 _) ?_ fun t ht => ht
    rw [(hreader hne).2]
    simp only [linkRead] at hr
    cases hpc : (s.readers i).pc <;> rw [hpc] at hr <;> cases hr <;>
      simp [ReaderPc.rank, show r.io ≠ .idle from hf]
  | @wroteNew i d conn head w hpc =>
    have hi := hreader (i := i) (by rw [hpc]; simp)
    refine hown (Drains.actOnHead hc hi.1 d conn head) ?_ fun t ht => ht
    rw [hi.2, hpc]
    exact Nat.lt_succ_self 2
  | @released i d count next w hpc =>
    have hi := hreader (i := i) (by rw [hpc]; simp)
    refine hown (Drains.clearReleased hs hc hi.1 d count next) ?_ fun t ht => ht
    rw [hi.2, hpc]
    exact Nat.lt_succ_self 1
  | @readerWriteFailed i d w hpc =>
    have hi := hreader (i := i) (by rcases hpc with ⟨_, _, hpc⟩ | ⟨_, _, hpc⟩ <;> simp [hpc])
    rw [graceClose_of_closed hc]
    refine hown (Drains.setReader hc hi.1 _) ?_ fun t ht => ht
    rw [hi.2]
    rcases hpc with ⟨_, _, hpc⟩ | ⟨_, _, hpc⟩ <;> rw [hpc] <;> simp [ReaderPc.rank]
  | @flushedServer i gen w hpc =>
    have hi := hreader (i := i) (by rw [hpc]; simp)
    have hq : Quiets s (s.clearFlushed .req w) := by
      refine ⟨hc, fun t => ?_⟩
      cases t with
      | relay d' => by_cases hd : d' = .req <;> simp [rank, Session.clearFlushed, setStored, hd]
      | _ => exact le_rfl
    refine hown (hq.drains (Drains.readerFlushClient hq.closed hi.1 gen)) ?_ fun t ht => ht
    rw [hi.2, hpc]
    exact Nat.lt_succ_self 1
  | @flushServerFailed i gen w hpc =>
    have hi := hreader (i := i) (by rw [hpc]; simp)
    rw [graceClose_of_closed hc]
    refine hown (Drains.readerFlushClient hc hi.1 gen) ?_ fun t ht => ht
    rw [hi.2, hpc]
    exact Nat.lt_succ_self 1
  | @flushedClient i gen w hpc =>
    have hi := hreader (i := i) (by rw [hpc]; simp)
    have hq : Quiets s (s.clearFlushed .res w) := by
      refine ⟨hc, fun t => ?_⟩
      cases t with
      | relay d' => by_cases hd : d' = .res <;> simp [rank, Session.clearFlushed, setStored, hd]
      | _ => exact le_rfl
    refine hown (hq.drains (Drains.readerReconnect hq.closed hi.1 gen)) ?_ fun t ht => ht
    rw [hi.2, hpc]
    exact Nat.lt_succ_self 0
  | @flushClientFailed i gen w hpc =>
    have hi := hreader (i := i) (by rw [hpc]; simp)
    rw [graceClose_of_closed hc]
    refine hown (Drains.readerReconnect hc hi.1 gen) ?_ fun t ht => ht
    rw [hi.2, hpc]
    exact Nat.lt_succ_self 0
  | @connected j hpc =>
    have h₁ := Drains.bypass hc false
    have hd := Drains.setConnector (s := { s with bypass := false, processConnecting := false })
      hc j (.fourTuple s.conns (s.asyncWriteProcess (frame .fourTuple s.fourTuple)))
    refine hown (t := .connector j) (n := 1) ⟨hc, hd.own.trans ?_, hd.other⟩ ?_ fun t ht => ht
    · simp [ConnectorPc.rank, asyncWriteProcess, hdead]
    · show _ < (s.connectors j).rank
      rw [hpc]
      decide
  | @connectFailed j hpc =>
    refine hown (Drains.setConnector hc j _) ?_ fun t ht => ht
    show _ < (s.connectors j).rank
    rw [hpc]
    decide
  | @retry j hpc =>
    rw [connectLoop, if_pos hc]
    refine hown (Drains.setConnector hc j _) ?_ fun t ht => ht
    show _ < (s.connectors j).rank
    rw [hpc]
    decide
  | @wroteTuple j conn w hpc hf =>
    refine hown (Drains.superviseProcess hs hc conn (hs.connector_lt (by rw [hpc]; simp))) ?_
      fun t ht => ht
    show _ < (s.connectors j).rank
    rw [hpc]
    simp [ConnectorPc.rank, hf.1]
  | @tupleFailed j conn w hpc hf =>
    have hb := Drains.breakLink hc w
    refine hown (hb.drains (Drains.setConnector hb.closed j .done)) ?_ fun t ht => ht
    show _ < (s.connectors j).rank
    rw [hpc]
    simp [ConnectorPc.rank, show w.io ≠ .idle from hf]
  | @timedOut k conn hpc =>
    have hd := Drains.setDetector hc k .done
    refine hown (t := .detector k) (n := 0) ⟨hc, hd.own, hd.other⟩ ?_ fun t ht => ht
    show _ < (s.detectors k).rank
    rw [hpc]
    exact Nat.zero_lt_one
  | @rearm k conn hpc =>
    refine hown (Drains.detectLoop hc k conn) ?_ fun t ht => ht
    show _ < (s.detectors k).rank
    rw [hpc]
    exact Nat.zero_lt_one
  | connect _ hc' => rw [hsock] at hc'; cases hc'
  | @expire k conn hpc =>
    refine hown (Drains.setDetector hc k (.waiting conn .fired)) ?_ fun t ht => ht
    show _ < (s.detectors k).rank
    rw [hpc]
    exact Nat.lt_succ_self 1
  | respond => exact ⟨hc, fun t => by cases t <;> exact le_rfl⟩

/-! ## Reads fit their buffers -/

/-- A read of the process has not got more than it wants. -/
def ReaderPc.Fits (pc : ReaderPc) : Prop := ∀ r, pc.linkRead = some r → r.got.length ≤ r.want

/-- No read of the process has got more than it wants. -/
structure ReadsFit (s : Session) : Prop where
  fits : ∀ i, (s.readers i).pc.Fits

theorem ReaderPc.fits_of_none {pc : ReaderPc} (h : pc.linkRead = none) : pc.Fits := by
  intro r hr
  rw [h] at hr
  cases hr

theorem ReaderPc.fits_start {pc : ReaderPc} {r : LinkRead} (h : pc.linkRead = some r)
    (hg : r.got = []) : pc.Fits := by
  intro r' hr
  rw [h] at hr
  cases hr
  rw [hg]
  exact Nat.zero_le _

namespace ReadsFit

variable {s s' : Session}

theorem same (h : ReadsFit s) (hr : s'.readers = s.readers) : ReadsFit s' := by
  refine ⟨fun i => ?_⟩
  rw [hr]
  exact h.fits i

theorem setReader (h : ReadsFit s) (i : ℕ) {pc : ReaderPc} (hp : pc.Fits) :
    ReadsFit (s.setReader i pc) := by
  refine ⟨fun i' => ?_⟩
  by_cases hi : i' = i
  · subst hi
    simpa using hp
  · simpa [hi] using h.fits i'

/-- A read that starts has got nothing. -/
theorem edit {t : Tid} (h : ReadsFit s) (he : Edit s t s') : ReadsFit s' := by
  cases he with
  | readerDone => exact h.setReader _ (ReaderPc.fits_of_none rfl)
  | readHead | readBody => exact h.setReader _ (ReaderPc.fits_start rfl rfl)
  | @issueRead i r hr hi hw =>
    refine h.setReader i fun r' hr' => ?_
    simp only [linkRead] at hr
    cases hpc : (s.readers i).pc <;> rw [hpc] at hr hr' <;> cases hr <;> cases hr' <;> exact hw.le
  | @writeNew i r d head buf =>
    exact setReader (s := s.emit (.newData d (s.dstOpen d) buf)) (h.same rfl) i
      (ReaderPc.fits_of_none rfl)
  | flushServer | flushClient =>
    exact setReader (s := s.emit (.flush _ _ _)) (h.same rfl) _ (ReaderPc.fits_of_none rfl)
  | @spawn j conn =>
    refine setReader (s := s.spawning j conn) ⟨fun i => ?_⟩ _ (ReaderPc.fits_start rfl rfl)
    by_cases hi : i = s.nReaders
    · subst hi
      simpa [Session.spawning] using ReaderPc.fits_of_none rfl
    · simpa [Session.spawning, hi] using h.fits i
  | @issueWrite t => cases t <;> exact h.same rfl
  | _ => exact h.same rfl

theorem init (c : Conf) : ReadsFit (Session.init c) := ⟨fun _ => ReaderPc.fits_of_none rfl⟩

theorem step (h : ReadsFit s) {e : Event} (hr : Rule s e s') : ReadsFit s' := by
  have hcode : ∀ {t} {x : Session}, x.readers = s.readers → Edits t x s' → ReadsFit s' :=
    fun hx he => he.inv (P := ReadsFit) (fun _ _ hx he => hx.edit he) (h.same hx)
  cases updated_of_rule hr with
  | code _ _ he | readEof he | overrun _ _ he | flushed _ _ he | cleared _ _ he =>
    exact hcode (by rfl) he
  | gotDirect => rw [writeDirect_eq]; exact h.same rfl
  | gotProcess => rw [writeProcess_eq]; exact h.same rfl
  | @pushPeer t k d w hw =>
    cases t with
    | reader i =>
      refine setReader (s := s.accept d _) (h.same rfl) i fun r hr => h.fits i r ?_
      change (((s.readers i).pc.setPeerWrite _).linkRead = some r) at hr
      cases hpc : (s.readers i).pc <;> rw [hpc] at hr <;> exact hr
    | _ => exact h.same rfl
  | @pushLink t k w hw => cases t <;> exact h.same rfl
  | @pull i k r hread hg hk =>
    refine setReader (s := s.setLink _) (h.same rfl) i fun r' hr' => ?_
    change ((s.readers i).pc.setLinkRead _).linkRead = some r' at hr'
    have hle := h.fits i r hread
    simp only [linkRead] at hread
    cases hpc : (s.readers i).pc <;> rw [hpc] at hread hr' <;> cases hread <;> cases hr' <;>
      (simp only [List.length_append, List.length_take]; omega)
  | @release i d conn head s₁ _ h₁ _ he =>
    obtain ⟨-, rfl⟩ := he
    have hs₁ : s₁.readers = s.readers := by rcases h₁ with rfl | rfl <;> rfl
    exact same (s := s₁.setReader i (.release d _ _ _))
      ((h.same hs₁).setReader i (ReaderPc.fits_of_none rfl)) rfl
  | connected | connect | respond => exact h.same rfl

end ReadsFit

/-! ## Every coroutine goes on -/

/-- An event that resumes `t` can happen. -/
def Session.CanResume (s : Session) (t : Tid) : Prop := ∃ e : Event, e.Resumes t ∧ (s.step e).isSome

namespace Session

variable {s : Session}

/-- A write to a peer fails, or is done. -/
theorem peerWrite_ends (w : PeerWrite) : w.Finished ∨ w.CanFail := by
  unfold PeerWrite.Finished PeerWrite.CanFail
  cases w.live <;> by_cases hr : w.rest = [] <;> simp [hr]

/-- A write to the process fails, is done, or issues its next part. -/
theorem linkWrite_ends (w : LinkWrite) : w.Finished ∨ w.CanFail ∨ w.io = .idle ∧ w.rest ≠ [] := by
  unfold LinkWrite.Finished LinkWrite.CanFail
  by_cases hi : w.io = .idle <;> by_cases hr : w.rest = [] <;> simp [hi, hr]

theorem linkRead_ends {r : LinkRead} (hf : r.got.length ≤ r.want) :
    r.Finished ∨ r.CanFail ∨ r.io = .idle ∧ r.got.length < r.want := by
  unfold LinkRead.Finished LinkRead.CanFail
  by_cases hi : r.io = .idle
  · rcases Nat.lt_or_eq_of_le hf with h | h <;> simp [hi, h]
  · simp [hi]

/-- A read of a relay ends: it fails if the socket is closed or there is room, and
    otherwise returns nothing. -/
theorem readResult_possible (live : Bool) (room : ℕ) : ∃ r : ReadResult, r.Possible live room := by
  by_cases h : live = false ∨ room ≠ 0
  · exact ⟨.error, h⟩
  · simp only [not_or, Bool.not_eq_false, not_not] at h
    exact ⟨.data [], h.1, by simp, by simp [h.2]⟩

theorem canResume_relay {d : Dir} (h : (s.way d).relay ≠ .done) : s.CanResume (.relay d) := by
  have hread : ∀ r, (s.onRead d r).isSome → s.CanResume (.relay d) := fun r hr =>
    ⟨.read d r, rfl, hr⟩
  have hcomplete : (s.onComplete (.relay d)).isSome → s.CanResume (.relay d) := fun hr =>
    ⟨.complete (.relay d), rfl, hr⟩
  have hfail : (s.onFail (.relay d)).isSome → s.CanResume (.relay d) := fun hr =>
    ⟨.fail (.relay d), rfl, hr⟩
  have hissue : (s.onIssue (.relay d)).isSome → s.CanResume (.relay d) := fun hr =>
    ⟨.issue (.relay d), rfl, hr⟩
  cases hpc : (s.way d).relay with
  | notify w | writeProcess w =>
    rcases linkWrite_ends w with hw | hw | hw
    · exact hcomplete (by simp [onComplete, hpc, hw])
    · exact hfail (by simp [onFail, hpc, hw])
    · exact hissue (by simp [onIssue, linkWrite, RelayPc.linkWrite, hpc, hw])
  | readDirect live =>
    obtain ⟨r, hr⟩ := readResult_possible live s.connBufSize
    refine hread r ?_
    simp only [onRead, hpc, if_pos hr]
    cases r <;> rfl
  | readProcess live =>
    obtain ⟨r, hr⟩ := readResult_possible live (s.room d)
    refine hread r ?_
    simp only [onRead, hpc, if_pos hr]
    cases r <;> rfl
  | writeDirect w | flush _ w =>
    rcases peerWrite_ends w with hw | hw
    · exact hcomplete (by simp [onComplete, hpc, hw])
    · exact hfail (by simp [onFail, hpc, hw])
  | done => exact absurd hpc h

theorem canResume_reader {i : ℕ} (hfit : ReadsFit s) (h : (s.readers i).pc ≠ .done) :
    s.CanResume (.reader i) := by
  have hcomplete : (s.onComplete (.reader i)).isSome → s.CanResume (.reader i) := fun hr =>
    ⟨.complete (.reader i), rfl, hr⟩
  have hfail : (s.onFail (.reader i)).isSome → s.CanResume (.reader i) := fun hr =>
    ⟨.fail (.reader i), rfl, hr⟩
  have hissue : (s.onIssue (.reader i)).isSome → s.CanResume (.reader i) := fun hr =>
    ⟨.issue (.reader i), rfl, hr⟩
  cases hpc : (s.readers i).pc with
  | readHead r =>
    rcases linkRead_ends (hfit.fits i r (by rw [hpc]; rfl)) with hr | hr | hr
    · exact hcomplete (by simp only [onComplete, hpc, if_pos hr]; split <;> rfl)
    · exact hfail (by simp [onFail, hpc, hr])
    · exact hissue (by simp [onIssue, linkWrite, linkRead, ReaderPc.linkRead, hpc, hr])
  | readBody head r =>
    rcases linkRead_ends (hfit.fits i r (by rw [hpc]; rfl)) with hr | hr | hr
    · exact hcomplete (by simp [onComplete, hpc, hr])
    · exact hfail (by simp [onFail, hpc, hr])
    · exact hissue (by simp [onIssue, linkWrite, linkRead, ReaderPc.linkRead, hpc, hr])
  | writeNew d conn head w =>
    rcases peerWrite_ends w with hw | hw
    · exact hcomplete (by simp [onComplete, hpc, hw])
    · exact hfail (by simp [onFail, hpc, hw])
  | release d count next w =>
    rcases peerWrite_ends w with hw | hw
    · exact hcomplete (by simp [onComplete, hpc, hw])
    · exact hfail (by simp [onFail, hpc, hw])
  | flushServer gen w | flushClient gen w =>
    rcases peerWrite_ends w with hw | hw
    · exact hcomplete (by simp [onComplete, hpc, hw])
    · exact hfail (by simp [onFail, hpc, hw])
  | done => exact absurd hpc h

theorem canResume_connector {j : ℕ} (h : s.connectors j ≠ .done) : s.CanResume (.connector j) := by
  have hcomplete : (s.onComplete (.connector j)).isSome → s.CanResume (.connector j) := fun hr =>
    ⟨.complete (.connector j), rfl, hr⟩
  have hfail : (s.onFail (.connector j)).isSome → s.CanResume (.connector j) := fun hr =>
    ⟨.fail (.connector j), rfl, hr⟩
  have hissue : (s.onIssue (.connector j)).isSome → s.CanResume (.connector j) := fun hr =>
    ⟨.issue (.connector j), rfl, hr⟩
  cases hpc : s.connectors j with
  | connecting up =>
    cases up with
    | true => exact hcomplete (by simp [onComplete, hpc])
    | false => exact hfail (by simp [onFail, hpc])
  | waiting => exact hcomplete (by simp [onComplete, hpc])
  | fourTuple conn w =>
    rcases linkWrite_ends w with hw | hw | hw
    · exact hcomplete (by simp [onComplete, hpc, hw])
    · exact hfail (by simp [onFail, hpc, hw])
    · exact hissue (by simp [onIssue, linkWrite, ConnectorPc.linkWrite, hpc, hw])
  | done => exact absurd hpc h

/-- A coroutine that has not returned can be resumed. -/
theorem canResume (hfit : ReadsFit s) {t : Tid} (h : ¬ s.Returned t) : s.CanResume t := by
  cases t with
  | relay d => exact canResume_relay h
  | reader i => exact canResume_reader hfit h
  | connector j => exact canResume_connector h
  | detector k =>
    cases hpc : s.detectors k with
    | waiting conn w =>
      cases w with
      | pending => exact ⟨.expire k, rfl, by simp [step, onExpire, hpc]⟩
      | fired => exact ⟨.complete (.detector k), rfl, by simp [step, onComplete, hpc]⟩
      | cancelled => exact ⟨.complete (.detector k), rfl, by simp [step, onComplete, hpc]⟩
    | done => exact absurd hpc h

end Session

/-! ## Whole runs -/

/-- How often coroutine `t` is resumed by the events. -/
def resumptions (t : Tid) (es : List Event) : ℕ := es.countP fun e => decide (e.Resumes t)

/-- From a closed session on, every step keeps it closed, and the resumptions of a
    coroutine are paid for by its rank. -/
theorem closed_run {es : List Event} : ∀ {s s' : Session}, Shape s → s.hasClosed = true →
    run Session.step s es = some s' →
      Shape s' ∧ s'.hasClosed = true ∧ ∀ t, s'.rank t + resumptions t es ≤ s.rank t := by
  induction es with
  | nil =>
    intro s s' hs hc h
    cases h
    exact ⟨hs, hc, fun t => le_rfl⟩
  | cons e es ih =>
    intro s s' hs hc h
    obtain ⟨s₁, h₁, h⟩ := Option.bind_eq_some_iff.1 h
    have hrule := rule_of_step h₁
    obtain ⟨hc₁, hrank⟩ := rank_of_rule hs hc hrule
    obtain ⟨hs', hc', hrun⟩ := ih (hs.step hrule) hc₁ h
    refine ⟨hs', hc', fun t => ?_⟩
    have h1 := hrank t
    have h2 := hrun t
    simp only [resumptions, List.countP_cons, decide_eq_true_eq] at h2 ⊢
    omega

/-- **Closing is final and drains the session**: after `grace_close` no socket opens
    again, each coroutine is resumed five times at most, and one that has not
    returned can be resumed. -/
theorem closed_drains {c : Conf} {s s' : Session} {es : List Event}
    (h : Reach Session.step (fun _ _ => True) (Session.init c) s) (hc : s.hasClosed = true)
    (hrun : run Session.step s es = some s') :
    s'.hasClosed = true ∧ s'.SocketsClosed ∧
      ∀ t, resumptions t es ≤ 5 ∧ (s'.Returned t ∨ s'.CanResume t) := by
  have hi : Shape s ∧ ReadsFit s := h.inv (I := fun s => Shape s ∧ ReadsFit s)
    ⟨Shape.init c, ReadsFit.init c⟩ fun _ _ _ hs _ he =>
      ⟨hs.1.step (rule_of_step he), hs.2.step (rule_of_step he)⟩
  obtain ⟨hs', hc', hrank⟩ := closed_run hi.1 hc hrun
  have hfit' : ReadsFit s' := (reach_run (C := fun _ _ => True) (fun _ _ _ => trivial) hrun).inv
    hi.2 fun _ _ _ hs _ he => hs.step (rule_of_step he)
  refine ⟨hc', ⟨?_, ?_, hs'.closed hc'⟩, fun t => ⟨?_, ?_⟩⟩
  · rw [hs'.client, hc']; rfl
  · rw [hs'.server, hc']; rfl
  · have := hrank t
    have := s.rank_le t
    omega
  · by_cases hr : s'.Returned t
    · exact .inl hr
    · exact .inr (canResume hfit' hr)

/-- The client ends its stream while `connect_process` is connecting: every coroutine
    returns. -/
theorem closed_drains_connecting : ∃ s s' : Session, s.hasClosed = true ∧
    s.connectors 0 = .connecting false ∧ s'.connectors 0 = .done ∧ s'.SocketsClosed := by
  obtain ⟨s, hs, hp⟩ := exists_run Session.step (fun _ _ => True)
    (Session.init (localConf true)) ([.read .req .eof])
    (fun s => s.hasClosed && (s.connectors 0 == .connecting false) &&
      (run Session.step s [.read .res .error, .fail (.connector 0), .complete (.connector 0)]).any
        fun s' => s'.connectors 0 == .done)
    (fun _ _ _ => trivial) (by decide +kernel)
  simp only [Bool.and_eq_true, beq_iff_eq, Option.any_eq_true] at hp
  obtain ⟨⟨hc, hj⟩, s', hrun, hj'⟩ := hp
  exact ⟨s, s', hc, hj, hj', (closed_drains hs hc hrun).2.1⟩

end CppProxy
