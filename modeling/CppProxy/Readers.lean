/-
  cpp_proxy — the readers of a connection.

  A reader is bound to the member `proxy_process_socket_`, not to the connection
  it was spawned for: if it is between two reads when the socket is replaced, it
  reads on from the next connection, which gets a reader of its own.

  * `Serving`, `Sending`: a reader between two reads, a four tuple being sent
    with no part of it outstanding;
  * `Owns`: the coroutine that reads, or is going to spawn the reader, of a
    connection;
  * `OneReader`: every connection has one owner, and only owners read;
  * `oneReaderEach_of_vacant`: it holds if every owner of an older connection is
    gone or waits on its socket when the kernel connects the next one.
-/
import CppProxy.Shape

namespace CppProxy

open Session Runs

/-- A reader that reads next without having waited on its connection. -/
def ReaderPc.Serving : ReaderPc → Prop
  | readHead r | readBody _ r => r.io = .idle
  | writeNew _ _ _ _ | release _ _ _ _ => True
  | _ => False

/-- A connector that goes on without having waited on its connection. -/
def ConnectorPc.Sending : ConnectorPc → Prop
  | fourTuple _ w => w.io = .idle
  | _ => False

instance : ∀ pc : ReaderPc, Decidable pc.Serving
  | .readHead _ | .readBody _ _ => inferInstanceAs (Decidable (_ = _))
  | .writeNew _ _ _ _ | .release _ _ _ _ => inferInstanceAs (Decidable True)
  | .flushServer _ _ | .flushClient _ _ | .done => inferInstanceAs (Decidable False)

instance : ∀ pc : ConnectorPc, Decidable pc.Sending
  | .fourTuple _ _ => inferInstanceAs (Decidable (_ = _))
  | .connecting _ | .waiting | .done => inferInstanceAs (Decidable False)

/-- When the kernel connects the socket, no reader is between two reads and no
    four tuple is partly sent. -/
def Vacant (s : Session) : Event → Prop
  | .connect _ => (∀ i < s.nReaders, ¬ (s.readers i).pc.Serving) ∧
      ∀ j < s.nConnectors, ¬ (s.connectors j).Sending
  | _ => True

instance (s : Session) : ∀ e, Decidable (Vacant s e)
  | .connect _ => inferInstanceAs (Decidable (_ ∧ _))
  | .read _ _ | .push _ _ | .pull _ _ | .issue _ | .complete _ | .fail _ | .expire _
  | .respond _ _ => inferInstanceAs (Decidable True)

/-- At most one reader reads from each connection. -/
def Session.OneReaderEach (s : Session) : Prop :=
  ∀ g i i', i ∈ (s.links g).readers → i' ∈ (s.links g).readers → i = i'

/-- The reader of connection `g`, or the connector that spawns it. -/
def Session.Owns (s : Session) (g : ℕ) : Tid → Prop
  | .reader i => i < s.nReaders ∧ (s.readers i).home = g
  | .connector j => ∃ w, s.connectors j = .fourTuple g w
  | _ => False

/-- Each connection has one owner, which is the only one that reads from it. -/
structure OneReader (s : Session) : Prop where
  read : ∀ g i, i ∈ (s.links g).readers → s.Owns g (.reader i)
  unique : ∀ g t t', s.Owns g t → s.Owns g t' → t = t'
  le : ∀ g t, s.Owns g t → g ≤ s.conns
  connecting : ∀ j g t, s.connectors j = .connecting true → s.Owns g t → g ≠ s.conns
  serving : ∀ i, (s.readers i).pc.Serving → (s.readers i).home = s.conns
  reading : ∀ i r, s.linkRead i = some r → r.io = .live → r.gen = (s.readers i).home
  sending : ∀ j conn w, s.connectors j = .fourTuple conn w →
    (w.io = .idle → conn = s.conns) ∧ (w.io = .live → w.gen = conn)

theorem ReaderPc.serving_setPeerWrite {pc : ReaderPc} {w : PeerWrite} :
    (pc.setPeerWrite w).Serving ↔ pc.Serving := by
  cases pc <;> rfl

theorem ReaderPc.linkRead_setPeerWrite {pc : ReaderPc} {w : PeerWrite} :
    (pc.setPeerWrite w).linkRead = pc.linkRead := by
  cases pc <;> rfl

theorem ReaderPc.serving_of_linkRead {pc : ReaderPc} {r : LinkRead} (h : pc.linkRead = some r) :
    pc.Serving ↔ r.io = .idle := by
  cases pc <;> cases h <;> rfl

/-- A reader that goes on keeps its connection. -/
theorem home_setReader (s : Session) (i i' : ℕ) (pc : ReaderPc) :
    ((s.setReader i pc).readers i').home = (s.readers i').home := by
  by_cases hi : i' = i
  · subst hi; simp
  · simp [hi]

theorem owns_setReader {s : Session} {i g : ℕ} {q : ReaderPc} {t : Tid} :
    (s.setReader i q).Owns g t ↔ s.Owns g t := by
  cases t with
  | reader i' => simp only [Owns, home_setReader]; rfl
  | _ => rfl

namespace OneReader

variable {s s' : Session}

/-! ## The functions -/

theorem congr (h : OneReader s) (hl : ∀ g, (s'.links g).readers = (s.links g).readers)
    (hr : s'.readers = s.readers) (hn : s'.nReaders = s.nReaders) (hc : s'.conns = s.conns)
    (hj : ∀ j, s'.connectors j = s.connectors j ∨
      s'.connectors j ≠ .connecting true ∧ ∀ conn w, s'.connectors j ≠ .fourTuple conn w) :
    OneReader s' := by
  have hsend : ∀ j conn w, s'.connectors j = .fourTuple conn w →
      s.connectors j = .fourTuple conn w := by
    intro j conn w hw
    rcases hj j with hj | ⟨-, hj⟩
    · rwa [hj] at hw
    · exact absurd hw (hj conn w)
  have hread : ∀ g i, s'.Owns g (.reader i) ↔ s.Owns g (.reader i) := by
    intro g i; simp only [Owns, hr, hn]
  have howns : ∀ g t, s'.Owns g t → s.Owns g t := by
    intro g t ht
    cases t with
    | reader i => exact (hread g i).1 ht
    | connector j => obtain ⟨w, hw⟩ := ht; exact ⟨w, hsend j g w hw⟩
    | relay d => exact ht
    | detector k => exact ht
  exact {
    read := fun g i hi => (hread g i).2 (h.read g i (by rwa [hl] at hi))
    unique := fun g t t' ht ht' => h.unique g t t' (howns g t ht) (howns g t' ht')
    le := fun g t ht => hc ▸ h.le g t (howns g t ht)
    connecting := fun j g t hj' ht => by
      rcases hj j with hj | ⟨hj, -⟩
      · rw [hc]; exact h.connecting j g t (hj ▸ hj') (howns g t ht)
      · exact absurd hj' hj
    serving := fun i hi => by rw [hr, hc]; exact h.serving i (by rwa [hr] at hi)
    reading := fun i r hi hio => by
      rw [hr]; exact h.reading i r (by unfold linkRead at hi ⊢; rwa [hr] at hi) hio
    sending := fun j conn w hw => hc ▸ h.sending j conn w (hsend j conn w hw) }

/-- Nothing that `OneReader` reads changes. -/
theorem same {x : Session} (h : OneReader s) (hl : x.links = s.links) (hr : x.readers = s.readers)
    (hn : x.nReaders = s.nReaders) (hc : x.conns = s.conns)
    (hj : x.connectors = s.connectors) : OneReader x :=
  h.congr (fun _ => by rw [hl]) hr hn hc fun j => .inl (by rw [hj])

theorem setWay (h : OneReader s) (d : Dir) (w : Way) : OneReader (s.setWay d w) :=
  h.same rfl rfl rfl rfl rfl

theorem emit (h : OneReader s) (a : Act) : OneReader (s.emit a) := h.same rfl rfl rfl rfl rfl

theorem bypass (h : OneReader s) (b : Bool) : OneReader { s with bypass := b } :=
  h.same rfl rfl rfl rfl rfl

theorem cancelTimer (h : OneReader s) : OneReader s.cancelTimer := h.same rfl rfl rfl rfl rfl

theorem graceClose (h : OneReader s) : OneReader s.graceClose :=
  graceClose_ind (fun _ => h) fun _ => h.same rfl rfl rfl rfl rfl

/-- A reader goes on: it stays between reads only on its own connection. -/
theorem setReader (h : OneReader s) {i : ℕ} {q : ReaderPc}
    (hs : q.Serving → (s.readers i).home = s.conns)
    (hr : ∀ r, q.linkRead = some r → r.io = .live → r.gen = (s.readers i).home) :
    OneReader (s.setReader i q) := by
  exact {
    read := fun g i' hi' => owns_setReader.2 (h.read g i' hi')
    unique := fun g t t' ht ht' =>
      h.unique g t t' (owns_setReader.1 ht) (owns_setReader.1 ht')
    le := fun g t ht => h.le g t (owns_setReader.1 ht)
    connecting := fun j g t hj ht => h.connecting j g t hj (owns_setReader.1 ht)
    serving := fun i' hi' => by
      rw [home_setReader]
      by_cases hi : i' = i
      · subst hi; exact hs (by simpa using hi')
      · exact h.serving i' (by simpa [hi] using hi')
    reading := fun i' r hi' hio => by
      rw [home_setReader]
      unfold linkRead at hi'
      by_cases hi : i' = i
      · subst hi; exact hr r (by simpa using hi') hio
      · exact h.reading i' r (by simpa [hi, linkRead] using hi') hio
    sending := h.sending }

theorem done (h : OneReader s) (i : ℕ) : OneReader (s.setReader i .done) :=
  h.setReader (fun hs => hs.elim) (by simp [ReaderPc.linkRead])

/-- A connector that goes on does not begin to own a connection. -/
theorem setConnector (h : OneReader s) {j : ℕ} {q : ConnectorPc} (hc : q ≠ .connecting true)
    (ht : ∀ conn w, q = .fourTuple conn w →
      (∃ w', s.connectors j = .fourTuple conn w') ∧ (w.io = .idle → conn = s.conns) ∧
        (w.io = .live → w.gen = conn)) : OneReader (s.setConnector j q) := by
  have hset : ∀ j', (s.setConnector j q).connectors j' =
      if j' = j then q else s.connectors j' := by
    intro j'; simp [Session.setConnector, Function.update_apply]
  have howns : ∀ g t, (s.setConnector j q).Owns g t → s.Owns g t := by
    intro g t hg
    cases t with
    | connector j' =>
      obtain ⟨w, hw⟩ := hg
      rw [hset] at hw
      split at hw
      · subst j'; exact (ht g w hw).1
      · exact ⟨w, hw⟩
    | _ => exact hg
  exact {
    read := h.read
    unique := fun g t t' hg hg' => h.unique g t t' (howns g t hg) (howns g t' hg')
    le := fun g t hg => h.le g t (howns g t hg)
    connecting := fun j' g t hj hg => by
      rw [hset] at hj
      split at hj
      · exact absurd hj hc
      · exact h.connecting j' g t hj (howns g t hg)
    serving := h.serving
    reading := h.reading
    sending := fun j' conn w hw => by
      rw [hset] at hw
      split at hw
      · exact (ht conn w hw).2
      · exact h.sending j' conn w hw }

/-- A reader may be recorded on the current connection if it owns it. -/
theorem noteRead (h : OneReader s) {i : ℕ} (hi : s.Owns s.conns (.reader i)) :
    OneReader (s.noteRead i) := by
  refine noteRead_ind (fun _ => ?_) fun _ => h
  refine { h with read := fun g i' hi' => ?_ }
  by_cases hg : g = s.conns
  · subst hg
    simp only [setLink, Function.update_self, List.mem_cons] at hi'
    rcases hi' with rfl | hi'
    · exact hi
    · exact h.read _ i' hi'
  · simp only [setLink, Function.update_of_ne hg] at hi'
    exact h.read g i' hi'

theorem readHead (h : OneReader s) {i : ℕ} (hi : s.Owns s.conns (.reader i)) :
    OneReader (s.readHead i) := by
  refine (h.noteRead hi).setReader (fun _ => by simpa using hi.2) fun r hr _ => ?_
  cases hr
  simpa [asyncReadProcess] using hi.2.symm

theorem readBody (h : OneReader s) {i : ℕ} (head : ResponseHead)
    (hi : s.Owns s.conns (.reader i)) : OneReader (s.readBody i head) := by
  refine (h.noteRead hi).setReader (fun _ => by simpa using hi.2) fun r hr _ => ?_
  cases hr
  simpa [asyncReadProcess] using hi.2.symm

theorem connectProcess (h : OneReader s) (gen : ℕ) : OneReader (s.connectProcess gen) := by
  refine connectProcess_ind (fun _ => h) fun _ => h.congr (fun _ => rfl) rfl rfl rfl fun j => ?_
  by_cases hj : j = s.nConnectors
  · subst hj
    right
    simp only [reconnecting, Function.update_self]
    split <;> simp
  · left; simp [reconnecting, hj]

theorem relayLoop (h : OneReader s) (d : Dir) : OneReader (s.relayLoop d) :=
  relayLoop_ind (fun _ => h.graceClose.setWay d _) (fun _ _ => h.setWay d _)
    (fun _ _ _ _ => h.setWay d _) fun _ _ _ => h.setWay d _

theorem relayReconnect (h : OneReader s) (d : Dir) (gen : ℕ) :
    OneReader (s.relayReconnect d gen) :=
  (h.connectProcess gen).relayLoop d

theorem relayFlush (h : OneReader s) (d : Dir) (gen : ℕ) : OneReader (s.relayFlush d gen) :=
  relayFlush_ind (fun _ => (h.bypass true).relayReconnect d gen)
    fun _ => ((h.bypass true).emit _).setWay d _

theorem readerReconnect (h : OneReader s) (i gen : ℕ) : OneReader (s.readerReconnect i gen) :=
  (h.connectProcess gen).done i

theorem readerFlushClient (h : OneReader s) (i gen : ℕ) : OneReader (s.readerFlushClient i gen) :=
  readerFlushClient_ind (fun _ => (h.bypass true).readerReconnect i gen)
    fun _ => ((h.bypass true).emit _).setReader (fun hs => hs.elim) (by simp [ReaderPc.linkRead])

theorem readerFlushServer (h : OneReader s) (i gen : ℕ) : OneReader (s.readerFlushServer i gen) :=
  readerFlushServer_ind (fun _ => (h.bypass true).readerFlushClient i gen)
    fun _ => ((h.bypass true).emit _).setReader (fun hs => hs.elim) (by simp [ReaderPc.linkRead])

theorem clearFlushed (h : OneReader s) (d : Dir) (w : PeerWrite) :
    OneReader (s.clearFlushed d w) := (h.emit _).setWay d _

theorem breakLink (h : OneReader s) (w : LinkWrite) : OneReader (s.breakLink w) :=
  breakLink_ind (fun _ => h.congr (fun g => by by_cases hg : g = w.gen <;> simp [hg]) rfl rfl rfl
    fun _ => .inl rfl) fun _ => h

theorem setLink (h : OneReader s) {l : Link} (hl : l.readers = s.link.readers) :
    OneReader (s.setLink l) :=
  h.congr (fun g => by by_cases hg : g = s.conns <;> simp [Session.setLink, hg, hl, link])
    rfl rfl rfl fun _ => .inl rfl

theorem setPeerWrite (h : OneReader s) (w : PeerWrite) (t : Tid) :
    OneReader (s.setPeerWrite w t) := by
  cases t with
  | relay d => exact h.setWay d _
  | reader i =>
    exact h.setReader (fun hs => h.serving i (ReaderPc.serving_setPeerWrite.1 hs))
      fun r hr => h.reading i r (by rwa [ReaderPc.linkRead_setPeerWrite] at hr)
  | connector j => exact h
  | detector k => exact h

theorem setLinkWrite (h : OneReader s) {w v : LinkWrite} {t : Tid} (hw : s.linkWrite t = some v)
    (hc : ∀ j conn, t = .connector j → s.connectors j = .fourTuple conn v →
      (w.io = .idle → conn = s.conns) ∧ (w.io = .live → w.gen = conn)) :
    OneReader (s.setLinkWrite w t) := by
  cases t with
  | relay d => exact h.setWay d _
  | connector j =>
    cases hj : s.connectors j with
    | fourTuple conn w₀ =>
      simp only [linkWrite, hj, ConnectorPc.linkWrite, Option.some.injEq] at hw
      subst hw
      refine h.setConnector (by simp [hj, ConnectorPc.setLinkWrite]) fun conn' w'' hpc => ?_
      simp only [hj, ConnectorPc.setLinkWrite, ConnectorPc.fourTuple.injEq] at hpc
      obtain ⟨rfl, rfl⟩ := hpc
      exact ⟨⟨_, hj⟩, hc j conn rfl hj⟩
    | _ => simp [linkWrite, hj, ConnectorPc.linkWrite] at hw
  | reader i => exact h
  | detector k => exact h

theorem setLinkRead (h : OneReader s) {i : ℕ} {r : LinkRead}
    (hi : (s.readers i).home = s.conns) (hr : r.io = .live → r.gen = s.conns) :
    OneReader (s.setLinkRead i r) := by
  refine h.setReader (fun _ => hi) fun r' hr' hio => ?_
  rw [hi]
  cases hpc : (s.readers i).pc with
  | readHead => rw [hpc] at hr'; cases hr'; exact hr hio
  | readBody => rw [hpc] at hr'; cases hr'; exact hr hio
  | _ => rw [hpc] at hr'; cases hr'

theorem actOnHead (h : OneReader s) {i : ℕ} (d : Dir) (conn : ℕ) (head : ResponseHead)
    (hi : s.Owns s.conns (.reader i)) : OneReader (s.actOnHead i d conn head) :=
  actOnHead_ind (fun _ => h.graceClose.done i) fun _ =>
    (h.setReader (i := i) (q := .release d _ _ _) (fun _ => hi.2)
      (by simp [ReaderPc.linkRead])).same rfl rfl rfl rfl rfl

theorem dispatch (h : OneReader s) {i : ℕ} (conn : ℕ) (head : ResponseHead) (buf : List Byte)
    (hi : s.Owns s.conns (.reader i)) : OneReader (s.dispatch i conn head buf) :=
  dispatch_ind
    (fun d _ => innerProxy_ind
      (fun _ => ((h.emit _).emit _).setReader (fun _ => hi.2) (by simp [ReaderPc.linkRead]))
      fun _ => (h.emit _).actOnHead d conn head hi)
    ((h.emit _).cancelTimer.readHead hi) ((h.emit _).readHead hi)

theorem detectLoop (h : OneReader s) (k conn : ℕ) : OneReader (s.detectLoop k conn) := by
  obtain ⟨ds, hd⟩ := s.detectLoop_detectors k conn
  rw [hd]
  exact h.same rfl rfl rfl rfl rfl

/-- Once connector `j` has spawned the reader of connection `conn`, the reader
    owns it in its place. -/
theorem owns_spawning {j conn g : ℕ} {t : Tid} (ht : (s.spawning j conn).Owns g t) :
    t = .reader s.nReaders ∧ g = conn ∨
      t ≠ .reader s.nReaders ∧ t ≠ .connector j ∧ s.Owns g t := by
  cases t with
  | reader i =>
    obtain ⟨hi, hg⟩ := ht
    change i < s.nReaders + 1 at hi
    change (Function.update s.readers s.nReaders { home := conn, pc := .done } i).home = g at hg
    by_cases hin : i = s.nReaders
    · subst hin; simp only [Function.update_self] at hg; exact .inl ⟨rfl, hg.symm⟩
    · simp only [Function.update_of_ne hin] at hg
      exact .inr ⟨by simpa using hin, by simp, by omega, hg⟩
  | connector j' =>
    obtain ⟨w', hw'⟩ := ht
    change Function.update s.connectors j .done j' = _ at hw'
    by_cases hjj : j' = j
    · subst hjj; simp at hw'
    · simp only [Function.update_of_ne hjj] at hw'
      exact .inr ⟨by simp, by simpa using hjj, w', hw'⟩
  | relay d => exact ht.elim
  | detector k => exact ht.elim

theorem spawning (h : OneReader s) {j conn : ℕ} {w : LinkWrite}
    (hj : s.connectors j = .fourTuple conn w) (hc : conn = s.conns) :
    OneReader (s.spawning j conn) := by
  have hown : s.Owns conn (.connector j) := ⟨w, hj⟩
  have h₁ := h.setConnector (j := j) (q := .done) (by simp) (by simp)
  have hr : ∀ i, i ≠ s.nReaders → (s.spawning j conn).readers i = s.readers i := by
    intro i hi
    simp [Session.spawning, hi]
  exact {
    read := fun g i hi => by
      obtain ⟨hlt, hg⟩ := h.read g i hi
      exact ⟨Nat.lt_succ_of_lt hlt, by rw [hr i hlt.ne]; exact hg⟩
    unique := fun g t t' ht ht' => by
      rcases owns_spawning ht with ⟨rfl, hg⟩ | ⟨-, hne, ho⟩ <;>
        rcases owns_spawning ht' with ⟨rfl, hg'⟩ | ⟨-, hne', ho'⟩
      · rfl
      · exact absurd (h.unique g t' _ ho' (hg ▸ hown)) hne'
      · exact absurd (h.unique g t _ ho (hg' ▸ hown)) hne
      · exact h.unique g t t' ho ho'
    le := fun g t ht => by
      rcases owns_spawning ht with ⟨-, rfl⟩ | ⟨-, -, ho⟩
      · exact hc.le
      · exact h.le g t ho
    connecting := fun j' g t hj' ht => by
      have hjj : j' ≠ j := by rintro rfl; simp [Session.spawning] at hj'
      simp only [Session.spawning, Function.update_of_ne hjj] at hj'
      rcases owns_spawning ht with ⟨-, rfl⟩ | ⟨-, -, ho⟩
      · exact absurd hc (h.connecting j' g _ hj' hown)
      · exact h.connecting j' g t hj' ho
    serving := fun i hi => by
      by_cases hin : i = s.nReaders
      · subst hin; simp [Session.spawning, ReaderPc.Serving] at hi
      · rw [hr i hin] at hi ⊢
        exact h.serving i hi
    reading := fun i r hl hio => by
      unfold linkRead at hl
      by_cases hin : i = s.nReaders
      · subst hin; simp [Session.spawning, ReaderPc.linkRead] at hl
      · rw [hr i hin] at hl ⊢
        exact h.reading i r hl hio
    sending := h₁.sending }

/-- The connector of connection `conn` hands it over to the reader it spawns. -/
theorem superviseProcess (h : OneReader s) {j conn : ℕ} {w : LinkWrite}
    (hj : s.connectors j = .fourTuple conn w) (hc : conn = s.conns) :
    OneReader (s.superviseProcess j conn) := by
  obtain ⟨ds, n, hd⟩ := s.superviseProcess_detectors j conn
  rw [hd]
  refine ((h.spawning hj hc).readHead (i := s.nReaders) ?_).same rfl rfl rfl rfl rfl
  exact ⟨Nat.lt_succ_self _, by simp [Session.spawning, hc]⟩

/-! ## The steps -/

theorem init (c : Conf) : OneReader (Session.init c) :=
  ((OneReader.connectProcess
    { read := by simp
      unique := fun g t t' ht => by cases t <;> simp [Owns] at ht
      le := fun g t ht => by cases t <;> simp [Owns] at ht
      connecting := by simp
      serving := by simp [ReaderPc.Serving]
      reading := by simp [linkRead, ReaderPc.linkRead]
      sending := by simp } 0).relayLoop .req).relayLoop .res

/-- A reader between two reads owns the current connection. -/
theorem owns_of_serving (h : OneReader s) (hs : Shape s) {i : ℕ}
    (hi : (s.readers i).pc.Serving) : s.Owns s.conns (.reader i) :=
  ⟨hs.reader_lt fun hd => by rw [hd] at hi; exact hi, h.serving i hi⟩

theorem step (h : OneReader s) (hs : Shape s) {e : Event} (hC : Vacant s e) (hr : Rule s e s') :
    OneReader s' := by
  cases hr with
  | @gotDirect d => rw [writeDirect_eq]; exact h.same rfl rfl rfl rfl rfl
  | @gotProcess d live bytes =>
    rw [writeProcess_eq]
    refine h.congr (fun g => ?_) rfl rfl rfl fun _ => .inl rfl
    simp only [framed]
    split
    · by_cases hg : g = s.conns <;> simp [hg, link]
    · rfl
  | @readEof d =>
    rw [relayEof_eq]
    exact (h.same (x := { s with eof := true, trace := _ }) rfl rfl rfl rfl rfl).graceClose.setWay
      d _
  | @readError d => exact h.graceClose.setWay d _
  | @pushPeer t k d w => exact (h.setWay d _).setPeerWrite _ t
  | @pushLink t k w hw hi hg =>
    have h₁ : OneReader (s.sendLink w k) :=
      h.setLink rfl
    refine h₁.setLinkWrite (v := w) (by cases t <;> exact hw) fun j conn ht hj => ?_
    have := (h.sending j conn w hj).2 hi
    exact ⟨fun _ => this ▸ hg, fun hl => by cases hl⟩
  | @pull i k r hr hi hg =>
    have h₁ : OneReader (s.setLink { s.link with inbound := s.link.inbound.drop k }) :=
      h.setLink rfl
    exact h₁.setLinkRead ((h.reading i r hr hi).symm.trans hg) fun hl => by cases hl
  | @issueWrite t w hw hi =>
    refine h.setLinkWrite hw fun j conn ht hj => ?_
    have := (h.sending j conn w hj).1 hi
    exact ⟨fun _ => this, fun _ => this.symm⟩
  | @issueRead i r hr hi =>
    have ho := h.owns_of_serving hs ((ReaderPc.serving_of_linkRead hr).2 hi)
    exact (h.noteRead ho).setLinkRead (by simpa using ho.2) fun _ => (noteRead_conns s i).symm
  | @notified d => exact h.setWay d _
  | @notifyFailed d w => exact (h.breakLink w).setWay d _
  | @wroteDirect d => exact h.relayLoop d
  | @wroteProcess d => exact h.relayLoop d
  | @processFailed d w => exact (h.breakLink w).relayFlush d _
  | @relayFlushed d gen w => exact (h.clearFlushed d w).relayReconnect d gen
  | @relayWriteFailed d => exact h.graceClose.setWay d _
  | @gotHead i r hpc hf =>
    exact h.readBody _ (h.owns_of_serving hs (by rw [hpc]; exact hf.1))
  | @gotHeadOnly i r hpc hf =>
    exact h.dispatch _ _ _ (h.owns_of_serving hs (by rw [hpc]; exact hf.1))
  | @gotBody i head r hpc hf =>
    exact h.dispatch _ _ _ (h.owns_of_serving hs (by rw [hpc]; exact hf.1))
  | @readFailed i r =>
    exact readerFailed_ind (fun _ => h.done i) fun _ => h.readerFlushServer i _
  | @wroteNew i d conn head w hpc =>
    exact h.actOnHead d conn head (h.owns_of_serving hs (by rw [hpc]; trivial))
  | @released i d count next w hpc =>
    have ho := h.owns_of_serving (i := i) hs (by rw [hpc]; trivial)
    exact clearReleased_ind (fun _ _ => (h.setWay d _).readHead ho)
      fun _ => (h.same (x := { s with undefined := true }) rfl rfl rfl rfl rfl).readHead ho
  | @readerWriteFailed i => exact h.graceClose.done i
  | flushedServer => exact (h.clearFlushed _ _).readerFlushClient _ _
  | flushServerFailed => exact h.graceClose.readerFlushClient _ _
  | flushedClient => exact (h.clearFlushed _ _).readerReconnect _ _
  | flushClientFailed => exact h.graceClose.readerReconnect _ _
  | @connected j hpc =>
    -- no coroutine owns the new connection yet
    have hno : ∀ t, ¬ s.Owns s.conns t := fun t ht => h.connecting j _ t hpc ht rfl
    have hset : ∀ j', (s.fourTuple2process j).connectors j' = if j' = j then
        .fourTuple s.conns (s.asyncWriteProcess (CppProxy.frame .fourTuple s.fourTuple))
        else s.connectors j' := by
      intro j'; simp only [fourTuple2process, Session.setConnector, Function.update_apply]; rfl
    have howns : ∀ g t, (s.fourTuple2process j).Owns g t →
        t = .connector j ∧ g = s.conns ∨ g ≠ s.conns ∧ s.Owns g t := by
      intro g t ht
      have hkeep : s.Owns g t → t = .connector j ∧ g = s.conns ∨ g ≠ s.conns ∧ s.Owns g t :=
        fun ht => .inr ⟨by rintro rfl; exact hno t ht, ht⟩
      cases t with
      | connector j' =>
        obtain ⟨w, hw⟩ := ht
        rw [hset] at hw
        split at hw
        · cases hw; subst j'; exact .inl ⟨rfl, rfl⟩
        · exact hkeep ⟨w, hw⟩
      | reader i => exact hkeep ht
      | relay d => exact ht.elim
      | detector k => exact ht.elim
    exact {
      read := h.read
      unique := fun g t t' ht ht' => by
        rcases howns g t ht with ⟨rfl, rfl⟩ | ⟨hg, ht⟩ <;>
          rcases howns _ t' ht' with ⟨rfl, hg'⟩ | ⟨hg', ht'⟩
        · rfl
        · exact absurd rfl hg'
        · exact absurd hg' hg
        · exact h.unique g t t' ht ht'
      le := fun g t ht => by
        rcases howns g t ht with ⟨-, rfl⟩ | ⟨-, ht⟩
        · exact le_rfl
        · exact h.le g t ht
      connecting := fun j' g t hj' ht => by
        have hjj : j' ≠ j := by rintro rfl; simp [hset] at hj'
        rw [hset, if_neg hjj] at hj'
        exact absurd (hs.unique j' j (.inl ⟨_, hj'⟩) (.inl ⟨_, hpc⟩)) hjj
      serving := h.serving
      reading := h.reading
      sending := fun j' conn w hw => by
        rw [hset] at hw
        split at hw
        · cases hw; exact ⟨fun _ => rfl, fun _ => rfl⟩
        · exact h.sending j' conn w hw }
  | connectFailed => exact h.setConnector (by simp) (by simp)
  | retry =>
    exact connectLoop_ind (fun _ => h.setConnector (by simp) (by simp))
      fun _ => (h.setConnector (q := .connecting false) (by simp) (by simp)).same
        rfl rfl rfl rfl rfl
  | @wroteTuple j conn w hpc hf =>
    exact h.superviseProcess hpc ((h.sending j conn w hpc).1 hf.1)
  | @tupleFailed j conn w => exact (h.breakLink w).setConnector (by simp) (by simp)
  | timedOut => exact h.same rfl rfl rfl rfl rfl
  | rearm => exact h.detectLoop _ _
  | @connect j hpc =>
    obtain ⟨hserv, hsend⟩ := hC
    have hset : ∀ j' conn w, Function.update s.connectors j (.connecting true) j' =
        .fourTuple conn w → s.connectors j' = .fourTuple conn w := by
      intro j' conn w hw
      by_cases hjj : j' = j
      · subst hjj; simp at hw
      · simpa [hjj] using hw
    have howns : ∀ g t, Owns { s with
        proxyProcessSocket := .connected
        conns := s.conns + 1
        links := Function.update s.links (s.conns + 1) {}
        connectors := Function.update s.connectors j (.connecting true) } g t → s.Owns g t := by
      intro g t ht
      cases t with
      | connector j' => obtain ⟨w, hw⟩ := ht; exact ⟨w, hset j' g w hw⟩
      | _ => exact ht
    have hle : ∀ g t, s.Owns g t → g < s.conns + 1 := fun g t ht => Nat.lt_succ_of_le (h.le g t ht)
    exact {
      read := fun g i hi => by
        by_cases hg : g = s.conns + 1
        · subst hg; simp at hi
        · exact h.read g i (by simpa [hg] using hi)
      unique := fun g t t' ht ht' => h.unique g t t' (howns g t ht) (howns g t' ht')
      le := fun g t ht => (hle g t (howns g t ht)).le
      connecting := fun _ g t _ ht => (hle g t (howns g t ht)).ne
      serving := fun i hi => absurd hi (hserv i (hs.reader_lt fun hd => by
        change (s.readers i).pc.Serving at hi; rw [hd] at hi; exact hi))
      reading := h.reading
      sending := fun j' conn w hw => by
        have hw := hset j' conn w hw
        have hidle : w.io ≠ .idle := fun hi =>
          hsend j' (hs.connector_lt (by rw [hw]; simp)) (by rw [hw]; exact hi)
        exact ⟨fun hi => absurd hi hidle, (h.sending j' conn w hw).2⟩ }
  | expire => exact h.same rfl rfl rfl rfl rfl
  | @respond g r =>
    refine h.congr (fun g' => ?_) rfl rfl rfl fun _ => .inl rfl
    by_cases hg : g' = g <;> simp [hg]

end OneReader

/-- **One reader for each connection**, when no reader and no four tuple of an
    older connection is in between when the kernel connects the next one. -/
theorem oneReaderEach_of_vacant {c : Conf} {s : Session}
    (h : Reach Session.step Vacant (Session.init c) s) : s.OneReaderEach := by
  have hi : Shape s ∧ OneReader s :=
    h.inv (I := fun s => Shape s ∧ OneReader s) ⟨Shape.init c, OneReader.init c⟩
      fun _ _ _ hs hC he =>
        ⟨hs.1.step (rule_of_step he), hs.2.step hs.1 hC (rule_of_step he)⟩
  intro g i i' hg hg'
  have := hi.2.unique g _ _ (hi.2.read g i hg) (hi.2.read g i' hg')
  cases this; rfl

/-- The second connection is made after the reader of the first one has failed. -/
theorem oneReaderEach_reconnected :
    ∃ s : Session, (s.links 2).readers = [1] ∧ s.OneReaderEach := by
  obtain ⟨s, hs, hp⟩ := exists_runIf Session.step Vacant
    (Session.init (localConf true))
    (firstUp ++ [.fail (.reader 0), .connect 1, .complete (.connector 1),
      .push (.connector 1) 89, .complete (.connector 1)])
    (fun s => (s.links 2).readers == [1]) (by decide +kernel)
  exact ⟨s, by simpa using hp, oneReaderEach_of_vacant hs⟩

/-- The reader writes new data to the client while the other coroutines connect
    again, and then reads on from the new connection beside its reader. -/
theorem not_oneReaderEach : ¬ ∀ (c : Conf) (s : Session),
    Reach Session.step (fun _ _ => True) (Session.init c) s → s.OneReaderEach := by
  intro h
  obtain ⟨s, hs, hp⟩ := exists_run Session.step (fun _ _ => True)
    (Session.init (localConf true))
    (firstUp ++ [
      .respond 1 ⟨{ type := 1, act := 0, newDataLen := 1, handledTotalPkgLen := 0 }, [9], rfl⟩,
      .pull 0 16, .complete (.reader 0), .pull 0 1, .complete (.reader 0),
      .read .req (.data [2]), .fail (.relay .req), .push (.relay .req) 1, .complete (.relay .req),
      .connect 1, .complete (.connector 1), .push (.connector 1) 89, .complete (.connector 1),
      .push (.reader 0) 1, .complete (.reader 0), .complete (.reader 0)])
    (fun s => (s.links 2).readers == [0, 1]) (fun _ _ _ => trivial) (by decide +kernel)
  have hl : (s.links 2).readers = [0, 1] := by simpa using hp
  have := h _ s hs 2 0 1 (by simp [hl]) (by simp [hl])
  omega

end CppProxy
