/-
  cpp_proxy — what a step leaves alone.

  A step resumes one coroutine, or moves the operation that it awaits.  The
  other coroutines stay where they are; new ones start to connect or to read.

  * `Event.tid`, `Event.Resumes`: the coroutine of an event;
  * `Resumed`: the code of one coroutine ran;
  * `moves`: a step is that, or sends a part to the process, or connects the
    process socket, or hands the connection over to the four tuple;
  * `stored_of_rule`: a queue grows at its end, loses what was released, or is
    cleared after a flush;
  * `flushing_of_rule`: a flush writes what the queue held when it started.
-/
import CppProxy.Edits
import CppProxy.Shape

namespace CppProxy

open Session

/-- Coroutine `t`, or the composed operation that it awaits, is resumed. -/
def Event.Resumes (t : Tid) : Event → Prop
  | .read d _ => .relay d = t
  | .issue t' | .complete t' | .fail t' => t' = t
  | .expire k => .detector k = t
  | .push _ _ | .pull _ _ | .connect _ | .respond _ _ => False

instance (t : Tid) : ∀ e : Event, Decidable (e.Resumes t)
  | .read _ _ | .issue _ | .complete _ | .fail _ | .expire _ => inferInstanceAs (Decidable (_ = _))
  | .push _ _ | .pull _ _ | .connect _ | .respond _ _ => inferInstanceAs (Decidable False)

/-- What the code of coroutine `t` leaves alone: what the connections have carried,
    and the other coroutines but for new ones. -/
structure Resumed (s s' : Session) (t : Option Tid) : Prop where
  conns : s'.conns = s.conns
  sent : ∀ g, (s'.links g).sent = (s.links g).sent
  begun : ∀ g, (s'.links g).begun = (s.links g).begun
  broken : ∀ g, (s.links g).broken = true → (s'.links g).broken = true
  socket : s'.proxyProcessSocket = .connected → s.proxyProcessSocket = .connected
  fourTuple : s'.fourTuple = s.fourTuple
  closed : s.hasClosed = true → s'.hasClosed = true
  bypass : s'.bypass = false → s.bypass = false
  nReaders : s.nReaders ≤ s'.nReaders
  nConnectors : s.nConnectors ≤ s'.nConnectors
  relay : ∀ d, t ≠ some (.relay d) → (s'.way d).relay = (s.way d).relay
  home : ∀ i < s.nReaders, (s'.readers i).home = (s.readers i).home
  reader : ∀ i, t ≠ some (.reader i) →
    s'.readers i = s.readers i ∨ s.nReaders ≤ i ∧ ∃ r, (s'.readers i).pc = .readHead r
  connector : ∀ j, t ≠ some (.connector j) → s'.connectors j = s.connectors j ∨
    s.nConnectors ≤ j ∧ (s'.connectors j = .connecting false ∨ s'.connectors j = .done)
  reconnects : s'.processConnecting = true → s'.hasClosed = false → s.processConnecting = true ∨
    ∃ j < s'.nConnectors, t ≠ some (.connector j) ∧ s'.connectors j = .connecting false

namespace Resumed

variable {s s₁ s' : Session} {t : Option Tid}

theorem refl (s : Session) (t : Option Tid) : Resumed s s t :=
  ⟨rfl, fun _ => rfl, fun _ => rfl, fun _ h => h, fun h => h, rfl, fun h => h, fun h => h, le_rfl,
    le_rfl, fun _ _ => rfl, fun _ _ => rfl, fun _ _ => .inl rfl, fun _ _ => .inl rfl,
    fun h _ => .inl h⟩

theorem trans (h : Resumed s s₁ t) (h' : Resumed s₁ s' t) : Resumed s s' t where
  conns := h'.conns.trans h.conns
  sent g := (h'.sent g).trans (h.sent g)
  begun g := (h'.begun g).trans (h.begun g)
  broken g hb := h'.broken g (h.broken g hb)
  socket hs := h.socket (h'.socket hs)
  fourTuple := h'.fourTuple.trans h.fourTuple
  closed hc := h'.closed (h.closed hc)
  bypass hb := h.bypass (h'.bypass hb)
  nReaders := h.nReaders.trans h'.nReaders
  nConnectors := h.nConnectors.trans h'.nConnectors
  relay d hd := (h'.relay d hd).trans (h.relay d hd)
  home i hi := (h'.home i (hi.trans_le h.nReaders)).trans (h.home i hi)
  reader i hi := by
    rcases h'.reader i hi with h' | ⟨hn, h'⟩
    · rw [h']; exact h.reader i hi
    · exact .inr ⟨h.nReaders.trans hn, h'⟩
  connector j hj := by
    rcases h'.connector j hj with h' | ⟨hn, h'⟩
    · rw [h']; exact h.connector j hj
    · exact .inr ⟨h.nConnectors.trans hn, h'⟩
  reconnects hp ho := by
    rcases h'.reconnects hp ho with hp | hnew
    · have ho₁ : s₁.hasClosed = false := by
        by_contra hc
        rw [h'.closed (by simpa using hc)] at ho
        cases ho
      rcases h.reconnects hp ho₁ with hp | ⟨j, hj, ht, hc⟩
      · exact .inl hp
      · refine .inr ⟨j, hj.trans_le h'.nConnectors, ht, ?_⟩
        rcases h'.connector j ht with h' | ⟨hn, -⟩
        · rw [h', hc]
        · omega
    · exact .inr hnew

/-- Nothing that `Resumed` reads changes, but for the flags. -/
theorem congr (h : Resumed s s₁ t) (hl : s'.links = s₁.links) (hc : s'.conns = s₁.conns)
    (hs : s'.proxyProcessSocket = .connected → s₁.proxyProcessSocket = .connected)
    (hf : s'.fourTuple = s₁.fourTuple) (hh : s₁.hasClosed = true → s'.hasClosed = true)
    (hb : s'.bypass = false → s₁.bypass = false) (hw : ∀ d, (s'.way d).relay = (s₁.way d).relay)
    (hr : s'.readers = s₁.readers) (hn : s'.nReaders = s₁.nReaders)
    (hj : s'.connectors = s₁.connectors) (hm : s'.nConnectors = s₁.nConnectors)
    (hp : s'.processConnecting = s₁.processConnecting) : Resumed s s' t :=
  h.trans ⟨hc, fun _ => by rw [hl], fun _ => by rw [hl], fun _ => by rw [hl]; exact id, hs, hf, hh,
    hb, hn.ge, hm.ge, fun d _ => hw d, fun _ _ => by rw [hr], fun _ _ => .inl (by rw [hr]),
    fun _ _ => .inl (by rw [hj]), fun h _ => .inl (hp ▸ h)⟩

theorem emit (h : Resumed s s' t) (a : Act) : Resumed s (s'.emit a) t :=
  h.congr rfl rfl id rfl id id (fun _ => rfl) rfl rfl rfl rfl rfl

/-- The queue of a direction changes. -/
theorem setWay_same (h : Resumed s s' t) (d : Dir) {w : Way} (hw : w.relay = (s'.way d).relay) :
    Resumed s (s'.setWay d w) t := by
  refine h.congr rfl rfl id rfl id id (fun d' => ?_) rfl rfl rfl rfl rfl
  by_cases hd : d' = d
  · subst hd; simp [hw]
  · simp [hd]

/-- A connection changes, but for what it has carried. -/
theorem setLinks (s : Session) (t : Option Tid) {g : ℕ} {l : Link} (hs : l.sent = (s.links g).sent)
    (hb : l.begun = (s.links g).begun) (hbr : (s.links g).broken = true → l.broken = true) :
    Resumed s { s with links := Function.update s.links g l } t :=
  { refl s t with
    sent := fun g' => by
      by_cases hg : g' = g
      · subst hg; simpa using hs
      · simp [hg]
    begun := fun g' => by
      by_cases hg : g' = g
      · subst hg; simpa using hb
      · simp [hg]
    broken := fun g' h => by
      by_cases hg : g' = g
      · subst hg; simpa using hbr h
      · simpa [hg] using h }

/-- The relay of a direction goes on. -/
theorem setWay {d : Dir} (h : Resumed s s' (some (.relay d))) (w : Way) :
    Resumed s (s'.setWay d w) (some (.relay d)) :=
  h.trans { refl s' _ with
    relay := fun d' hd' => by
      have hd : d' ≠ d := by rintro rfl; exact hd' rfl
      simp [hd] }

/-- Reader `i` goes on. -/
theorem setReader {i : ℕ} (h : Resumed s s' (some (.reader i))) (pc : ReaderPc) :
    Resumed s (s'.setReader i pc) (some (.reader i)) :=
  h.trans { refl s' _ with
    home := fun i' _ => by by_cases hi : i' = i <;> simp [hi]
    reader := fun i' hi' => by
      have hi : i' ≠ i := by rintro rfl; exact hi' rfl
      exact .inl (by simp [hi]) }

/-- Connector `j` goes on. -/
theorem setConnector {j : ℕ} (h : Resumed s s' (some (.connector j))) (pc : ConnectorPc) :
    Resumed s (s'.setConnector j pc) (some (.connector j)) :=
  h.trans { refl s' _ with
    connector := fun j' hj' => by
      have hj : j' ≠ j := by rintro rfl; exact hj' rfl
      exact .inl (by simp [Session.setConnector, hj])
    reconnects := fun hp _ => .inl hp }

end Resumed

/-! ## The code -/

theorem Edit.resumed {s s' : Session} {t : Tid} (h : Edit s t s') : Resumed s s' (some t) := by
  have hrefl := Resumed.refl s (some t)
  cases h with
  | close =>
    exact hrefl.congr rfl rfl (fun hs => by cases hs) rfl (fun _ => rfl) id (fun _ => rfl) rfl rfl
      rfl rfl rfl
  | reconnect gen ht hp =>
    refine { hrefl with
      socket := fun hs => ?_, nConnectors := Nat.le_succ _, connector := fun j _ => ?_
      reconnects := fun _ ho => .inr ⟨s.nConnectors, Nat.lt_succ_self _, by simpa using ht _, ?_⟩ }
    · simp only [reconnecting] at hs
      split at hs <;> cases hs
    · by_cases hj : j = s.nConnectors
      · subst hj
        refine .inr ⟨le_rfl, ?_⟩
        cases hc : s.hasClosed <;> simp [reconnecting, hc]
      · exact .inl (by simp [reconnecting, hj])
    · change s.hasClosed = false at ho
      simp [reconnecting, ho]
  | enableBypass =>
    exact hrefl.congr rfl rfl id rfl id (fun hb => by cases hb) (fun _ => rfl) rfl rfl rfl rfl rfl
  | timer => exact hrefl.congr rfl rfl id rfl id id (fun _ => rfl) rfl rfl rfl rfl rfl
  | noteRead => exact .setLinks s _ rfl rfl id
  | breakLink => exact .setLinks s _ rfl rfl fun _ => rfl
  | @issueWrite t w hw =>
    cases t with
    | relay d => exact hrefl.setWay _
    | connector j => exact hrefl.setConnector _
    | reader | detector => cases hw
  | relayDone | relayDirect | notified | notify | readProcess => exact hrefl.setWay _
  | relayFlush => exact (hrefl.emit _).setWay _
  | response => exact hrefl.emit _
  | readerDone | readHead | readBody | issueRead => exact hrefl.setReader _
  | writeNew | flushServer | flushClient => exact (hrefl.emit _).setReader _
  | connectorDone | wait => exact hrefl.setConnector _
  | @retry j =>
    refine (hrefl.setConnector (.connecting false)).congr rfl rfl (fun hs => ?_) rfl id id
      (fun _ => rfl) rfl rfl rfl rfl rfl
    by_cases hc : s.proxyProcessSocket = .closed
    · simp [asyncConnect, hc] at hs
    · simp only [asyncConnect, if_neg hc] at hs
      exact hs
  | @spawn j =>
    -- a connection that is handed over gets a reader, which reads a head
    exact { hrefl with
      nReaders := Nat.le_succ _
      home := fun i hi => by simp [spawning, show i ≠ s.nReaders by omega]
      reader := fun i _ => by
        by_cases hi : i = s.nReaders
        · subst hi
          exact .inr ⟨le_rfl, s.asyncReadProcess responseHeadLen, by simp⟩
        · exact .inl (by simp [spawning, hi])
      connector := fun j' hj' => by
        have hj : j' ≠ j := by rintro rfl; exact hj' rfl
        exact .inl (by simp [spawning, Session.setReader, hj])
      reconnects := fun hp _ => .inl hp }
  | timedOut =>
    exact hrefl.congr rfl rfl (fun hs => by cases hs) rfl id id (fun _ => rfl) rfl rfl rfl rfl rfl

theorem Edits.resumed {s s' : Session} {t : Tid} (h : Edits t s s') : Resumed s s' (some t) :=
  h.inv (P := fun x => Resumed s x (some t)) (fun _ _ hx he => hx.trans he.resumed) (.refl s _)

/-! ## The steps -/

/-- What a step does to the coroutines and the connections: code runs, a part is sent to
    the process, the kernel connects the socket, or the four tuple is to be sent. -/
inductive Moved (s : Session) : Event → Session → Prop
  | code {e s'} : Resumed s s' e.tid → Moved s e s'
  | sent {t k w} (hw : s.linkWrite t = some w) (hg : w.gen = s.conns)
      (hs : s.proxyProcessSocket = .connected) (hb : s.link.broken = false) (h0 : 0 < k)
      (hk : k ≤ w.rest.length) :
      Moved s (.push t k)
        ((s.sendLink w k).setLinkWrite { w with io := .idle, rest := w.rest.drop k } t)
  | connect {j} (hpc : s.connectors j = .connecting false) :
      Moved s (.connect j) { s with
        proxyProcessSocket := .connected
        conns := s.conns + 1
        links := Function.update s.links (s.conns + 1) {}
        connectors := Function.update s.connectors j (.connecting true) }
  | connected {j} (hpc : s.connectors j = .connecting true) :
      Moved s (.complete (.connector j)) (s.fourTuple2process j)

/-- **What a step does** to the coroutines and the connections. -/
theorem moves {s s' : Session} {e : Event} (hr : Rule s e s') : Moved s e s' := by
  have hrefl := Resumed.refl s e.tid
  have hflags : ∀ eof undefined trace, Resumed s { s with eof, undefined, trace } e.tid :=
    fun _ _ _ => hrefl.congr rfl rfl id rfl id id (fun _ => rfl) rfl rfl rfl rfl rfl
  cases updated_of_rule hr with
  | code ht _ h => exact .code (ht ▸ h.resumed)
  | readEof h => exact .code ((hflags true s.undefined _).trans h.resumed)
  | overrun _ _ h => exact .code ((hflags s.eof true s.trace).trans h.resumed)
  | @flushed d t w _ _ _ h =>
    have h₁ : Resumed s (s.clearFlushed d w) (some t) := (hrefl.emit _).setWay_same d rfl
    exact .code (h₁.trans h.resumed)
  | @cleared i d _ _ _ stored _ _ _ h =>
    have h₁ : Resumed s (s.setStored d stored) (some (.reader i)) := hrefl.setWay_same d rfl
    exact .code (h₁.trans h.resumed)
  | gotDirect =>
    rw [writeDirect_eq]
    exact .code ((hrefl.setWay _).congr rfl rfl id rfl id id (fun _ => rfl) rfl rfl rfl rfl rfl)
  | @gotProcess d live bytes =>
    rw [writeProcess_eq]
    have h₁ := hrefl.setWay { s.way d with
      received := (s.way d).received ++ bytes
      storedData := (s.way d).storedData ++ [Packet.ofData bytes]
      block := (s.way d).block.map fun b => b.updateAvailable (UInt32.ofNat bytes.length + 5)
      relay := .writeProcess (s.asyncWriteProcess (frame d.dataType bytes)) }
    refine .code { h₁ with sent := fun g => ?_, begun := fun g => ?_, broken := fun g => ?_ } <;>
      (simp only [framed]; split <;> try rfl) <;>
      by_cases hg : g = s.conns <;> simp [link, hg]
  | @pushPeer t k d w hw =>
    have h₁ : Resumed s (s.accept d (w.rest.take k)) (some t) := hrefl.setWay_same d rfl
    cases t with
    | relay d' => exact .code (h₁.setWay _)
    | reader i => exact .code (h₁.setReader _)
    | connector | detector => cases hw
  | pushLink hw hg hs hb h0 hk => exact .sent hw hg hs hb h0 hk
  | @pull i k r =>
    have h₁ := Resumed.setLinks s (some (.reader i)) (g := s.conns)
      (l := { s.link with inbound := s.link.inbound.drop k }) rfl rfl id
    exact .code (h₁.setReader _)
  | @release i d conn head s₁ _ h₁ _ h =>
    obtain ⟨-, rfl⟩ := h
    have h₁ : Resumed s s₁ (some (.reader i)) := by
      rcases h₁ with rfl | rfl
      · exact hrefl
      · exact hrefl.emit _
    refine .code ((h₁.setReader (.release d _ _ _)).congr rfl rfl id rfl id id (fun d' => ?_) rfl
      rfl rfl rfl rfl)
    by_cases hd : d' = d
    · subst hd; simp [releasing]; rfl
    · simp [releasing, hd]; rfl
  | connected hpc => exact .connected hpc
  | connect hpc => exact .connect hpc
  | @respond g r => exact .code (.setLinks s _ rfl rfl id)

/-- A relay stays where it is while others are resumed. -/
theorem relay_of_other {s s' : Session} {e : Event} (hr : Rule s e s') {d : Dir}
    (he : e.tid ≠ some (.relay d)) : (s'.way d).relay = (s.way d).relay := by
  cases moves hr with
  | code h => exact h.relay d he
  | @sent t =>
    cases t with
    | relay d' =>
      have hd : d ≠ d' := fun hd => he (by rw [hd]; rfl)
      simp only [setLinkWrite, setRelay_way, Function.update_of_ne hd]
      rfl
    | _ => rfl
  | connect => rfl
  | connected => rfl

/-- A connector stays where it is while others are resumed, or is a new one. -/
theorem connector_or_new {s s' : Session} {e : Event} (hr : Rule s e s') {j : ℕ}
    (he : e.tid ≠ some (.connector j)) : s'.connectors j = s.connectors j ∨
      s.nConnectors ≤ j ∧ (s'.connectors j = .connecting false ∨ s'.connectors j = .done) := by
  cases moves hr with
  | code h => exact h.connector j he
  | @sent t =>
    left
    cases t with
    | connector j' =>
      have hj : j ≠ j' := fun hj => he (by rw [hj]; rfl)
      simp [setLinkWrite, Session.setConnector, hj, Session.sendLink, Session.setLink]
    | _ => rfl
  | @connect j' =>
    have hj : j ≠ j' := fun hj => he (by rw [hj]; rfl)
    exact .inl (by simp [hj])
  | @connected j' =>
    have hj : j ≠ j' := fun hj => he (by rw [hj]; rfl)
    exact .inl (by simp [fourTuple2process, Session.setConnector, hj])

theorem connector_of_other {s s' : Session} {e : Event} (hr : Rule s e s') {j : ℕ}
    (hlt : j < s.nConnectors) (he : e.tid ≠ some (.connector j)) :
    s'.connectors j = s.connectors j := by
  rcases connector_or_new hr he with h | ⟨hn, -⟩
  · exact h
  · omega

/-- A reader stays where it is while others are resumed, or is a new one. -/
theorem reader_or_new {s s' : Session} {e : Event} (hr : Rule s e s') {i : ℕ}
    (he : e.tid ≠ some (.reader i)) : s'.readers i = s.readers i ∨
      s.nReaders ≤ i ∧ ∃ r, (s'.readers i).pc = .readHead r := by
  cases moves hr with
  | code h => exact h.reader i he
  | @sent t => exact .inl (by cases t <;> rfl)
  | connect | connected => exact .inl rfl

theorem reader_of_other {s s' : Session} {e : Event} (hr : Rule s e s') {i : ℕ}
    (hlt : i < s.nReaders) (he : e.tid ≠ some (.reader i)) : s'.readers i = s.readers i := by
  rcases reader_or_new hr he with h | ⟨hn, -⟩
  · exact h
  · omega

/-- Readers are only added. -/
theorem nReaders_of_rule {s s' : Session} {e : Event} (hr : Rule s e s') :
    s.nReaders ≤ s'.nReaders := by
  cases moves hr with
  | code h => exact h.nReaders
  | @sent t => cases t <;> exact le_rfl
  | connect | connected => exact le_rfl

/-- A closed session stays closed. -/
theorem closed_of_rule {s s' : Session} {e : Event} (hr : Rule s e s') (hc : s.hasClosed = true) :
    s'.hasClosed = true := by
  cases moves hr with
  | code h => exact h.closed hc
  | @sent t => cases t <;> exact hc
  | connect => exact hc
  | connected => exact hc

/-- An open session was open before. -/
theorem open_before_of_rule {s s' : Session} {e : Event} (hr : Rule s e s')
    (ho : s'.hasClosed = false) : s.hasClosed = false := by
  by_contra hc
  rw [closed_of_rule hr (by simpa using hc)] at ho
  cases ho

/-! ## The queues -/

theorem RelayPc.flushing_setPeerWrite (pc : RelayPc) {w v : PeerWrite} (hw : pc.peerWrite = some w)
    (hd : v.data = w.data) : (pc.setPeerWrite v).flushing = pc.flushing := by
  cases pc <;> cases hw <;> simp [setPeerWrite, flushing, hd]

theorem ReaderPc.flushing_setPeerWrite (pc : ReaderPc) {d d' : Dir} {w v : PeerWrite}
    (hw : pc.peerWrite = some (d', w)) (hd : v.data = w.data) :
    (pc.setPeerWrite v).flushing d = pc.flushing d := by
  cases pc <;> cases hw <;> simp [setPeerWrite, flushing, hd]

/-- What a step does to the queue of direction `d`. -/
inductive Session.Stored (s : Session) (d : Dir) : Event → List Packet → Prop
  | keep {e} : s.Stored d e (s.way d).storedData
  | store {live bytes} (hpc : (s.way d).relay = .readProcess live) :
    s.Stored d (.read d (.data bytes)) ((s.way d).storedData ++ [Packet.ofData bytes])
  | flushed {t data} (hf : s.flushing d t = some data) : s.Stored d (.complete t) []
  | released {i count next w kept} (hpc : (s.readers i).pc = .release d count next w)
      (hk : clearHandledPacket (s.way d).storedData count next = some kept) :
    s.Stored d (.complete (.reader i)) kept

/-- What a step does to the flushes of direction `d`: each one is older and not the
    one that is done, or writes what the queue holds. -/
def Session.FlushesOn (s : Session) (d : Dir) (e : Event) (s' : Session) : Prop :=
  ∀ t data, s'.flushing d t = some data → s.flushing d t = some data ∧ e ≠ .complete t ∨
    data = storedBytes (s'.way d).storedData

section

variable {s s' : Session} {e : Event}

/-- What coroutines flush is what they flushed before, or what the queue holds. -/
def Session.FlushesOld (s s' : Session) (d : Dir) : Prop :=
  ∀ t data, s'.flushing d t = some data →
    s.flushing d t = some data ∨ data = storedBytes (s.way d).storedData

theorem flushing_congr (hw : ∀ d, (s'.way d).relay = (s.way d).relay)
    (hr : ∀ i, (s'.readers i).pc = (s.readers i).pc) (d : Dir) (t : Tid) :
    s'.flushing d t = s.flushing d t := by
  cases t <;> simp only [flushing, hw, hr]

theorem accept_frame (s : Session) (d₁ : Dir) (bytes : List Byte) (d : Dir) :
    ((s.accept d₁ bytes).way d).storedData = (s.way d).storedData ∧
      ((s.accept d₁ bytes).way d).relay = (s.way d).relay := by
  by_cases hd : d = d₁
  · subst hd; simp [accept]
  · simp [accept, hd]

namespace Session.FlushesOld

variable {d : Dir}

theorem of_same (hw : ∀ d, (s'.way d).relay = (s.way d).relay)
    (hr : ∀ i, (s'.readers i).pc = (s.readers i).pc) : s.FlushesOld s' d :=
  fun t _ hf => .inl (flushing_congr hw hr d t ▸ hf)

/-- No coroutine has moved before. -/
theorem of_frame {x : Session} (h : x.FlushesOld s' d) (hw : ∀ d, (x.way d).relay = (s.way d).relay)
    (hr : ∀ i, (x.readers i).pc = (s.readers i).pc) (t : Tid) (data : List Byte)
    (hf : s'.flushing d t = some data) :
    s.flushing d t = some data ∨ data = storedBytes (x.way d).storedData :=
  (h t data hf).imp_left fun hf => flushing_congr hw hr d t ▸ hf

/-- A relay moves to a program point where it flushes what the queue holds, or on with its
    flush. -/
theorem setWay (s : Session) (d₁ : Dir) {w : Way} (hp : ∀ data, w.relay.flushing = some data →
      (s.way d₁).relay.flushing = some data ∨ data = storedBytes (s.way d₁).storedData) :
    s.FlushesOld (s.setWay d₁ w) d := by
  intro t data hf
  cases t with
  | relay d' =>
    simp only [flushing] at hf ⊢
    split at hf
    · subst d'
      by_cases hd : d = d₁
      · subst hd
        simpa using hp data (by simpa using hf)
      · rw [setWay_way, Function.update_of_ne hd] at hf
        exact .inl (by simpa using hf)
    · cases hf
  | _ => exact .inl hf

theorem setRelay (s : Session) {d₁ : Dir} {pc : RelayPc} (hp : ∀ data, pc.flushing = some data →
      (s.way d₁).relay.flushing = some data ∨ data = storedBytes (s.way d₁).storedData) :
    s.FlushesOld (s.setRelay d₁ pc) d := setWay s d₁ hp

theorem setReader (s : Session) {i : ℕ} {pc : ReaderPc} (hp : ∀ data, pc.flushing d = some data →
      (s.readers i).pc.flushing d = some data ∨ data = storedBytes (s.way d).storedData) :
    s.FlushesOld (s.setReader i pc) d := by
  intro t data hf
  cases t with
  | reader i' =>
    by_cases hi : i' = i
    · subst hi
      exact hp data (by simpa [flushing] using hf)
    · exact .inl (by simpa [flushing, hi] using hf)
  | _ => exact .inl hf

end Session.FlushesOld

theorem LinkWrite.flushing_none {p : RelayPc} {w : LinkWrite} (hw : p.linkWrite = some w)
    (w' : LinkWrite) : (p.setLinkWrite w').flushing = none := by
  cases p <;> cases hw <;> rfl

theorem LinkRead.flushing_none {p : ReaderPc} {r : LinkRead} (hr : p.linkRead = some r)
    (r' : LinkRead) (d : Dir) : (p.setLinkRead r').flushing d = none := by
  cases p <;> cases hr <;> rfl

/-- A flush that starts writes what the queue holds. -/
theorem Edit.flushesOld {t : Tid} (h : Edit s t s') (d : Dir) : s.FlushesOld s' d := by
  cases h with
  | @issueWrite t w hw =>
    cases t with
    | relay d₁ =>
      refine .setWay s _ fun data hf => ?_
      rw [LinkWrite.flushing_none hw] at hf
      cases hf
    | _ => exact .of_same (fun _ => rfl) fun _ => rfl
  | relayDone | relayDirect | notified | notify | readProcess =>
    exact .setWay s _ fun _ hf => by cases hf
  | @relayFlush d₁ gen =>
    refine Session.FlushesOld.setWay
      (s.emit (.flush d₁ (s.dstOpen d₁) (storedBytes (s.way d₁).storedData))) d₁ fun _ hf => ?_
    cases hf
    exact .inr rfl
  | readerDone | readHead | readBody => exact .setReader s fun _ hf => by cases hf
  | @issueRead i r hr =>
    refine .setReader s fun data hf => ?_
    rw [LinkRead.flushing_none hr] at hf
    cases hf
  | @writeNew i r d₁ head buf =>
    exact Session.FlushesOld.setReader (s.emit (.newData d₁ (s.dstOpen d₁) buf))
      fun _ hf => by cases hf
  | flushServer gen | flushClient gen =>
    refine Session.FlushesOld.setReader (s.emit _) fun data hf => .inr ?_
    simp only [ReaderPc.flushing] at hf
    split at hf
    · subst d
      exact (Option.some.inj hf).symm
    · cases hf
  | @spawn j conn =>
    intro t data hf
    refine (Session.FlushesOld.setReader (s.spawning j conn) (fun _ hf => by cases hf) t data hf).imp_left
      fun hf => ?_
    cases t with
    | reader i =>
      by_cases hi : i = s.nReaders
      · subst hi
        simp [flushing, spawning, ReaderPc.flushing] at hf
      · simpa [flushing, spawning, hi] using hf
    | _ => exact hf
  | _ => exact .of_same (fun _ => rfl) fun _ => rfl

/-- A stretch of code starts flushes of what the queue holds. -/
theorem Edits.flushesOld {t : Tid} (h : Edits t s s') (d : Dir) : s.FlushesOld s' d := by
  refine (h.inv (P := fun x => s.Same x ∧ s.FlushesOld x d) (fun x x' hx he => ?_)
    ⟨.refl s, fun _ _ hf => .inl hf⟩).2
  refine ⟨hx.1.trans he.same, fun t data hf => ?_⟩
  rcases he.flushesOld d t data hf with hf | hf
  · exact hx.2 t data hf
  · rw [hx.1.stored] at hf
    exact .inr hf

/-- The queues are as they were, and nobody's flush is done. -/
theorem Session.FlushesOld.stored {d : Dir} (h : s.FlushesOld s' d)
    (hs : (s'.way d).storedData = (s.way d).storedData)
    (hn : ∀ t, e = .complete t → s.flushing d t = none) :
    s.Stored d e (s'.way d).storedData ∧ s.FlushesOn d e s' := by
  refine ⟨hs ▸ .keep, fun t data hf => ?_⟩
  rcases h t data hf with hf | hf
  · refine .inl ⟨hf, fun he => ?_⟩
    rw [hn t he] at hf
    cases hf
  · exact .inr (hs ▸ hf)

theorem setRelay_stored (s : Session) (d₁ : Dir) (pc : RelayPc) (d : Dir) :
    ((s.setRelay d₁ pc).way d).storedData = (s.way d).storedData := by
  by_cases hd : d = d₁
  · subst hd; simp
  · simp [hd]

/-- **What a step does to the queues and to the flushes.** -/
theorem stored_of_rule (hr : Rule s e s') (d : Dir) :
    s.Stored d e (s'.way d).storedData ∧ s.FlushesOn d e s' := by
  have hrelease : ∀ {i d' count next w}, (s.readers i).pc = .release d' count next w →
      s.flushing d (.reader i) = none := by
    intro i d' count next w hpc
    rw [flushing, hpc]
    rfl
  cases updated_of_rule hr with
  | code ht hn h =>
    refine (h.flushesOld d).stored (h.same.stored d) fun t' he => ?_
    subst he
    cases ht
    exact hn rfl d
  | readEof h =>
    have hold : s.FlushesOld s' d := h.flushesOld d
    exact hold.stored (h.same.stored d) (by simp)
  | overrun hpc _ h =>
    have hold : s.FlushesOld s' d := h.flushesOld d
    refine hold.stored (h.same.stored d) fun t' he => ?_
    cases he
    exact hrelease hpc
  | @flushed d' t w _ hf ho h =>
    have hst := h.same.stored d
    refine ⟨?_, fun t' data hf' => ?_⟩
    · rw [hst]
      by_cases hd : d = d'
      · subst hd
        simpa [Session.clearFlushed, setStored] using .flushed hf
      · simpa [Session.clearFlushed, setStored, hd] using .keep
    · by_cases ht : t' = t
      · subst ht
        exact .inr (ho d data hf')
      · exact ((h.flushesOld d).of_frame (s := s) (setStored_relay _ d' _) (fun _ => rfl) t' data
          hf').imp (fun hf' => ⟨hf', fun he => ht (by cases he; rfl)⟩) fun hd => by rw [hd, hst]
  | @cleared i d' count next w kept _ hpc hk h =>
    have hst := h.same.stored d
    refine ⟨?_, fun t' data hf' => ?_⟩
    · rw [hst]
      by_cases hd : d = d'
      · subst hd
        simpa [setStored] using .released hpc hk
      · simpa [setStored, hd] using .keep
    · refine ((h.flushesOld d).of_frame (s := s) (setStored_relay _ d' _) (fun _ => rfl) t' data
        hf').imp (fun hf' => ⟨hf', fun he => ?_⟩) fun hd => by rw [hd, hst]
      cases he
      rw [hrelease hpc] at hf'
      cases hf'
  | @gotDirect d' live bytes =>
    have hold : s.FlushesOld (s.writeDirect d' bytes) d := by
      rw [writeDirect_eq]
      exact Session.FlushesOld.setWay s d' (w := { s.way d' with
        received := (s.way d').received ++ bytes
        relay := .writeDirect (s.asyncWrite d' bytes) }) fun _ hf => by cases hf
    refine hold.stored ?_ (by simp)
    rw [writeDirect_eq]
    by_cases hd : d = d'
    · subst hd; simp
    · simp [hd]
  | @gotProcess d' live bytes hpc =>
    refine ⟨?_, fun t data hf => ?_⟩
    · rw [writeProcess_eq]
      by_cases hd : d = d'
      · subst hd
        simpa using .store hpc
      · simpa [hd] using .keep
    · rw [writeProcess_eq] at hf
      refine .inl ⟨?_, by simp⟩
      cases t with
      | relay d₁ =>
        by_cases hd : d₁ = d'
        · subst hd
          by_cases hd : d₁ = d
          · subst hd
            simp [flushing, RelayPc.flushing] at hf
          · simp [flushing, hd] at hf
        · by_cases hd₁ : d₁ = d
          · subst hd₁
            simpa [flushing, hd] using hf
          · simp [flushing, hd₁] at hf
      | _ => exact hf
  | @pushPeer t k d' w hw =>
    have hacc := accept_frame s d' (w.rest.take k)
    have hpush : (s.accept d' (w.rest.take k)).FlushesOld
        ((s.accept d' (w.rest.take k)).setPeerWrite { w with rest := w.rest.drop k } t) d := by
      cases t with
      | relay d₁ =>
        simp only [peerWrite, Option.map_eq_some_iff, Prod.mk.injEq] at hw
        obtain ⟨w', hw, -, rfl⟩ := hw
        refine .setRelay _ fun data hf => .inl ?_
        rw [(hacc d₁).2] at hf ⊢
        exact (RelayPc.flushing_setPeerWrite _ (v := { w' with rest := w'.rest.drop k }) hw
          rfl).symm.trans hf
      | reader i =>
        refine .setReader _ fun data hf => .inl ?_
        exact (ReaderPc.flushing_setPeerWrite _ (v := { w with rest := w.rest.drop k }) hw
          rfl).symm.trans hf
      | connector | detector => cases hw
    have hold : s.FlushesOld _ d := fun t data hf =>
      (hpush.of_frame (fun d => (hacc d).2) (fun _ => rfl) t data hf).imp_right fun hd => by
        rw [hd, (hacc d).1]
    refine hold.stored ?_ (by simp)
    cases t with
    | relay d₁ => exact (setRelay_stored _ d₁ _ d).trans (hacc d).1
    | _ => exact (hacc d).1
  | @pushLink t k w hw =>
    cases t with
    | relay d₁ =>
      have hold : s.FlushesOld ((s.sendLink w k).setLinkWrite
          { w with io := .idle, rest := w.rest.drop k } (.relay d₁)) d := by
        refine Session.FlushesOld.setRelay (s.sendLink w k) fun data hf => ?_
        have hnone := LinkWrite.flushing_none (p := (s.way d₁).relay) hw
          { w with io := .idle, rest := w.rest.drop k }
        exact absurd (hnone.symm.trans hf) (by simp)
      exact hold.stored (setRelay_stored _ d₁ _ d) (by simp)
    | connector j =>
      exact Session.FlushesOld.stored (.of_same (fun _ => rfl) fun _ => rfl) rfl (by simp)
    | reader | detector => cases hw
  | @pull i k r hread =>
    have hold : s.FlushesOld ((s.setLink { s.link with
        inbound := s.link.inbound.drop k }).setLinkRead i
          { r with io := .idle, got := r.got ++ s.link.inbound.take k }) d := by
      refine Session.FlushesOld.setReader (s.setLink _) fun data hf => ?_
      have hnone := LinkRead.flushing_none (p := (s.readers i).pc) hread
        { r with io := .idle, got := r.got ++ s.link.inbound.take k } d
      exact absurd (hnone.symm.trans hf) (by simp)
    exact hold.stored rfl (by simp)
  | @release i d' conn head s₁ _ h₁ hh h =>
    obtain ⟨-, rfl⟩ := h
    have hnone : ∀ t, Event.complete (.reader i) = .complete t → s.flushing d t = none := by
      intro t ht
      cases ht
      rw [flushing]
      cases hpc : (s.readers i).pc <;> simp [hpc, ReaderPc.acting, ReaderPc.flushing] at hh ⊢
    have hway : s₁.way = s.way := by rcases h₁ with rfl | rfl <;> rfl
    have hreaders : s₁.readers = s.readers := by rcases h₁ with rfl | rfl <;> rfl
    generalize prepareTransferPacket head (s₁.way d').storedData _ = r
    have hrelay : ((s₁.releasing i d' conn head r).way d).relay = (s.way d).relay ∧
        ((s₁.releasing i d' conn head r).way d).storedData = (s.way d).storedData := by
      by_cases hd : d = d'
      · subst hd; simp [releasing, hway]
      · simp [releasing, hway, hd]
    have hold : s.FlushesOld (s₁.releasing i d' conn head r) d := by
      intro t data hf
      cases t with
      | relay d₁ => exact .inl (by simpa only [flushing, hrelay.1] using hf)
      | reader i' =>
        by_cases hi : i' = i
        · subst hi
          simp [flushing, releasing, ReaderPc.flushing] at hf
        · exact .inl (by simpa [flushing, releasing, hreaders, hi] using hf)
      | _ => cases hf
    exact hold.stored hrelay.2 hnone
  | connected | connect | respond =>
    exact Session.FlushesOld.stored (.of_same (fun _ => rfl) fun _ => rfl) rfl fun t ht => by
      cases ht <;> rfl

end

end CppProxy
