/-
  cpp_proxy — what a closed session still handles.

  `grace_close` recalls no completion that is queued, so the reader may still act
  on a response that it has read.  The queues are not flushed any more and the
  counters are not reset, so the response is handled as before.

  * `Session.Exact`: a total ends the packets at the front of the queue;
  * `Parting`: what holds of a session when it closes, if the process connection
    lasted until then;
  * `Parting.step`: it holds on.
-/
import CppProxy.Closing
import CppProxy.Delivery

namespace CppProxy

open Session

/-- A relay writes a frame that is not sent. -/
def RelayPc.Unsent : RelayPc → Prop
  | writeProcess w => ¬ w.Finished
  | _ => False

namespace Session

variable (s : Session)

/-- The total is that of the counter and some first packets of the queue; the counter
    and the queue are no longer than what was received. -/
structure Exact (d : Dir) (total : UInt64) : Prop where
  ends : ∃ n ≤ (s.way d).storedData.length, total.toNat =
    (s.way d).handledTotalPkgLen.toNat + storedLen ((s.way d).storedData.take n)
  bound : (s.way d).handledTotalPkgLen.toNat + storedLen (s.way d).storedData ≤
    (s.way d).received.length

/-- The first `n` packets of the queue can be released: the packet of a frame that is
    not sent is not one of them. -/
structure Keeps (d : Dir) (n : ℕ) : Prop where
  le : n ≤ (s.way d).storedData.length
  lt : (s.way d).relay.Unsent → n < (s.way d).storedData.length

end Session

/-- What a session that closes can still do. -/
structure Parting (s : Session) : Prop where
  one : s.nConnectors = 1
  spawn : s.connectors 0 ≠ .done → s.nReaders = 0
  alone : s.nReaders ≤ 1
  plain : ∀ i, (s.readers i).pc.Plain ∧ ¬ (s.readers i).pc.IsFlush
  head : ∀ i r, (s.readers i).pc = .readHead r → r.Finished →
    (ResponseHead.ofBytes r.got).newDataLen = 0 ∧ ∀ d : Dir,
      DataType.ofCode (ResponseHead.ofBytes r.got).type = some d.dataType →
        s.Exact d (ResponseHead.ofBytes r.got).handledTotalPkgLen
  release : ∀ i d count next w, (s.readers i).pc = .release d count next w → w.live = true →
    next = 0 ∧ s.Keeps d count
  flush : ∀ d gen w, (s.way d).relay = .flush gen w → w.live = false
  keeps : ∀ d, s.Keeps d 0

/-- A direction goes on: packets may be stored. -/
structure Session.GoesOut (s s' : Session) (d : Dir) (more : List Packet) : Prop where
  stored : (s'.way d).storedData = (s.way d).storedData ++ more
  counter : (s'.way d).handledTotalPkgLen = (s.way d).handledTotalPkgLen
  received : (s.way d).received.length + storedLen more ≤ (s'.way d).received.length
  unsent : (s'.way d).relay.Unsent → (s.way d).relay.Unsent ∨ more ≠ []
  flush : ∀ gen w, (s'.way d).relay = .flush gen w → w.live = false

theorem Session.Exact.goesOut {s s' : Session} {d : Dir} {total : UInt64} {more : List Packet}
    (h : s.Exact d total) (hg : s.GoesOut s' d more) : s'.Exact d total := by
  obtain ⟨⟨n, hn, ht⟩, hb⟩ := h
  refine ⟨⟨n, ?_, ?_⟩, ?_⟩
  · rw [hg.stored, List.length_append]; omega
  · rw [hg.stored, hg.counter, List.take_append_of_le_length hn, ht]
  · have := hg.received
    rw [hg.stored, hg.counter, storedLen_append]; omega

theorem Session.Keeps.goesOut {s s' : Session} {d : Dir} {n : ℕ} {more : List Packet}
    (h : s.Keeps d n) (hg : s.GoesOut s' d more) : s'.Keeps d n := by
  refine ⟨?_, fun hu => ?_⟩
  · rw [hg.stored, List.length_append]
    exact h.le.trans (Nat.le_add_right _ _)
  · rw [hg.stored, List.length_append]
    rcases hg.unsent hu with hu | hm
    · have := h.lt hu
      omega
    · have := h.le
      have := List.length_pos_of_ne_nil hm
      omega

namespace Parting

variable {s s' : Session}

theorem reader_eq (h : Parting s) (hs : Shape s) {i : ℕ} (hi : (s.readers i).pc ≠ .done) :
    i = 0 ∧ s.nReaders = 1 ∧ s.connectors 0 = .done := by
  have hlt := hs.reader_lt hi
  have := h.alone
  refine ⟨by omega, by omega, ?_⟩
  by_contra hd
  have := h.spawn hd
  omega

/-- The readers stay where they are. -/
theorem keep (h : Parting s) (hn : s'.nConnectors = s.nConnectors)
    (hj : s'.connectors 0 ≠ .done → s.connectors 0 ≠ .done) (hnr : s'.nReaders = s.nReaders)
    (hr : s'.readers = s.readers) (hg : ∀ d, ∃ more, s.GoesOut s' d more) : Parting s' where
  one := hn.trans h.one
  spawn hd := hnr.trans (h.spawn (hj hd))
  alone := hnr ▸ h.alone
  plain := hr ▸ h.plain
  head i r hpc hf := by
    obtain ⟨hb, he⟩ := h.head i r (hr ▸ hpc) hf
    refine ⟨hb, fun d ht => ?_⟩
    obtain ⟨more, hm⟩ := hg d
    exact (he d ht).goesOut hm
  release i d count next w hpc hl := by
    obtain ⟨h0, hk⟩ := h.release i d count next w (hr ▸ hpc) hl
    obtain ⟨more, hm⟩ := hg d
    exact ⟨h0, hk.goesOut hm⟩
  flush d gen w hpc := by
    obtain ⟨more, hm⟩ := hg d
    exact hm.flush gen w hpc
  keeps d := by
    obtain ⟨more, hm⟩ := hg d
    exact (h.keeps d).goesOut hm

theorem goesOut (h : Parting s) {d : Dir} (hw : s'.way d = s.way d) : s.GoesOut s' d [] := by
  refine ⟨by rw [hw, List.append_nil], by rw [hw], by rw [hw]; rfl, fun hu => .inl ?_, ?_⟩
  · rwa [hw] at hu
  · rw [hw]; exact h.flush d

/-- Nothing that `Parting` reads changes. -/
theorem same {x : Session} (h : Parting s) (hn : x.nConnectors = s.nConnectors)
    (hj : x.connectors 0 ≠ .done → s.connectors 0 ≠ .done) (hnr : x.nReaders = s.nReaders)
    (hr : x.readers = s.readers) (hw : x.way = s.way) : Parting x :=
  h.keep hn hj hnr hr fun d => ⟨[], h.goesOut (by rw [hw])⟩

/-- A relay goes on; it starts no frame. -/
theorem setWay (h : Parting s) {d : Dir} {w : Way} {l : List Packet}
    (hg : s.GoesOut (s.setWay d w) d l) : Parting (s.setWay d w) := by
  refine h.keep rfl id rfl rfl fun d' => ?_
  by_cases hd : d' = d
  · subst hd; exact ⟨l, hg⟩
  · exact ⟨[], h.goesOut (by simp [hd])⟩

theorem setRelay (h : Parting s) (d : Dir) {pc : RelayPc}
    (hu : pc.Unsent → (s.way d).relay.Unsent) (hf : ∀ gen w, pc = .flush gen w → w.live = false) :
    Parting (s.setRelay d pc) := by
  have hway : (s.setRelay d pc).way d = { s.way d with relay := pc } := by simp
  refine h.setWay (l := []) ⟨?_, ?_, ?_, fun hu' => .inl ?_, fun gen w hpc => ?_⟩
  · simp
  · simp
  · simp
  · exact hu (by simpa using hu')
  · exact hf gen w (by simpa using hpc)

/-- A reader goes on, with no response read. -/
theorem setReader (h : Parting s) {i : ℕ} {pc : ReaderPc} (hp : pc.Plain ∧ ¬ pc.IsFlush)
    (hh : ∀ r, pc = .readHead r → ¬ r.Finished)
    (hr : ∀ d count next w, pc = .release d count next w → w.live = true →
      next = 0 ∧ s.Keeps d count) : Parting (s.setReader i pc) where
  one := h.one
  spawn := h.spawn
  alone := h.alone
  plain i' := by
    by_cases hi : i' = i
    · subst hi; simpa using hp
    · simpa [hi] using h.plain i'
  head i' r hpc hf := by
    by_cases hi : i' = i
    · subst hi
      exact absurd hf (hh r (by simpa using hpc))
    · rw [setReader_readers, Function.update_of_ne hi] at hpc
      obtain ⟨hb, he⟩ := h.head i' r hpc hf
      exact ⟨hb, fun d ht => ⟨(he d ht).ends, (he d ht).bound⟩⟩
  release i' d count next w hpc hl := by
    by_cases hi : i' = i
    · subst hi
      obtain ⟨h0, hk⟩ := hr d count next w (by simpa using hpc) hl
      exact ⟨h0, hk.le, hk.lt⟩
    · rw [setReader_readers, Function.update_of_ne hi] at hpc
      obtain ⟨h0, hk⟩ := h.release i' d count next w hpc hl
      exact ⟨h0, hk.le, hk.lt⟩
  flush := h.flush
  keeps d := ⟨(h.keeps d).le, (h.keeps d).lt⟩

theorem graceClose (h : Parting s) : Parting s.graceClose :=
  graceClose_ind (fun _ => h) fun _ => h.same rfl id rfl rfl rfl

theorem relayClose (h : Parting s) (d : Dir) : Parting (s.relayClose d) :=
  h.graceClose.setRelay d (fun hu => hu.elim) (by simp)

theorem breakLink (h : Parting s) (w : LinkWrite) : Parting (s.breakLink w) :=
  breakLink_ind (fun _ => h.same rfl id rfl rfl rfl) fun _ => h

theorem noteRead (h : Parting s) (i : ℕ) : Parting (s.noteRead i) :=
  noteRead_ind (fun _ => h.same rfl id rfl rfl rfl) fun _ => h

theorem not_finished_start (want : ℕ) (h : 0 < want) : ¬ (s.asyncReadProcess want).Finished :=
  fun hf => by
    have : (0 : ℕ) = want := hf.2
    omega

theorem readHead (h : Parting s) (i : ℕ) : Parting (s.readHead i) :=
  (h.noteRead i).setReader ⟨trivial, id⟩
    (fun r hr => by cases hr; exact not_finished_start _ (by decide)) (by simp)

theorem relayLoop (h : Parting s) (d : Dir) : Parting (s.relayLoop d) := by
  refine relayLoop_ind (fun _ => h.relayClose d)
    (fun _ _ => h.setRelay d (fun hu => hu.elim) (by simp))
    (fun _ _ _ _ => h.setRelay d (fun hu => hu.elim) (by simp)) fun _ _ _ => ?_
  refine h.setWay (l := []) ⟨?_, ?_, ?_, fun hu => ?_, fun gen w hpc => ?_⟩
  · simp
  · simp
  · simp
  · simp [RelayPc.Unsent] at hu
  · simp at hpc

/-- The one reader goes on, with no response read. -/
theorem lone {x : Session} (h : Parting s) (hs : Shape s) {i : ℕ} {p : ReaderPc}
    (hi : (s.readers i).pc ≠ .done) (hn : x.nConnectors = s.nConnectors)
    (hj : x.connectors = s.connectors) (hnr : x.nReaders = s.nReaders)
    (hself : (x.readers i).pc = p) (hother : ∀ i' ≠ i, (x.readers i').pc = (s.readers i').pc)
    (hp : p.Plain ∧ ¬ p.IsFlush) (hh : ∀ r, p = .readHead r → ¬ r.Finished)
    (hr : ∀ d count next w, p = .release d count next w → w.live = false)
    (hf : ∀ d, (x.way d).relay = (s.way d).relay) (hk : ∀ d, x.Keeps d 0) : Parting x := by
  have hdone : ∀ i' ≠ i, (x.readers i').pc = .done := by
    intro i' hne
    rw [hother i' hne]
    by_contra hd
    exact hne ((h.reader_eq hs hd).1.trans (h.reader_eq hs hi).1.symm)
  refine ⟨hn.trans h.one, fun hd => hnr.trans (h.spawn (hj ▸ hd)), hnr ▸ h.alone, fun i' => ?_,
    fun i' r hpc hfin => ?_, fun i' d count next w hpc hl => ?_,
    fun d gen w hpc => h.flush d gen w (hf d ▸ hpc), hk⟩
  · by_cases hii : i' = i
    · rw [hii, hself]; exact hp
    · rw [hdone i' hii]; exact ⟨trivial, id⟩
  · by_cases hii : i' = i
    · rw [hii, hself] at hpc
      exact absurd hfin (hh r hpc)
    · rw [hdone i' hii] at hpc; cases hpc
  · by_cases hii : i' = i
    · rw [hii, hself] at hpc
      rw [hr d count next w hpc] at hl; cases hl
    · rw [hdone i' hii] at hpc; cases hpc

/-- The reader acts on the response that it has read; its release fails. -/
theorem actOnHead (h : Parting s) (hs : Shape s) {i conn : ℕ} {d : Dir} {head : ResponseHead}
    (hi : (s.readers i).pc ≠ .done) (hc : (s.actOnHead i d conn head).hasClosed = true) :
    Parting (s.actOnHead i d conn head) := by
  refine actOnHead_ind (P := fun s' => s'.hasClosed = true → Parting s') (fun _ _ => ?_)
    (fun _ hc => ?_) hc
  · exact h.graceClose.setReader ⟨trivial, id⟩ (by simp) (by simp)
  · have hdst : s.dstOpen d = false := by
      rw [hs.dst d, show s.hasClosed = true from hc]; rfl
    generalize hr : prepareTransferPacket head (s.way d).storedData
      (s.way d).handledTotalPkgLen = r
    have hway : ∀ d', ((s.releasing i d conn head r).way d').relay = (s.way d').relay ∧
        ((s.releasing i d conn head r).way d').storedData = (s.way d').storedData := by
      intro d'
      by_cases hd : d' = d
      · subst hd; simp [Session.releasing]
      · simp [Session.releasing, hd]
    refine h.lone hs hi (p := .release d r.handledPkgCount r.nextPkgUsedSize
      (s.asyncWrite d r.bytes)) rfl rfl rfl (by simp [Session.releasing])
      (fun i' hii => by simp [Session.releasing, hii]) ⟨trivial, id⟩ (by simp)
      (fun _ _ _ w hw => ?_) (fun d' => (hway d').1) fun d' => ⟨?_, fun hu => ?_⟩
    · cases hw; exact hdst
    · exact Nat.zero_le _
    · rw [(hway d').2]
      exact (h.keeps d').lt ((hway d').1 ▸ hu)

theorem dispatch (h : Parting s) (hs : Shape s) {i conn : ℕ} {head : ResponseHead}
    {buf : List Byte} (hn : head.newDataLen = 0) (hi : (s.readers i).pc ≠ .done)
    (hc : (s.dispatch i conn head buf).hasClosed = true) :
    Parting (s.dispatch i conn head buf) := by
  have h₁ : Parting (s.emit (.response i head)) := h.same rfl id rfl rfl rfl
  refine dispatch_ind (P := fun s' => s'.hasClosed = true → Parting s')
    (fun d _ => innerProxy_ind (P := fun s' => s'.hasClosed = true → Parting s')
      (fun hne => absurd hn hne) fun _ hc => h₁.actOnHead (hs.emit _) hi hc)
    (fun _ => ?_) (fun _ => h₁.readHead i) hc
  exact (h₁.same (x := (s.emit (.response i head)).cancelTimer) rfl id rfl rfl rfl).readHead i

/-- A connector goes on. -/
theorem setConnector (h : Parting s) {j : ℕ} {q : ConnectorPc} (hj : s.connectors j ≠ .done)
    (hn : s'.nConnectors = s.nConnectors) (hc : s'.connectors = Function.update s.connectors j q)
    (hnr : s'.nReaders = s.nReaders) (hr : s'.readers = s.readers) (hw : s'.way = s.way) :
    Parting s' := by
  refine h.same hn (fun hd => ?_) hnr hr hw
  by_cases h0 : (0 : ℕ) = j
  · rw [h0]; exact hj
  · rwa [hc, Function.update_of_ne h0] at hd

/-- The four tuple was sent before the session closed: the reader is spawned. -/
theorem superviseProcess (h : Parting s) (hs : Shape s) {j conn : ℕ}
    (hj : s.connectors j ≠ .done) : Parting (s.superviseProcess j conn) := by
  obtain ⟨ds, n, hd⟩ := s.superviseProcess_detectors j conn
  rw [hd]
  have h0 : j = 0 := by
    have := hs.connector_lt hj
    rw [h.one] at this
    omega
  subst h0
  have hzero := h.spawn hj
  have hdone : ∀ i, ((s.spawning 0 conn).readers i).pc = .done := by
    intro i
    by_cases hi : i = s.nReaders
    · subst hi; simp [Session.spawning]
    · simp [Session.spawning, hi, hs.readers i (by omega)]
  have h₁ : Parting (s.spawning 0 conn) := by
    refine ⟨h.one, fun hn => absurd (by simp [Session.spawning]) hn, ?_, fun i => ?_,
      fun i r hpc => ?_, fun i d count next w hpc => ?_, h.flush,
      fun d => ⟨(h.keeps d).le, (h.keeps d).lt⟩⟩
    · show s.nReaders + 1 ≤ 1
      omega
    · rw [hdone]; exact ⟨trivial, id⟩
    · rw [hdone] at hpc; cases hpc
    · rw [hdone] at hpc; cases hpc
  exact (h₁.readHead s.nReaders).same rfl id rfl rfl rfl

/-- The reader takes off what it has released. -/
theorem clearReleased (h : Parting s) (hs : Shape s) {i count : ℕ} {d : Dir} {next : Int32}
    {w : PeerWrite} (hpc : (s.readers i).pc = .release d count next w) (hl : w.live = true) :
    Parting (s.clearReleased i d count next) := by
  obtain ⟨rfl, hk⟩ := h.release i d count next w hpc hl
  have hclear : clearHandledPacket (s.way d).storedData count 0 =
      some ((s.way d).storedData.drop count) := by
    simp [clearHandledPacket, hk.le]
  refine clearReleased_ind (fun stored hst => ?_) fun hu => by rw [hclear] at hu; cases hu
  obtain rfl := Option.some.inj (hclear.symm.trans hst)
  rw [← readHead_setReader _ i .done]
  refine readHead (h.lone hs (x := (s.setStored d ((s.way d).storedData.drop count)).setReader i
    .done) (i := i) (p := .done) (by rw [hpc]; simp) rfl rfl rfl ?_ (fun i' hii => ?_)
      ⟨trivial, id⟩ (by simp) (by simp) (fun d' => ?_) fun d' => ?_) i
  · rw [setReader_readers, Function.update_self]
  · rw [setReader_readers, Function.update_of_ne hii]; rfl
  · by_cases hd : d' = d
    · subst hd; simp [setStored, Session.setReader]
    · simp [setStored, Session.setReader, hd]
  · by_cases hd : d' = d
    · subst hd
      have hw : (((s.setStored d' ((s.way d').storedData.drop count)).setReader i .done).way d') =
          { s.way d' with storedData := (s.way d').storedData.drop count } := by
        simp [setStored, Session.setReader]
      refine ⟨Nat.zero_le _, fun hu => ?_⟩
      rw [hw] at hu ⊢
      have := hk.lt hu
      rw [List.length_drop]
      omega
    · have hw : (((s.setStored d ((s.way d).storedData.drop count)).setReader i .done).way d') =
          s.way d' := by simp [setStored, Session.setReader, hd]
      refine ⟨Nat.zero_le _, fun hu => ?_⟩
      rw [hw] at hu ⊢
      exact (h.keeps d').lt hu

/-! ## The steps -/

theorem connectProcess_hasClosed (s : Session) (gen : ℕ) :
    (s.connectProcess gen).hasClosed = s.hasClosed :=
  connectProcess_ind (P := fun s' => s'.hasClosed = s.hasClosed) (fun _ => rfl) fun _ => rfl

theorem readerFlushServer_hasClosed (s : Session) (i gen : ℕ) :
    (s.readerFlushServer i gen).hasClosed = s.hasClosed := by
  refine readerFlushServer_ind (P := fun s' => s'.hasClosed = s.hasClosed) (fun _ => ?_)
    fun _ => rfl
  exact readerFlushClient_ind (P := fun s' => s'.hasClosed = s.hasClosed)
    (fun _ => connectProcess_hasClosed _ gen) fun _ => rfl

theorem setLinkWrite_unsent {pc : RelayPc} {w v : LinkWrite} (hw : pc.linkWrite = some w)
    (hr : w.rest ≠ []) (hu : (pc.setLinkWrite v).Unsent) : pc.Unsent := by
  cases pc with
  | writeProcess u =>
    cases hw
    exact fun hf => hr hf.2
  | _ => exact hu.elim

theorem linkRead_setLinkRead {pc : ReaderPc} {r v : LinkRead} (hr : pc.linkRead = some r) :
    (pc.setLinkRead v).Plain = pc.Plain ∧ (pc.setLinkRead v).IsFlush = pc.IsFlush ∧
      (∀ u, pc.setLinkRead v = .readHead u → u = v) ∧
      ∀ d count next w, pc.setLinkRead v ≠ .release d count next w := by
  cases pc <;> cases hr <;> simp [ReaderPc.setLinkRead, ReaderPc.Plain, ReaderPc.IsFlush]

/-- **A session that closes goes on as it left off.** -/
theorem step (h : Parting s) (hs : Shape s) {e : Event} (hr : Rule s e s')
    (hc : s'.hasClosed = true) : Parting s' := by
  have hopen : ∀ {p : Prop}, s.hasClosed = true → s.proxyProcessSocket ≠ .closed → p :=
    fun hc hn => absurd (hs.closed hc) hn
  cases hr with
  | @gotDirect d live bytes =>
    rw [writeDirect_eq]
    refine (h.setWay (d := d) (w := { s.way d with
      received := (s.way d).received ++ bytes
      relay := .writeDirect (s.asyncWrite d bytes) }) (l := []) ⟨?_, ?_, ?_, fun hu => ?_,
        fun gen w hpc => ?_⟩).same rfl id rfl rfl rfl
    · simp
    · simp
    · simp
    · simp [RelayPc.Unsent] at hu
    · simp at hpc
  | @gotProcess d live bytes =>
    rw [writeProcess_eq]
    refine (h.setWay (d := d) (w := { s.way d with
      received := (s.way d).received ++ bytes
      storedData := (s.way d).storedData ++ [Packet.ofData bytes]
      block := (s.way d).block.map fun b => b.updateAvailable (UInt32.ofNat bytes.length + 5)
      relay := .writeProcess (s.asyncWriteProcess (frame d.dataType bytes)) })
        (l := [Packet.ofData bytes]) ⟨?_, ?_, ?_, fun _ => .inr (by simp), fun gen w hpc => ?_⟩).same
          rfl id rfl rfl rfl
    · simp
    · simp
    · have : bytes.length % 2 ^ 32 ≤ bytes.length := Nat.mod_le _ _
      simpa [Packet.ofData] using this
    · simp at hpc
  | @readEof d =>
    rw [relayEof_eq]
    exact Parting.relayClose (s := { s with eof := true, trace := _ })
      (h.same rfl id rfl rfl rfl) d
  | readError => exact h.relayClose _
  | @pushPeer t k d w hw hl ho =>
    have hclosed : s.hasClosed = true := by cases t <;> exact hc
    rw [hs.dst d, hclosed] at ho; cases ho
  | @pushLink t k w hw hi hg hsock =>
    have hclosed : s.hasClosed = true := by cases t <;> exact hc
    exact hopen hclosed (by rw [hsock]; simp)
  | @pull i k r hr hi hg hsock => exact hopen hc (by rw [hsock]; simp)
  | @issueWrite t w hw hi hr =>
    cases t with
    | relay d =>
      refine h.setRelay d (setLinkWrite_unsent hw hr) fun gen u hu => ?_
      cases hpc : (s.way d).relay <;> rw [hpc] at hu <;> cases hu
      exact h.flush d _ _ hpc
    | connector j =>
      exact h.setConnector (j := j) (fun hn => by rw [linkWrite, hn] at hw; cases hw) rfl rfl rfl rfl
        rfl
    | reader i => cases hw
    | detector k => cases hw
  | @issueRead i r hr hi hlt =>
    obtain ⟨hp, hf, hh, hrel⟩ := linkRead_setLinkRead hr (v := { r with
      gen := s.conns, io := s.issued })
    have hpc : ((s.noteRead i).readers i).pc = (s.readers i).pc := by rw [noteRead_readers]
    refine (h.noteRead i).setReader ?_ (fun u hu hfin => ?_) fun d count next w hw => ?_ <;>
      rw [hpc] at *
    · rw [hp, hf]; exact h.plain i
    · rw [hh u hu] at hfin
      have := hfin.2
      simp only at this
      omega
    · exact absurd hw (hrel d count next w)
  | notified => exact h.setRelay _ (fun hu => hu.elim) (by simp)
  | notifyFailed => exact (h.breakLink _).setRelay _ (fun hu => hu.elim) (by simp)
  | wroteDirect => exact h.relayLoop _
  | wroteProcess => exact h.relayLoop _
  | @processFailed d w hpc hf =>
    have hne : (s.way d).storedData ≠ [] := by
      have hu : (s.way d).relay.Unsent := by
        rw [hpc]; exact fun hfin => hf hfin.1
      exact List.ne_nil_of_length_pos ((h.keeps d).lt hu)
    refine relayFlush_ind (P := fun s' => s'.hasClosed = true → Parting s') (fun hn => ?_)
      (fun _ hc => ?_) hc
    · rw [breakLink_way] at hn
      exact absurd hn hne
    · have hclosed : (s.breakLink w).hasClosed = true := hc
      refine ((h.breakLink w).same (x := { s.breakLink w with bypass := true, trace := _ }) rfl id
        rfl rfl rfl).setRelay d (fun hu => hu.elim) fun gen u hu => ?_
      cases hu
      show (s.breakLink w).dstOpen d = false
      rw [(hs.breakLink w).dst d, hclosed]
      rfl
  | @relayFlushed d gen w hpc hf =>
    have hl := hf.1
    rw [h.flush d gen w hpc] at hl
    cases hl
  | relayWriteFailed => exact h.relayClose _
  | @gotHead i r hpc hf hb => exact absurd (h.head i r hpc hf).1 hb
  | @gotHeadOnly i r hpc hf hb => exact h.dispatch hs hb (by rw [hpc]; simp) hc
  | @gotBody i head r hpc =>
    have := (h.plain i).1
    rw [hpc] at this
    exact this.elim
  | @readFailed i r =>
    refine readerFailed_ind (P := fun s' => s'.hasClosed = true → Parting s') (fun _ _ => ?_)
      (fun ho hc => ?_) hc
    · exact h.setReader ⟨trivial, id⟩ (by simp) (by simp)
    · rw [readerFlushServer_hasClosed, ho] at hc; cases hc
  | @wroteNew i d conn head w hpc =>
    have := (h.plain i).1
    rw [hpc] at this
    exact this.elim
  | @released i d count next w hpc hf => exact h.clearReleased hs hpc hf.1
  | readerWriteFailed => exact h.graceClose.setReader ⟨trivial, id⟩ (by simp) (by simp)
  | @flushedServer i gen w hpc | @flushServerFailed i gen w hpc | @flushedClient i gen w hpc
  | @flushClientFailed i gen w hpc => exact absurd (by rw [hpc]; trivial) (h.plain i).2
  | connected hpc => exact h.setConnector (by rw [hpc]; simp) rfl rfl rfl rfl rfl
  | connectFailed hpc => exact h.setConnector (by rw [hpc]; simp) rfl rfl rfl rfl rfl
  | retry hpc =>
    refine connectLoop_ind (fun _ => ?_) fun _ => ?_
    · exact h.setConnector (by rw [hpc]; simp) rfl rfl rfl rfl rfl
    · exact h.setConnector (by rw [hpc]; simp) rfl rfl rfl rfl rfl
  | wroteTuple hpc => exact h.superviseProcess hs (by rw [hpc]; simp)
  | @tupleFailed j conn w hpc =>
    refine (h.breakLink w).setConnector (j := j) (q := .done) ?_ rfl rfl rfl rfl rfl
    refine breakLink_ind (P := fun s' => s'.connectors j ≠ .done) (fun _ => ?_) fun _ => ?_ <;>
      simp [hpc]
  | timedOut => exact h.same rfl id rfl rfl rfl
  | rearm =>
    obtain ⟨ds, hd⟩ := s.detectLoop_detectors _ _
    rw [hd]
    exact h.same rfl id rfl rfl rfl
  | connect hpc hsock => exact hopen hc (by rw [hsock]; simp)
  | expire => exact h.same rfl id rfl rfl rfl
  | respond => exact h.same rfl id rfl rfl rfl

end Parting

end CppProxy
