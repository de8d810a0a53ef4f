/-
  cpp_proxy — the moves of a session whose connection lasts.

  While the session is open and no operation on the process socket fails, there is
  one connector and one reader, which reads heads without new data, and nothing is
  flushed.  Of the rules of a session only some are left.

  * `Lasting`: these rules, with what is known where they apply;
  * `IntactAndCounted.lasting`: a step that keeps the connection, and leaves the session
    open, is one of them.
-/
import CppProxy.Delivery

namespace CppProxy

open Session Runs

/-- The moves of an open session whose process connection lasts. -/
inductive Lasting (s : Session) : Event → Session → Prop
  -- the relays
  | gotDirect {d live bytes} (hpc : (s.way d).relay = .readDirect live) :
      Lasting s (.read d (.data bytes)) (s.writeDirect d bytes)
  | gotProcess {d live bytes} (hpc : (s.way d).relay = .readProcess live) :
      Lasting s (.read d (.data bytes)) (s.writeProcess d bytes)
  | pushDirect {d k w} (hpc : (s.way d).relay = .writeDirect w) (h0 : 0 < k)
      (hk : k ≤ w.rest.length) :
      Lasting s (.push (.relay d) k) (s.setWay d { s.way d with
        accepted := (s.way d).accepted ++ w.rest.take k
        relay := .writeDirect { w with rest := w.rest.drop k } })
  | notified {d w} (hpc : (s.way d).relay = .notify w) (hf : w.Finished) :
      Lasting s (.complete (.relay d)) (s.relayDirect d)
  | wroteDirect {d w} (hpc : (s.way d).relay = .writeDirect w) (hf : w.Finished) :
      Lasting s (.complete (.relay d)) (s.relayLoop d)
  | wroteProcess {d w} (hpc : (s.way d).relay = .writeProcess w) (hf : w.Finished) :
      Lasting s (.complete (.relay d)) (s.relayLoop d)
  -- the frames
  | issueWrite {t w} (hw : s.linkWrite t = some w) (hi : w.io = .idle) (hr : w.rest ≠ []) :
      Lasting s (.issue t) (s.setLinkWrite { w with gen := s.conns, io := s.issued } t)
  | pushLink {t k w} (hw : s.linkWrite t = some w) (hi : w.io = .live) (h0 : 0 < k)
      (hk : k ≤ w.rest.length) :
      Lasting s (.push t k)
        ((s.sendLink w k).setLinkWrite { w with io := .idle, rest := w.rest.drop k } t)
  -- the reader
  | issueRead {r} (hpc : (s.readers 0).pc = .readHead r) (hi : r.io = .idle)
      (hw : r.got.length < r.want) : Lasting s (.issue (.reader 0))
        ((s.noteRead 0).setReader 0 (.readHead { r with gen := s.conns, io := s.issued }))
  | pull {k r} (hpc : (s.readers 0).pc = .readHead r) (hi : r.io = .live) (h0 : 0 < k)
      (hk : k ≤ r.want - r.got.length) (hin : k ≤ s.link.inbound.length) :
      Lasting s (.pull 0 k) ((s.setLink { s.link with
        inbound := s.link.inbound.drop k }).setReader 0
          (.readHead { r with io := .idle, got := r.got ++ s.link.inbound.take k }))
  | gotHead {r} (hpc : (s.readers 0).pc = .readHead r) (hf : r.Finished)
      (hl : r.got.length = responseHeadLen) (hb : (ResponseHead.ofBytes r.got).newDataLen = 0) :
      Lasting s (.complete (.reader 0)) (s.dispatch 0 r.gen (ResponseHead.ofBytes r.got) [])
  | pushRelease {d count next k w} (hpc : (s.readers 0).pc = .release d count next w) (h0 : 0 < k)
      (hk : k ≤ w.rest.length) : Lasting s (.push (.reader 0) k)
        ((s.accept d (w.rest.take k)).setReader 0
          (.release d count next { w with rest := w.rest.drop k }))
  | released {d count next w} (hpc : (s.readers 0).pc = .release d count next w)
      (hf : w.Finished) : Lasting s (.complete (.reader 0)) (s.clearReleased 0 d count next)
  -- `connect_process`
  | connectFailed (hpc : s.connectors 0 = .connecting false) :
      Lasting s (.fail (.connector 0)) (s.setConnector 0 .waiting)
  | retry (hpc : s.connectors 0 = .waiting) :
      Lasting s (.complete (.connector 0)) (s.asyncConnect 0)
  | connect (hpc : s.connectors 0 = .connecting false) (hs : s.proxyProcessSocket = .opened) :
      Lasting s (.connect 0) { s with
        proxyProcessSocket := .connected
        conns := s.conns + 1
        links := Function.update s.links (s.conns + 1) {}
        connectors := Function.update s.connectors 0 (.connecting true) }
  | connected (hpc : s.connectors 0 = .connecting true) :
      Lasting s (.complete (.connector 0)) (s.fourTuple2process 0)
  | wroteTuple {conn w} (hpc : s.connectors 0 = .fourTuple conn w) (hf : w.Finished)
      (hn : s.nReaders = 0) : Lasting s (.complete (.connector 0)) (s.superviseProcess 0 conn)
  -- the timer, and the process
  | rearm {k conn} : Lasting s (.complete (.detector k)) (s.detectLoop k conn)
  | expire {k conn} : Lasting s (.expire k) { s with
      detectors := Function.update s.detectors k (.waiting conn .fired) }
  | respond {g r} (h0 : 0 < g) (hg : g ≤ s.conns) :
      Lasting s (.respond g r) { s with links := Function.update s.links g { s.links g with
        responses := (s.links g).responses ++ [r]
        inbound := (s.links g).inbound ++ r.bytes } }

namespace IntactAndCounted

variable {s s' : Session}

/-- The reader reads heads, or releases packets. -/
theorem reader_pc (h : IntactAndCounted s) (ho : s.hasClosed = false) {i : ℕ}
    (hi : (s.readers i).pc ≠ .done) : i = 0 ∧ ((∃ r, (s.readers 0).pc = .readHead r) ∨
      ∃ d count next w, (s.readers 0).pc = .release d count next w) := by
  obtain rfl := ((h.oneConnection ho).reader_eq h.shape hi).1
  have hplain := h.streams.plain ho 0
  have hflush := (h.oneConnection ho).noFlush.2 0 (h.shape.reader_lt hi)
  refine ⟨rfl, ?_⟩
  cases hpc : (s.readers 0).pc with
  | readHead r => exact .inl ⟨r, rfl⟩
  | release d count next w => exact .inr ⟨d, count, next, w, rfl⟩
  | readBody | writeNew => rw [hpc] at hplain; exact hplain.elim
  | flushServer | flushClient => rw [hpc] at hflush; exact absurd trivial hflush
  | done => exact absurd hpc hi

/-- A reader that reads, reads the head of a response. -/
theorem linkRead_eq (h : IntactAndCounted s) (ho : s.hasClosed = false) {i : ℕ} {r : LinkRead}
    (hr : s.linkRead i = some r) : i = 0 ∧ (s.readers 0).pc = .readHead r := by
  have hi : (s.readers i).pc ≠ .done := fun hd => by rw [linkRead, hd] at hr; cases hr
  obtain ⟨rfl, ⟨r', hpc⟩ | ⟨d, count, next, w, hpc⟩⟩ := h.reader_pc ho hi
  · rw [linkRead, hpc] at hr
    cases hr
    exact ⟨rfl, hpc⟩
  · rw [linkRead, hpc] at hr
    cases hr

/-- A head is read whole before it is handled. -/
theorem head_length (h : IntactAndCounted s) (ho : s.hasClosed = false) {r : LinkRead}
    (hpc : (s.readers 0).pc = .readHead r) (hf : r.Finished) :
    r.got.length = responseHeadLen := by
  have hc := h.counted ho
  obtain ⟨pending, -, haw, -⟩ := hc.answers.reader 0
    (hc.one.owns_of_serving hc.shape (by rw [hpc]; exact hf.1))
  rw [hpc] at haw
  exact hf.2.trans haw.1

/-- **An open session whose connection lasts** moves by the rules that are left. -/
theorem lasting (h : IntactAndCounted s) (ho : s.hasClosed = false) {e : Event} (hC : KeepsConnection s e)
    (hr : Rule s e s') (ho' : s'.hasClosed = false) : Lasting s e s' := by
  have ht := h.oneConnection ho
  have hplain := h.streams.plain ho
  have hclosed : ∀ {s' : Session}, s'.hasClosed = true → s'.hasClosed = false →
      Lasting s e s' := fun h₁ h₂ => by rw [h₁] at h₂; cases h₂
  have hreader : ∀ {i}, (s.readers i).pc ≠ .done → i = 0 := fun hi => (h.reader_pc ho hi).1
  have hflush : ∀ {i}, (s.readers i).pc.IsFlush → False := fun {i} hf =>
    ht.noFlush.2 i (h.shape.reader_lt fun hd => by rw [hd] at hf; exact hf) hf
  cases hr with
  | gotDirect hpc => exact .gotDirect hpc
  | gotProcess hpc => exact .gotProcess hpc
  | readEof =>
    rw [relayEof_eq] at ho' ⊢
    exact hclosed (graceClose_hasClosed _) ho'
  | readError | relayWriteFailed | readerWriteFailed => exact hclosed (graceClose_hasClosed s) ho'
  | @pushPeer t k d w hw _ _ h0 hk =>
    cases t with
    | relay d' =>
      cases hpc : (s.way d').relay with
      | writeDirect w' =>
        simp only [peerWrite, hpc, RelayPc.peerWrite, Option.map_some, Option.some.injEq,
          Prod.mk.injEq] at hw
        obtain ⟨rfl, rfl⟩ := hw
        have hs := Lasting.pushDirect hpc h0 hk
        simp only [setPeerWrite, setRelay, accept, setWay_way, Function.update_self, hpc,
          RelayPc.setPeerWrite]
        simpa [setWay] using hs
      | flush => exact absurd (by rw [hpc]; trivial) (ht.noFlush.1 d')
      | _ => rw [peerWrite, hpc] at hw; cases hw
    | reader i =>
      have hi : (s.readers i).pc ≠ .done := fun hd => by rw [peerWrite, hd] at hw; cases hw
      obtain ⟨rfl, ⟨r, hpc⟩ | ⟨d', count, next, w', hpc⟩⟩ := h.reader_pc ho hi
      · rw [peerWrite, hpc] at hw; cases hw
      · rw [peerWrite, hpc] at hw
        cases hw
        simp only [setPeerWrite]
        rw [show ((s.accept d (w.rest.take k)).readers 0).pc = .release d count next w from hpc]
        exact .pushRelease hpc h0 hk
    | connector | detector => cases hw
  | pushLink hw hi _ _ _ h0 hk => exact .pushLink hw hi h0 hk
  | @pull i k r hr hi _ _ h0 hk hin =>
    obtain ⟨rfl, hpc⟩ := h.linkRead_eq ho hr
    have hs := Lasting.pull hpc hi h0 hk hin
    simpa [setLinkRead, hpc, ReaderPc.setLinkRead, setLink] using hs
  | issueWrite hw hi hr => exact .issueWrite hw hi hr
  | @issueRead i r hr hi hw =>
    obtain ⟨rfl, hpc⟩ := h.linkRead_eq ho hr
    have hs := Lasting.issueRead hpc hi hw
    simpa [setLinkRead, hpc, ReaderPc.setLinkRead] using hs
  | notified hpc hf => exact .notified hpc hf
  | @notifyFailed d w hpc =>
    have := hC ho
    rw [linkWrite, hpc] at this; cases this
  | wroteDirect hpc hf => exact .wroteDirect hpc hf
  | wroteProcess hpc hf => exact .wroteProcess hpc hf
  | @processFailed d w hpc =>
    have := hC ho
    rw [linkWrite, hpc] at this; cases this
  | @relayFlushed d gen w hpc => exact absurd (by rw [hpc]; trivial) (ht.noFlush.1 d)
  | @gotHead i r hpc hf hb => exact absurd (ht.noNewData (h.counted ho) hpc hf) hb
  | @gotHeadOnly i r hpc hf hb =>
    obtain rfl := hreader (i := i) (by rw [hpc]; simp)
    exact .gotHead hpc hf (h.head_length ho hpc hf) hb
  | @gotBody i head r hpc =>
    have := hplain i
    rw [hpc] at this; exact this.elim
  | @readFailed i r hr =>
    have := hC ho
    rw [hr] at this; cases this
  | @wroteNew i d conn head w hpc =>
    have := hplain i
    rw [hpc] at this; exact this.elim
  | @released i d count next w hpc hf =>
    obtain rfl := hreader (i := i) (by rw [hpc]; simp)
    exact .released hpc hf
  | flushedServer hpc | flushServerFailed hpc | flushedClient hpc | flushClientFailed hpc =>
    exact (hflush (by rw [hpc]; trivial)).elim
  | @connected j hpc =>
    obtain rfl := ht.connector_eq h.shape (j := j) (by rw [hpc]; simp)
    exact .connected hpc
  | @connectFailed j hpc =>
    obtain rfl := ht.connector_eq h.shape (j := j) (by rw [hpc]; simp)
    exact .connectFailed hpc
  | @retry j hpc =>
    obtain rfl := ht.connector_eq h.shape (j := j) (by rw [hpc]; simp)
    rw [show s.connectLoop 0 = s.asyncConnect 0 from if_neg (by simp [ho])]
    exact .retry hpc
  | @wroteTuple j conn w hpc hf =>
    obtain rfl := ht.connector_eq h.shape (j := j) (by rw [hpc]; simp)
    refine .wroteTuple hpc hf ?_
    rw [ht.readers, if_neg (by rw [hpc]; simp)]
  | @tupleFailed j conn w hpc =>
    have := hC ho
    rw [linkWrite, hpc] at this; cases this
  | @timedOut k conn hpc =>
    have := hC ho
    rw [hpc] at this; exact absurd trivial this
  | rearm => exact .rearm
  | @connect j hpc hs =>
    obtain rfl := ht.connector_eq h.shape (j := j) (by rw [hpc]; simp)
    exact .connect hpc hs
  | expire => exact .expire
  | respond h0 hg => exact .respond h0 hg

end IntactAndCounted

end CppProxy
