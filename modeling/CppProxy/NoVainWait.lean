/-
  cpp_proxy — nothing waits in vain.

  While the connection lasts, each coroutine of an open session awaits something
  that the kernel, a peer or the process will do.

  * `Session.NoVainWait`: the operations in progress were started on the sockets that
    are open now, and the totals of the responses that were handled are reached;
  * `NoVainWait.step`: every step keeps this;
  * `Process.Answering`: the process reads frames or answers one, and has answered
    every payload that it has handled;
  * `Answering.step`: its steps keep this.
-/
import CppProxy.Work

namespace CppProxy

open Session Runs

/-! ## The proxy -/

/-- A write to a peer was started while the session was open, and a frame for the
    process has the type of the direction. -/
def RelayPc.NoVainWait (d : Dir) : RelayPc → Prop
  | writeDirect w => w.live = true
  | notify w | writeProcess w => w.frame.head? = some d.dataType.code
  | _ => True

/-- A socket that is not connected yet is open, and the four tuple is sent first. -/
def ConnectorPc.NoVainWait (socket : Sock) : ConnectorPc → Prop
  | connecting false | waiting => socket = .opened
  | fourTuple _ w => w.frame.head? = some DataType.fourTuple.code
  | _ => True

/-- A read of a head was started on connection `conn`, and wants more. -/
def ReaderPc.NoVainWait (conn : ℕ) : ReaderPc → Prop
  | readHead r => r.gen = conn ∧ r.io ≠ .dead ∧ r.got.length ≤ r.want ∧
      (r.io = .live → r.got.length < r.want)
  | release _ _ _ w => w.live = true
  | _ => True

/-- What is inbound, behind the part of a head that was read, are the responses
    `pending`. -/
def ReaderPc.Ahead (inbound : List Byte) (pending : List Response) : ReaderPc → Prop
  | readHead r => r.want = responseHeadLen ∧ r.got ++ inbound = encode pending
  | release _ _ _ _ | done => inbound = encode pending
  | _ => False

namespace Session

variable (s : Session)

/-- The counters have reached the totals of these responses. -/
def Reached (handled : List Response) : Prop :=
  ∀ d : Dir, ∀ r ∈ handled, DataType.ofCode r.head.type = some d.dataType →
    r.head.handledTotalPkgLen ≤ (s.way d).handledTotalPkgLen

/-- The responses of the connection are those that were handled, whose totals are
    reached, and those ahead of the reader. -/
def Heard : Prop := ∃ handled pending, s.link.responses = handled ++ pending ∧
  (s.readers 0).pc.Ahead s.link.inbound pending ∧ s.Reached handled

/-- No coroutine of an open session waits in vain. -/
structure NoVainWait : Prop where
  relay : ∀ d, (s.way d).relay.NoVainWait d
  reader : (s.readers 0).pc.NoVainWait s.conns
  connector : (s.connectors 0).NoVainWait s.proxyProcessSocket
  spawned : s.connectors 0 = .done → (s.readers 0).pc ≠ .done
  heard : s.Heard

end Session

namespace Session.NoVainWait

variable {s s' : Session}

/-- Nothing that the reader awaits changes. -/
theorem keep (h : s.NoVainWait) (hr : (s'.readers 0).pc = (s.readers 0).pc) (hc : s'.conns = s.conns)
    (hw : ∀ d, (s'.way d).relay.NoVainWait d ∧
      (s'.way d).handledTotalPkgLen = (s.way d).handledTotalPkgLen)
    (ho : (s'.connectors 0).NoVainWait s'.proxyProcessSocket)
    (hs : s'.connectors 0 = .done → s.connectors 0 = .done)
    (hl : s'.link.responses = s.link.responses ∧ s'.link.inbound = s.link.inbound) : s'.NoVainWait := by
  refine ⟨fun d => (hw d).1, by rw [hr, hc]; exact h.reader, ho,
    fun hd => by rw [hr]; exact h.spawned (hs hd), ?_⟩
  obtain ⟨handled, pending, hres, ha, hreach⟩ := h.heard
  refine ⟨handled, pending, hl.1.trans hres, by rw [hr, hl.2]; exact ha, fun d r hm ht => ?_⟩
  rw [(hw d).2]
  exact hreach d r hm ht

theorem setWay (h : s.NoVainWait) {d : Dir} {w : Way} (ha : w.relay.NoVainWait d)
    (hH : w.handledTotalPkgLen = (s.way d).handledTotalPkgLen) : (s.setWay d w).NoVainWait := by
  refine h.keep rfl rfl (fun d' => ?_) h.connector id ⟨rfl, rfl⟩
  by_cases hd : d' = d
  · subst hd
    rw [setWay_way, Function.update_self]
    exact ⟨ha, hH⟩
  · rw [setWay_way, Function.update_of_ne hd]
    exact ⟨h.relay d', rfl⟩

/-- A relay begins its next iteration in a session that stays open. -/
theorem relayLoop (h : s.NoVainWait) {d : Dir} (ho : (s.relayLoop d).hasClosed = false) :
    (s.relayLoop d).NoVainWait := by
  refine relayLoop_ind (P := fun s' => s'.hasClosed = false → s'.NoVainWait) (fun _ hc => ?_)
    (fun _ _ _ => h.setWay trivial rfl)
    (fun _ _ hd _ _ => h.setWay (by subst hd; exact List.head?_cons) rfl)
    (fun _ _ _ _ => h.setWay trivial rfl) ho
  rw [show (s.graceClose.setRelay d .done).hasClosed = true from graceClose_hasClosed s] at hc
  cases hc

/-- The write to the process of a relay or of the connector goes on. -/
theorem setLinkWrite (h : s.NoVainWait) {t : Tid} {w v : LinkWrite} (ht : s.linkWrite t = some w)
    (hf : v.frame = w.frame) : (s.setLinkWrite v t).NoVainWait := by
  cases t with
  | relay d =>
    refine h.setWay ?_ rfl
    have ha := h.relay d
    simp only [linkWrite] at ht
    cases hpc : (s.way d).relay <;> rw [hpc] at ht ha <;> cases ht <;>
      exact (congrArg List.head? hf).trans ha
  | connector j =>
    simp only [linkWrite] at ht
    cases hpc : s.connectors j with
    | fourTuple conn w₁ =>
      rw [hpc] at ht
      cases ht
      by_cases hj : 0 = j
      · subst hj
        have hcon : (s.setLinkWrite v (.connector 0)).connectors 0 = .fourTuple conn v := by
          simp [Session.setLinkWrite, hpc, ConnectorPc.setLinkWrite, setConnector]
        have ha := h.connector
        rw [hpc] at ha
        refine h.keep rfl rfl (fun d => ⟨h.relay d, rfl⟩) ?_ (fun he => ?_) ⟨rfl, rfl⟩
        · rw [hcon]
          exact (congrArg List.head? hf).trans ha
        · rw [hcon] at he
          cases he
      · have hcon : (s.setLinkWrite v (.connector j)).connectors 0 = s.connectors 0 := by
          simp [Session.setLinkWrite, setConnector, hj]
        refine h.keep rfl rfl (fun d => ⟨h.relay d, rfl⟩) ?_ (fun he => ?_) ⟨rfl, rfl⟩
        · rw [hcon]
          exact h.connector
        · rw [hcon] at he
          exact he
    | _ => rw [hpc] at ht; cases ht
  | reader | detector => cases ht

/-- The reader goes on to something else, with the same responses ahead. -/
theorem setReader (h : s.NoVainWait) {pc : ReaderPc} (ha : pc.NoVainWait s.conns) (hd : pc ≠ .done)
    (hp : ∀ handled pending, s.link.responses = handled ++ pending →
      (s.readers 0).pc.Ahead s.link.inbound pending → s.Reached handled →
        ∃ handled' pending', s.link.responses = handled' ++ pending' ∧
          pc.Ahead s.link.inbound pending' ∧ s.Reached handled') : (s.setReader 0 pc).NoVainWait := by
  refine ⟨h.relay, ?_, h.connector, fun _ => ?_, ?_⟩
  · rw [setReader_readers, Function.update_self]
    exact ha
  · rw [setReader_readers, Function.update_self]
    exact hd
  · obtain ⟨handled, pending, hres, haw, hreach⟩ := h.heard
    obtain ⟨handled', pending', hres', haw', hreach'⟩ := hp handled pending hres haw hreach
    refine ⟨handled', pending', hres', ?_, hreach'⟩
    rw [setReader_readers, Function.update_self]
    exact haw'

theorem noteRead (h : s.NoVainWait) : (s.noteRead 0).NoVainWait :=
  noteRead_ind (fun _ => h.keep rfl rfl (fun d => ⟨h.relay d, rfl⟩) h.connector id (by simp))
    fun _ => h

/-- A read that is issued on the connection is live. -/
theorem issued_live (hu : s.proxyProcessSocket = .connected) : s.issued = .live := if_pos hu

theorem reader_start (hu : s.proxyProcessSocket = .connected) :
    (ReaderPc.readHead (s.asyncReadProcess responseHeadLen)).NoVainWait s.conns := by
  simp [ReaderPc.NoVainWait, asyncReadProcess, issued_live hu, responseHeadLen]

/-- The reader reads the next head. -/
theorem readHead (h : s.NoVainWait) (hu : s.proxyProcessSocket = .connected)
    (hp : ∀ handled pending, s.link.responses = handled ++ pending →
      (s.readers 0).pc.Ahead s.link.inbound pending → s.Reached handled →
        ∃ handled' pending', s.link.responses = handled' ++ pending' ∧
          s.link.inbound = encode pending' ∧ s.Reached handled') : (s.readHead 0).NoVainWait := by
  have hres : (s.noteRead 0).link.responses = s.link.responses ∧
      (s.noteRead 0).link.inbound = s.link.inbound :=
    noteRead_ind (P := fun s' => s'.link.responses = s.link.responses ∧
      s'.link.inbound = s.link.inbound) (fun _ => by simp) fun _ => ⟨rfl, rfl⟩
  refine h.noteRead.setReader ?_ (by simp) fun handled pending hr ha hreach => ?_
  · rw [noteRead_conns]
    exact reader_start hu
  · rw [hres.1] at hr ⊢
    rw [hres.2, noteRead_readers] at ha
    rw [hres.2]
    have hreach : s.Reached handled := fun d => by rw [← noteRead_way s 0]; exact hreach d
    obtain ⟨handled', pending', hr', hi', hreach'⟩ := hp handled pending hr ha hreach
    refine ⟨handled', pending', hr', ⟨rfl, hi'⟩, fun d => ?_⟩
    rw [noteRead_way]
    exact hreach' d

/-- A response is acted on for its direction, or the reader reads the next one. -/
theorem dispatch_eq (s : Session) (conn : ℕ) (head : ResponseHead) (buf : List Byte) :
    (∃ d : Dir, DataType.ofCode head.type = some d.dataType ∧ s.dispatch 0 conn head buf =
      (s.emit (.response 0 head)).innerProxy2clientOr2server 0 d conn head buf) ∨
    (∀ d : Dir, DataType.ofCode head.type ≠ some d.dataType) ∧
      (s.dispatch 0 conn head buf = (s.emit (.response 0 head)).readHead 0 ∨
        s.dispatch 0 conn head buf = (s.emit (.response 0 head)).cancelTimer.readHead 0) := by
  unfold dispatch
  cases ht : DataType.ofCode head.type with
  | none => exact .inr ⟨fun d => by simp, .inl rfl⟩
  | some type =>
    cases type with
    | fromClientToServer => exact .inl ⟨.req, rfl, rfl⟩
    | fromServerToClient => exact .inl ⟨.res, rfl, rfl⟩
    | fourTuple => exact .inr ⟨fun d => by cases d <;> decide, .inl rfl⟩
    | heartbeat => exact .inr ⟨fun d => by cases d <;> decide, .inr rfl⟩

/-- What is released is written, and the counter reaches the total of the response. -/
theorem releasing (h : s.NoVainWait) (ha : Answers s) {d : Dir} (hdst : s.dstOpen d = true) (conn : ℕ)
    {resp : Response} {handled rest : List Response}
    (hres : s.link.responses = handled ++ resp :: rest) (hin : s.link.inbound = encode rest)
    (hreach : s.Reached handled) (ht : DataType.ofCode resp.head.type = some d.dataType)
    {p : Prepared} (hp : p.handledTotalPkgLen = resp.head.handledTotalPkgLen) :
    (s.releasing 0 d conn resp.head p).NoVainWait := by
  have hother : ∀ d', d' ≠ d → (s.releasing 0 d conn resp.head p).way d' = s.way d' :=
    fun d' hd => by simp [Session.releasing, hd]
  have hself : ((s.releasing 0 d conn resp.head p).way d).handledTotalPkgLen =
      resp.head.handledTotalPkgLen := by simpa [Session.releasing] using hp
  refine ⟨fun d' => ?_, ?_, h.connector, fun _ => ?_, handled ++ [resp], rest, ?_, ?_, ?_⟩
  · by_cases hd : d' = d
    · subst hd
      simpa [Session.releasing] using h.relay d'
    · exact (hother d' hd) ▸ h.relay d'
  · simpa [Session.releasing, ReaderPc.NoVainWait, asyncWrite] using hdst
  · simp [Session.releasing]
  · rw [List.append_assoc]
    exact hres
  · simpa [Session.releasing, ReaderPc.Ahead, link] using hin
  · intro d' x hx hxt
    by_cases hd : d' = d
    · -- the counter is the total of this response, and no earlier one has a greater total
      subst hd
      rw [hself]
      rcases List.mem_append.1 hx with hx | hx
      · have hsort := ha.sorted
        rw [hres] at hsort
        exact (List.pairwise_append.1 hsort).2.2 x hx resp (by simp) d' hxt ht
      · rw [List.mem_singleton.1 hx]
        exact UInt64.le_refl _
    · rw [hother d' hd]
      rcases List.mem_append.1 hx with hx | hx
      · exact hreach d' x hx hxt
      · rw [List.mem_singleton.1 hx, ht] at hxt
        exact absurd (by cases d <;> cases d' <;> first | rfl | cases hxt) hd

/-- **The head of a response is handled**: the counter of its direction reaches its
    total. -/
theorem dispatch (h : s.NoVainWait) (ha : Answers s) (hu : s.proxyProcessSocket = .connected)
    (hdst : ∀ d, s.dstOpen d = true) {r : LinkRead} (hpc : (s.readers 0).pc = .readHead r)
    (hl : r.got.length = responseHeadLen) (hb : (ResponseHead.ofBytes r.got).newDataLen = 0)
    (hex : ∀ d : Dir, DataType.ofCode (ResponseHead.ofBytes r.got).type = some d.dataType →
      (prepareTransferPacket (ResponseHead.ofBytes r.got) (s.way d).storedData
        (s.way d).handledTotalPkgLen).handledTotalPkgLen =
          (ResponseHead.ofBytes r.got).handledTotalPkgLen)
    (ho : (s.dispatch 0 r.gen (ResponseHead.ofBytes r.got) []).hasClosed = false) :
    (s.dispatch 0 r.gen (ResponseHead.ofBytes r.got) []).NoVainWait := by
  obtain ⟨handled, pending, hres, haw, hreach⟩ := h.heard
  rw [hpc] at haw
  obtain ⟨resp, rest, rfl, hg, hin⟩ := head_of_encode haw.2 hl
  have hhead : ResponseHead.ofBytes r.got = resp.head := by
    rw [hg, ResponseHead.ofBytes_bytes]
  rw [hhead] at hb hex ho ⊢
  have hbody : resp.body = [] := List.length_eq_zero_iff.1 (by rw [resp.body_len, hb]; rfl)
  rw [hbody, List.nil_append] at hin
  have hemit : (s.emit (.response 0 resp.head)).NoVainWait :=
    h.keep rfl rfl (fun d => ⟨h.relay d, rfl⟩) h.connector id ⟨rfl, rfl⟩
  rcases dispatch_eq s r.gen resp.head [] with ⟨d, ht, he⟩ | ⟨hn, he⟩
  · rw [he] at ho ⊢
    rw [innerProxy2clientOr2server, if_neg (not_not.2 hb)] at ho ⊢
    refine actOnHead_ind (P := fun s' => s'.hasClosed = false → s'.NoVainWait) (fun _ hc => ?_)
      (fun _ _ => ?_) ho
    · rw [show ((s.emit (.response 0 resp.head)).graceClose.setReader 0 .done).hasClosed = true from
        graceClose_hasClosed _] at hc
      cases hc
    · exact hemit.releasing (ha.emit _) (hdst d) r.gen hres hin hreach ht (hex d ht)
  · -- the response is not for a direction
    have hreach' : s.Reached (handled ++ [resp]) := by
      intro d x hx hxt
      rcases List.mem_append.1 hx with hx | hx
      · exact hreach d x hx hxt
      · rw [List.mem_singleton.1 hx] at hxt
        exact absurd hxt (hn d)
    have hs : ∀ x : Session, x.NoVainWait → x.link = s.link → x.way = s.way →
        x.proxyProcessSocket = s.proxyProcessSocket → (x.readHead 0).NoVainWait := by
      intro x hx hlink hway hsock
      refine hx.readHead (hsock.trans hu) fun _ _ _ _ _ => ⟨handled ++ [resp], rest, ?_, ?_, ?_⟩
      · rw [hlink, hres, List.append_assoc]
        rfl
      · rw [hlink, hin]
      · exact fun d => by rw [hway]; exact hreach' d
    rcases he with he | he <;> rw [he]
    · exact hs _ hemit rfl rfl rfl
    · exact hs _ (hemit.keep rfl rfl (fun d => ⟨h.relay d, rfl⟩) h.connector id ⟨rfl, rfl⟩) rfl rfl rfl

/-- The reader is spawned, and reads the first head. -/
theorem superviseProcess (h : s.NoVainWait) (hu : s.proxyProcessSocket = .connected)
    (hn : s.nReaders = 0) (hd : (s.readers 0).pc = .done) (conn : ℕ) :
    (s.superviseProcess 0 conn).NoVainWait := by
  obtain ⟨ds, n, he⟩ := s.superviseProcess_detectors 0 conn
  obtain ⟨handled, pending, hres, ha, hreach⟩ := h.heard
  rw [hd] at ha
  rw [he, hn]
  have hpc : (((s.spawning 0 conn).readHead 0).readers 0).pc =
      .readHead ((s.spawning 0 conn).asyncReadProcess responseHeadLen) := by
    simp [Session.readHead]
  have hlink : ((s.spawning 0 conn).readHead 0).link.responses = s.link.responses ∧
      ((s.spawning 0 conn).readHead 0).link.inbound = s.link.inbound :=
    noteRead_ind (s := s.spawning 0 conn) (P := fun s' => s'.link.responses = s.link.responses ∧
      s'.link.inbound = s.link.inbound) (fun _ => by rw [setLink_link]; exact ⟨rfl, rfl⟩)
      fun _ => ⟨rfl, rfl⟩
  have hway : ((s.spawning 0 conn).readHead 0).way = s.way :=
    noteRead_way (s.spawning 0 conn) 0
  have hcon : ((s.spawning 0 conn).readHead 0).connectors 0 = .done :=
    (congrFun (noteRead_connectors (s.spawning 0 conn) 0) 0).trans (by simp [Session.spawning])
  have hconns : ((s.spawning 0 conn).readHead 0).conns = s.conns :=
    noteRead_conns (s.spawning 0 conn) 0
  refine ⟨fun d => ?_, ?_, ?_, fun _ => ?_, handled, pending, hlink.1.trans hres, ?_, ?_⟩
  · show (((s.spawning 0 conn).readHead 0).way d).relay.NoVainWait d
    rw [hway]
    exact h.relay d
  · show ReaderPc.NoVainWait ((s.spawning 0 conn).readHead 0).conns
      (((s.spawning 0 conn).readHead 0).readers 0).pc
    rw [hpc, hconns]
    exact reader_start (s := s.spawning 0 conn) hu
  · show (((s.spawning 0 conn).readHead 0).connectors 0).NoVainWait _
    rw [hcon]
    trivial
  · show (((s.spawning 0 conn).readHead 0).readers 0).pc ≠ _
    rw [hpc]
    simp
  · show (((s.spawning 0 conn).readHead 0).readers 0).pc.Ahead
      ((s.spawning 0 conn).readHead 0).link.inbound pending
    rw [hpc, hlink.2]
    exact ⟨rfl, ha⟩
  · intro d r hr hrt
    show _ ≤ (((s.spawning 0 conn).readHead 0).way d).handledTotalPkgLen
    rw [hway]
    exact hreach d r hr hrt

/-- The process sends a response. -/
theorem respond (h : s.NoVainWait) (r : Response) : NoVainWait { s with
    links := Function.update s.links s.conns { s.links s.conns with
      responses := (s.links s.conns).responses ++ [r]
      inbound := (s.links s.conns).inbound ++ r.bytes } } := by
  obtain ⟨handled, pending, hres, ha, hreach⟩ := h.heard
  have henc : ∀ {l}, l = encode pending → l ++ r.bytes = encode (pending ++ [r]) := by
    rintro l rfl
    rw [encode_append, encode_cons, encode_nil, List.append_nil]
  refine ⟨h.relay, h.reader, h.connector, h.spawned, handled, pending ++ [r], ?_, ?_, hreach⟩
  · simp only [link, Function.update_self]
    rw [← List.append_assoc]
    exact congrArg (· ++ [r]) hres
  · simp only [link, Function.update_self]
    cases hpc : (s.readers 0).pc with
    | readHead r' =>
      rw [hpc] at ha
      refine ⟨ha.1, ?_⟩
      rw [← List.append_assoc]
      exact henc ha.2
    | release => rw [hpc] at ha; exact henc ha
    | done => rw [hpc] at ha; exact henc ha
    | readBody | writeNew | flushServer | flushClient => rw [hpc] at ha; exact ha.elim

/-- **An open session goes on so** while its connection lasts. -/
theorem step (h : s.NoVainWait) (hp : IntactAndCounted s) (hP : Parting s)
    (hb : ∀ d, (s.way d).received.length < 2 ^ 64) (ho : s.hasClosed = false) {e : Event}
    (hs : Lasting s e s') (ho' : s'.hasClosed = false) : s'.NoVainWait := by
  have ht := hp.oneConnection ho
  have hdst : ∀ d, s.dstOpen d = true := fun d => by rw [hp.shape.dst, ho]; rfl
  have hup : (s.readers 0).pc ≠ .done → s.proxyProcessSocket = .connected := fun hd =>
    (ht.steady hp.shape hd).1.1
  have hdone : s.connectors 0 ≠ .done → (s.readers 0).pc = .done := fun hc => by
    by_contra hd
    exact hc (ht.reader_eq hp.shape hd).2
  cases hs with
  | @gotDirect d live bytes hpc =>
    rw [writeDirect_eq]
    have h₁ := h.setWay (d := d) (w := { s.way d with
      received := (s.way d).received ++ bytes
      relay := .writeDirect (s.asyncWrite d bytes) }) (hdst d) rfl
    exact h₁.keep rfl rfl (fun d' => ⟨h₁.relay d', rfl⟩) h₁.connector id ⟨rfl, rfl⟩
  | @gotProcess d live bytes hpc =>
    rw [writeProcess_eq]
    have h₁ := h.setWay (d := d) (w := { s.way d with
      received := (s.way d).received ++ bytes
      storedData := (s.way d).storedData ++ [Packet.ofData bytes]
      block := (s.way d).block.map fun b => b.updateAvailable (UInt32.ofNat bytes.length + 5)
      relay := .writeProcess (s.asyncWriteProcess (frame d.dataType bytes)) })
      List.head?_cons rfl
    refine h₁.keep rfl rfl (fun d' => ⟨h₁.relay d', rfl⟩) h₁.connector id ?_
    show (s.framed d bytes s.conns).responses = s.link.responses ∧
      (s.framed d bytes s.conns).inbound = s.link.inbound
    unfold framed
    split
    · simp
    · exact ⟨rfl, rfl⟩
  | @pushDirect d k w hpc =>
    refine h.setWay ?_ rfl
    have := h.relay d
    rw [hpc] at this
    exact this
  | notified => exact h.setWay trivial rfl
  | wroteDirect => exact h.relayLoop ho'
  | wroteProcess => exact h.relayLoop ho'
  | issueWrite hw => exact h.setLinkWrite hw rfl
  | @pushLink t k w hw =>
    have h₁ : (s.sendLink w k).NoVainWait :=
      h.keep rfl rfl (fun d => ⟨h.relay d, rfl⟩) h.connector id (by simp [sendLink])
    exact h₁.setLinkWrite (t := t) (w := w) (by cases t <;> exact hw) rfl
  | @issueRead r hpc hi hw =>
    have hr := h.reader
    rw [hpc] at hr
    refine h.noteRead.setReader ?_ (by simp) fun handled pending hres ha hreach =>
      ⟨handled, pending, hres, ?_, hreach⟩
    · rw [noteRead_conns]
      refine ⟨rfl, ?_, hr.2.2.1, fun _ => hw⟩
      rw [issued_live (hup (by rw [hpc]; simp))]
      simp
    · rw [noteRead_readers, hpc] at ha
      exact ha
  | @pull k r hpc hi h0 hk hin =>
    have hr := h.reader
    rw [hpc] at hr
    obtain ⟨handled, pending, hres, ha, hreach⟩ := h.heard
    rw [hpc] at ha
    refine ⟨h.relay, ?_, h.connector, fun _ => by simp, handled, pending, ?_, ?_, hreach⟩
    · rw [setReader_readers, Function.update_self]
      refine ⟨hr.1, by simp, ?_, by simp⟩
      simp only [List.length_append, List.length_take]
      have := hr.2.2.1
      omega
    · rw [setReader_link, setLink_link]
      exact hres
    · rw [setReader_link, setLink_link, setReader_readers, Function.update_self]
      refine ⟨ha.1, ?_⟩
      rw [List.append_assoc, List.take_append_drop]
      exact ha.2
  | @gotHead r hpc hf hl hb' =>
    refine h.dispatch (hp.counted ho).answers (hup (by rw [hpc]; simp)) hdst hpc hl hb'
      (fun d ht => ?_) ho'
    obtain ⟨⟨n, -, htot⟩, hbound⟩ := (hP.head 0 r hpc hf).2 d ht
    exact (prepare_of_take _ (hbound.trans_lt (hb d)) htot).2
  | @pushRelease d count next k w hpc =>
    have hr := h.reader
    rw [hpc] at hr
    have h₁ : (s.accept d (w.rest.take k)).NoVainWait := h.setWay (h.relay d) rfl
    refine h₁.setReader hr (by simp) fun handled pending hres ha hreach =>
      ⟨handled, pending, hres, ?_, hreach⟩
    rw [show ((s.accept d (w.rest.take k)).readers 0).pc = .release d count next w from hpc] at ha
    exact ha
  | @released d count next w hpc hf =>
    have hu := hup (by rw [hpc]; simp)
    have hnext : ∀ x : Session, x.NoVainWait → (x.readers 0).pc = .release d count next w →
        x.proxyProcessSocket = .connected → (x.readHead 0).NoVainWait := fun x hx hpc hu =>
      hx.readHead hu fun handled pending hres ha hreach =>
        ⟨handled, pending, hres, by rw [hpc] at ha; exact ha, hreach⟩
    refine clearReleased_ind (P := Session.NoVainWait) (fun stored _ => ?_) fun _ => ?_
    · exact hnext _ (h.setWay (h.relay d) rfl) hpc hu
    · exact hnext { s with undefined := true }
        (h.keep rfl rfl (fun d => ⟨h.relay d, rfl⟩) h.connector id ⟨rfl, rfl⟩) hpc hu
  | connectFailed hpc =>
    have ha := h.connector
    rw [hpc] at ha
    refine h.keep rfl rfl (fun d => ⟨h.relay d, rfl⟩) ?_ (fun he => ?_) ⟨rfl, rfl⟩
    · simpa [setConnector, ConnectorPc.NoVainWait] using ha
    · simp [setConnector] at he
  | retry hpc =>
    have ha := h.connector
    rw [hpc] at ha
    have hs : s.proxyProcessSocket = .opened := ha
    refine h.keep rfl rfl (fun d => ⟨h.relay d, rfl⟩) ?_ (fun he => ?_) ⟨rfl, rfl⟩
    · simp [asyncConnect, hs, ConnectorPc.NoVainWait]
    · simp [asyncConnect] at he
  | connect hpc hs =>
    have hd := hdone (by rw [hpc]; simp)
    refine ⟨h.relay, by rw [hd]; trivial, ?_, fun he => ?_, [], [], ?_, ?_, ?_⟩
    · simp [ConnectorPc.NoVainWait]
    · simp at he
    · simp [link]
    · rw [hd]
      simp [link, ReaderPc.Ahead]
    · intro d r hr
      cases hr
  | connected hpc =>
    refine h.keep rfl rfl (fun d => ⟨h.relay d, rfl⟩) ?_ (fun he => ?_) ⟨rfl, rfl⟩
    · simp [fourTuple2process, setConnector, ConnectorPc.NoVainWait, asyncWriteProcess, frame]
    · simp [fourTuple2process, setConnector] at he
  | @wroteTuple conn w hpc hf hn =>
    exact h.superviseProcess (ht.up (by rw [hpc]; simp [ConnectorPc.IsDown])) hn
      (hdone (by rw [hpc]; simp)) conn
  | @rearm k conn =>
    obtain ⟨ds, hd⟩ := s.detectLoop_detectors k conn
    rw [hd]
    exact h.keep rfl rfl (fun d => ⟨h.relay d, rfl⟩) h.connector id ⟨rfl, rfl⟩
  | expire => exact h.keep rfl rfl (fun d => ⟨h.relay d, rfl⟩) h.connector id ⟨rfl, rfl⟩
  | @respond g r h0 hg =>
    have hc := ht.conns
    obtain rfl : g = s.conns := by
      split at hc <;> omega
    exact h.respond r

theorem init (c : Conf) : (Session.init c).NoVainWait := by
  refine ⟨fun d => by cases d <;> trivial, trivial, rfl, fun hd => ?_, [], [], rfl, rfl, ?_⟩
  · rw [show (Session.init c).connectors 0 = .connecting false from rfl] at hd
    cases hd
  · intro d r hr
    cases hr

end Session.NoVainWait

/-! ## The process -/

/-- The process reads or answers, and the last total of each direction was sent, or is
    the one that it answers with. -/
structure Process.Answering (p : Process) (responses : List Response) : Prop where
  goes : p.hasClosed = false ∧ p.setup ≠ .done
  answered : ∀ d : Dir, p.setup = .write (.start (passHead d.dataType (p.counter d))) ∨
    p.total d = 0 ∨ ∃ r ∈ responses, DataType.ofCode r.head.type = some d.dataType ∧
      r.head.handledTotalPkgLen.toNat = p.total d

namespace Process.Answering

variable {p p' : Process} {responses : List Response}

theorem init : Process.init.Answering [] :=
  ⟨⟨rfl, by simp [Process.init]⟩, fun d => .inr (.inl (by cases d <;> rfl))⟩

/-- The totals stay, and so do their answers. -/
theorem keep {more : List Response} (h : p.Answering responses)
    (hg : p'.hasClosed = false ∧ p'.setup ≠ .done) (ht : ∀ d, p'.total d = p.total d)
    (hs : ∀ d : Dir, p.setup = .write (.start (passHead d.dataType (p.counter d))) →
      p'.setup = .write (.start (passHead d.dataType (p'.counter d))) ∨
        ∃ r ∈ more, DataType.ofCode r.head.type = some d.dataType ∧
          r.head.handledTotalPkgLen.toNat = p.total d) : p'.Answering (responses ++ more) := by
  refine ⟨hg, fun d => ?_⟩
  rw [ht d]
  rcases h.answered d with hw | h0 | ⟨r, hr, hrt⟩
  · exact (hs d hw).imp_right fun ⟨r, hr, hrt⟩ => .inr ⟨r, List.mem_append_right _ hr, hrt⟩
  · exact .inr (.inl h0)
  · exact .inr (.inr ⟨r, List.mem_append_left _ hr, hrt⟩)

/-- `setup` has read a frame. -/
theorem turn {x : Process} {parses : Bool} (h : p.Answering responses) (hx : x.Turns p' parses)
    (he : x.eof = false) (hc : x.hasClosed = p.hasClosed) (ht : ∀ d, x.total d = p.total d)
    (hs : ∀ w, p.setup ≠ .write w) (hp : parses = true) : p'.Answering responses := by
  refine ⟨⟨(hx.hasClosed he).trans (hc.trans h.goes.1), ?_⟩, fun d => ?_⟩
  · rcases hx.setup with ⟨-, he' | hp'⟩ | hr | ⟨d, hw⟩
    · rw [he] at he'; cases he'
    · rw [hp] at hp'; cases hp'
    · rw [hr]; simp
    · rw [hw]; simp
  · rcases hx.total d with htot | hw
    · rw [htot, ht d]
      exact .inr ((h.answered d).resolve_left (hs _))
    · exact .inl hw

/-- The head of a total is begun. -/
theorem begins_start {k : ℕ} {d : Dir}
    (hw : p.setup = .write (.start (passHead d.dataType (p.counter d)))) :
    ∃ r, p.begins (.push .setup k) = some r ∧ r.head = passHead d.dataType (p.counter d) := by
  refine ⟨⟨passHead d.dataType (p.counter d), [], rfl⟩, ?_, rfl⟩
  simp only [begins, headWrite, hw, Option.bind_some]
  rw [if_pos (by rfl), HeadWrite.start, ResponseHead.ofBytes_bytes]
  rfl

/-- **The process goes on answering**, if the four tuple is parsed. -/
theorem step (h : p.Answering responses) {e : ProcessEvent} (hst : p.step e = some p')
    (he : p.eof = false) (hc : ∀ d, (p.counter d).toNat = p.total d) (hf : ¬ e.Fails)
    (hne : ∀ garbage parses, e ≠ .readEof garbage parses)
    (hp : ∀ parses, e = .readDone parses → parses = true) :
    p'.Answering (responses ++ (p.begins e).toList) := by
  have hnil : ∀ {p' : Process}, p'.Answering responses → p'.Answering (responses ++ []) := by
    intro p' h'
    rw [List.append_nil]
    exact h'
  cases e with
  | pull bytes =>
    simp only [Process.step] at hst
    split at hst
    case h_2 => cases hst
    case h_1 got want hq =>
      split at hst <;> cases hst
      refine h.keep ⟨h.goes.1, ?_⟩ (fun _ => rfl) fun d hw => ?_
      · show p.setup.setGot (got ++ bytes) ≠ .done
        cases hpc : p.setup <;> rw [hpc] at hq <;> cases hq <;> simp [SetupPc.setGot]
      · rw [hw] at hq
        cases hq
  | readDone parses =>
    refine hnil ?_
    have hp := hp parses rfl
    simp only [Process.step] at hst
    split at hst
    · rename_i got hpc
      have hs : ∀ w, p.setup ≠ .write w := fun w hw => by rw [hpc] at hw; cases hw
      split at hst <;> cases hst
      unfold setupHead
      dsimp only
      split
      · have hk : Process.Answering { p.growBuf (bodyLen got).toNat with
            setup := .readBody got [] } (responses ++ []) :=
          h.keep ⟨h.goes.1, by simp⟩ (fun _ => rfl) fun d hw => absurd hw (hs _)
        rwa [List.append_nil] at hk
      · exact h.turn ((p.growBuf _).turns_handle got parses) he rfl (fun _ => rfl) hs hp
    · rename_i head got hpc
      have hs : ∀ w, p.setup ≠ .write w := fun w hw => by rw [hpc] at hw; cases hw
      split at hst <;> cases hst
      exact h.turn ((p.setBuf got).turns_handle head parses) he rfl (fun _ => rfl) hs hp
    · cases hst
  | readEof garbage parses => exact absurd rfl (hne _ _)
  | readError => exact absurd trivial hf
  | tick =>
    simp only [Process.step] at hst
    split at hst <;> cases hst
    exact h.keep h.goes (fun _ => rfl) fun d hw => .inl hw
  | cancelled =>
    simp only [Process.step] at hst
    split at hst
    · rw [if_neg (by simp [h.goes.1])] at hst
      cases hst
    · cases hst
  | push t k =>
    simp only [Process.step] at hst
    split at hst
    · rename_i w hw
      split at hst <;> cases hst
      cases t with
      | setup =>
        refine h.keep ⟨h.goes.1, by simp [setHeadWrite]⟩ (fun _ => rfl) fun d hd => .inr ?_
        obtain ⟨r, hr, hh⟩ := begins_start (k := k) hd
        refine ⟨r, by rw [hr]; exact List.mem_singleton.2 rfl, ?_, ?_⟩
        · rw [hh]
          exact DataType.ofCode_code _
        · rw [hh]
          exact hc d
      | heartbeat => exact h.keep h.goes (fun _ => rfl) fun d hd => .inl hd
    · cases hst
  | wrote t =>
    refine hnil ?_
    simp only [Process.step] at hst
    split at hst
    · rename_i w hw
      split at hst
      · rename_i hrest
        cases t with
        | setup =>
          cases hst
          have hloop : p.setupLoop = { p with setup := .readHead [] } := by
            simp [setupLoop, he]
          rw [hloop]
          refine ⟨⟨h.goes.1, by simp⟩, fun d => .inr ((h.answered d).resolve_left fun hd => ?_)⟩
          rw [headWrite, hd] at hw
          cases hw
          exact List.ne_nil_of_length_pos (by rw [HeadWrite.start, ResponseHead.length_bytes]; decide)
            hrest
        | heartbeat =>
          cases hst
          exact ⟨h.goes, h.answered⟩
      · cases hst
    · cases hst
  | writeFailed t => exact absurd trivial hf

end Process.Answering

end CppProxy
