/-
  cpp_proxy — everything that was read is delivered.

  * `System.Serving`: an open session that is served;
  * `System.Goes`: one of the two programs can take a step of its own;
  * `goes_of_linkWrite`, `goes_of_push`, `goes_of_headWrite`, `goes_of_reading`,
    `goes_of_reader`: a coroutine that has something to do makes it go;
  * `System.Still`, `goes_or_still`: otherwise all coroutines wait for a peer or a timer;
  * `delivered_of_still`: then both peers have accepted all that the other one sent;
  * `settles_delivered`: undisturbed, an open session comes there.
-/
import CppProxy.Serving

namespace CppProxy

open Session Runs Framing

/-- What begins with a whole frame is no part of one. -/
theorem Wellformed.not_partial {f : List Byte} (h : Wellformed f) (more : List Byte) :
    ¬ Partial (f ++ more) := by
  have h5 : frameHeadLen ≤ f.length := by rw [h]; exact Nat.le_add_right _ _
  have hbody : bodyLen (f ++ more) = bodyLen f := by
    rw [← List.take_append_drop frameHeadLen f, List.append_assoc,
      bodyLen_append (by simp [h5]), bodyLen_append (by simp [h5])]
  rw [Partial, hbody, ← h, List.length_append]
  omega

namespace System

/-- An open session that is served. -/
structure Serving (y : System) : Prop where
  working : y.Working
  stays : y.proxy.hasClosed = false
  bound : ∀ d, (y.proxy.way d).received.length < 2 ^ 64
  served : y.Served

/-- One of the two programs can take a step of its own. -/
def Goes (y : System) : Prop := ∃ e y', SystemEvent.Own e ∧ Undisturbed y e ∧ y.step e = some y'

end System

/-- The type of the frames that a coroutine writes to the process. -/
def Tid.code : Tid → Byte
  | relay d => d.dataType.code
  | _ => DataType.fourTuple.code

theorem Dir.code_ne (d : Dir) : d.dataType.code ≠ DataType.fourTuple.code ∧
    d.dataType.code ≠ DataType.heartbeat.code := by
  cases d <;> decide

namespace System.Serving

variable {y y' : System}

theorem step (h : y.Serving) {e : SystemEvent} (hU : Undisturbed y e) (hst : y.step e = some y') :
    y'.Serving := by
  have ho' := h.served.open_of_step h.working h.stays hU hst
  refine ⟨h.working.step hU.1.1 hst, ho', fun d => ?_, h.served.step h.working h.stays hU.1 hst ho'⟩
  rw [received_of_step hU hst]
  exact h.bound d

/-! ## What is known of the coroutines -/

theorem intact (h : y.Serving) : IntactAndCounted y.proxy := h.working.sound.intact

theorem oneConnection (h : y.Serving) : OneConnection y.proxy := h.intact.oneConnection h.stays

theorem joined (h : y.Serving) : y.Joined := h.working.sound.joined h.stays

theorem dstOpen (h : y.Serving) (d : Dir) : y.proxy.dstOpen d = true := by
  rw [h.intact.shape.dst, h.stays]
  rfl

/-- The connection is up. -/
theorem up (h : y.Serving) (hc : ¬ (y.proxy.connectors 0).IsConnecting) :
    y.proxy.proxyProcessSocket = .connected ∧ y.proxy.conns = 1 := by
  have hd : ¬ (y.proxy.connectors 0).IsDown := fun hd =>
    hc (hd.elim (fun hd => .inl ⟨_, hd⟩) .inr)
  exact ⟨h.oneConnection.up hd, by rw [h.oneConnection.conns, if_neg hd]⟩

/-- A write to the process is on the current connection, which is up, and has the type
    of its coroutine. -/
theorem linkWrite (h : y.Serving) {t : Tid} {w : LinkWrite} (hw : y.proxy.linkWrite t = some w) :
    ¬ (y.proxy.connectors 0).IsConnecting ∧ y.proxy.Carries t w ∧
      w.frame.head? = some t.code := by
  have hj := h.joined
  cases t with
  | relay d =>
    have hf := hj.wired.framing d
    have ha := h.served.noVainWait.relay d
    refine ⟨fun hc => ?_, hf.writes w hw, ?_⟩
    · have hnone := hf.early (h.oneConnection.early hc).1
      rw [Session.linkWrite, hnone] at hw
      cases hw
    · simp only [Session.linkWrite] at hw
      cases hpc : (y.proxy.way d).relay <;> rw [hpc] at hw ha <;> cases hw <;> exact ha
  | connector j =>
    obtain rfl : j = 0 := h.oneConnection.connector_eq h.intact.shape fun hd => by
      rw [Session.linkWrite, hd] at hw
      cases hw
    have ha := h.served.noVainWait.connector
    have hcar := hj.wired.tuple 0 w hw
    simp only [Session.linkWrite] at hw
    cases hpc : y.proxy.connectors 0 with
    | fourTuple conn v =>
      rw [hpc] at hw ha
      cases hw
      refine ⟨?_, hcar, ha⟩
      rintro (⟨up, hc⟩ | hc) <;> cases hc
    | _ => rw [hpc] at hw; cases hw
  | reader | detector => cases hw

/-- One frame at most is part-way. -/
theorem alone (h : y.Serving) {t t' : Tid} (hp : y.proxy.PartWay t) (hp' : y.proxy.PartWay t') :
    t = t' := by
  obtain ⟨⟨f, r⟩, hw, hp⟩ := hp
  obtain ⟨⟨f', r'⟩, hw', hp'⟩ := hp'
  obtain ⟨w, hlw, -, rfl, rfl⟩ := Session.writers_eq_some.1 hw
  obtain ⟨w', hlw', -, rfl, rfl⟩ := Session.writers_eq_some.1 hw'
  obtain ⟨hc, -, hcode⟩ := h.linkWrite hlw
  obtain ⟨-, -, hcode'⟩ := h.linkWrite hlw'
  have hclean := h.joined.linked.clean ⟨(h.up hc).1, h.joined.wired.whole⟩
  have hf := (hclean.partWay t _ _ hw hp).frame_eq (hclean.partWay t' _ _ hw' hp')
  have hcodes : t.code = t'.code := by
    rw [hf, hcode'] at hcode
    exact (Option.some.inj hcode).symm
  cases t with
  | relay d =>
    cases t' with
    | relay d' =>
      cases d <;> cases d' <;> first | rfl | exact absurd hcodes (by decide)
    | connector j => exact absurd hcodes d.code_ne.1
    | reader | detector => cases hlw'
  | connector j =>
    cases t' with
    | relay d => exact absurd hcodes.symm d.code_ne.1
    | connector j' =>
      have hj : ∀ {j w}, y.proxy.linkWrite (.connector j) = some w → j = 0 := fun hw =>
        h.oneConnection.connector_eq h.intact.shape fun hd => by
          rw [Session.linkWrite, hd] at hw
          cases hw
      rw [hj hlw, hj hlw']
    | reader | detector => cases hlw'
  | reader | detector => cases hlw

/-- The two coroutines of the process are not part-way at the same time. -/
theorem heads_alone (h : y.Serving) {t : Coroutine} (hp : y.peer.PartWay t) :
    ¬ y.peer.PartWay t.other := by
  intro hp'
  have hne : ∀ w w', y.peer.setup = .write w → y.peer.heartbeat = .write w' → w.frame ≠ w'.frame := by
    intro w w' hs hh he
    obtain ⟨d, hd⟩ := h.joined.heads.setup w hs
    rw [hd, h.joined.heads.heartbeat w' hh] at he
    have hhead := congrArg ResponseHead.ofBytes he
    rw [ResponseHead.ofBytes_bytes, ResponseHead.ofBytes_bytes] at hhead
    have htype : d.dataType.code = DataType.heartbeat.code := congrArg ResponseHead.type hhead
    exact d.code_ne.2 htype
  have hclean := (h.working.linked y.proxy.conns).clean h.served.answering.goes.1
  obtain ⟨⟨f, r⟩, hw, hp⟩ := hp
  obtain ⟨⟨f', r'⟩, hw', hp'⟩ := hp'
  have hf := (hclean.partWay t f r hw hp).frame_eq (hclean.partWay t.other f' r' hw' hp')
  have hw := Process.writers_eq_some.1 hw
  have hw' := Process.writers_eq_some.1 hw'
  cases t with
  | setup =>
    exact hne _ _ (Process.Decoded.headWrite_setup hw) (Process.headWrite_heartbeat hw') hf
  | heartbeat =>
    exact hne _ _ (Process.Decoded.headWrite_setup hw') (Process.headWrite_heartbeat hw) hf.symm

/-! ## Steps that can be taken -/

theorem goes_proxy (h : y.Serving) {e : Event} {s : Session} (hown : e.Own)
    (hd : ¬ SystemEvent.Disturbs (.proxy e)) (hC : KeepsConnection y.proxy e) (hA : y.proxy.Apart e)
    (hcar : y.Carries (.proxy e)) (hs : y.proxy.step e = some s) : y.Goes := by
  refine ⟨.proxy e, { y with proxy := s }, hown, ⟨⟨⟨h.bound, hC, hA⟩, trivial⟩, hd⟩, ?_⟩
  rw [System.step, if_pos hcar]
  simp only [hs, Option.map_some]

theorem goes_process (h : y.Serving) (h0 : 0 < y.proxy.conns) {e : ProcessEvent} {p : Process}
    (hown : e.Own) (hacc : SystemEvent.Accepts (.process y.proxy.conns e))
    (hd : ¬ SystemEvent.Disturbs (.process y.proxy.conns e)) (hA : y.peer.Apart e)
    (hf : ¬ e.Fails) (ha : y.Arrives y.proxy.conns e) (hp : y.peer.step e = some p) : y.Goes := by
  have hanswer : ∃ s, y.answer y.proxy.conns e = some s := by
    unfold answer
    split
    · exact ⟨_, if_pos ⟨h0, le_rfl⟩⟩
    · exact ⟨_, rfl⟩
  obtain ⟨s, hs⟩ := hanswer
  refine ⟨.process y.proxy.conns e, ⟨s, Function.update y.process y.proxy.conns p⟩, hown,
    ⟨⟨⟨h.bound, hA, fun _ => hf⟩, hacc⟩, hd⟩, ?_⟩
  have hcar : y.Carries (.process y.proxy.conns e) := ⟨⟨h0, le_rfl⟩, ha⟩
  rw [System.step, if_pos hcar]
  change (y.peer.step e).bind _ = _
  simp only [hp, hs, Option.bind_some, Option.map_some]

/-- The connector goes on until the connection is up. -/
theorem goes_of_connecting (h : y.Serving) (hc : (y.proxy.connectors 0).IsConnecting) :
    y.Goes := by
  have hgo : ∀ {e s}, e = .connect 0 ∨ e = .complete (.connector 0) →
      y.proxy.step e = some s → y.Goes := by
    rintro e s (rfl | rfl) hs
    · exact h.goes_proxy (e := .connect 0) trivial id trivial trivial trivial hs
    · exact h.goes_proxy (e := .complete (.connector 0)) trivial id trivial trivial trivial hs
  rcases hc with ⟨up, hpc⟩ | hpc
  · cases up with
    | false =>
      have ha := h.served.noVainWait.connector
      rw [hpc] at ha
      exact hgo (.inl rfl) (if_pos ⟨hpc, ha⟩)
    | true =>
      refine hgo (s := y.proxy.fourTuple2process 0) (.inr rfl) ?_
      simp only [Session.step, onComplete, hpc, if_true]
  · refine hgo (s := y.proxy.connectLoop 0) (.inr rfl) ?_
    simp only [Session.step, onComplete, hpc]

/-- A frame goes on, if no other one is part-way. -/
theorem goes_of_frame (h : y.Serving) {t : Tid} {w : LinkWrite} (hw : y.proxy.linkWrite t = some w)
    (halone : ∀ t' ≠ t, ¬ y.proxy.PartWay t') : y.Goes := by
  obtain ⟨hc, hcar, -⟩ := h.linkWrite hw
  have hpeer : y.proxy.peerWrite t = none := by
    cases t with
    | relay d =>
      simp only [Session.linkWrite] at hw
      simp only [peerWrite]
      cases hpc : (y.proxy.way d).relay <;> rw [hpc] at hw <;> cases hw <;> rfl
    | connector j => rfl
    | reader | detector => cases hw
  cases hio : w.io with
  | idle =>
    by_cases hr : w.rest = []
    · -- the frame is sent
      have hf : w.Finished := ⟨hio, hr⟩
      cases t with
      | relay d =>
        simp only [Session.linkWrite] at hw
        cases hpc : (y.proxy.way d).relay <;> rw [hpc] at hw <;> cases hw
        · refine h.goes_proxy (e := .complete (.relay d)) (s := y.proxy.relayDirect d) trivial id
            trivial trivial trivial ?_
          simp only [Session.step, onComplete, hpc, if_pos hf]
        · refine h.goes_proxy (e := .complete (.relay d)) (s := y.proxy.relayLoop d) trivial id
            trivial trivial trivial ?_
          simp only [Session.step, onComplete, hpc, if_pos hf]
      | connector j =>
        simp only [Session.linkWrite] at hw
        cases hpc : y.proxy.connectors j with
        | fourTuple conn v =>
          rw [hpc] at hw
          cases hw
          refine h.goes_proxy (e := .complete (.connector j)) (s := y.proxy.superviseProcess j conn)
            trivial id trivial trivial trivial ?_
          simp only [Session.step, onComplete, hpc, if_pos hf]
        | _ => rw [hpc] at hw; cases hw
      | reader | detector => cases hw
    · -- the next part is issued
      refine h.goes_proxy (e := .issue t) (s := y.proxy.setLinkWrite { w with
        gen := y.proxy.conns, io := y.proxy.issued } t) trivial id trivial ?_ trivial ?_
      · intro _ v hv _
        rw [Option.mem_def, hw] at hv
        cases hv
        exact hcar.gen
      · simp only [Session.step, onIssue, hw]
        exact if_pos ⟨hio, hr⟩
  | live =>
    -- the rest of the frame is sent
    have hlen := List.length_pos_of_ne_nil (hcar.unsent (by rw [hio]; simp))
    refine h.goes_proxy (e := .push t w.rest.length) (s := (y.proxy.sendLink w
      w.rest.length).setLinkWrite { w with io := .idle, rest := w.rest.drop w.rest.length } t)
      trivial id trivial (fun _ => ⟨fun d hd => halone _ hd, fun j _ hj => halone _ hj⟩) trivial ?_
    simp only [Session.step, onPush, hpeer, hw]
    exact if_pos ⟨hio, hcar.gen, (h.up hc).1, h.joined.wired.whole, hlen, le_rfl⟩
  | dead =>
    exact absurd (h.up hc).1 (h.joined.linked.dead t w hw hio hcar.gen)

/-- A coroutine that writes to the process goes on, or the one that is part-way does. -/
theorem goes_of_linkWrite (h : y.Serving) {t : Tid} {w : LinkWrite}
    (hw : y.proxy.linkWrite t = some w) : y.Goes := by
  by_cases hp : ∃ t', y.proxy.PartWay t'
  · obtain ⟨t', hp⟩ := hp
    obtain ⟨⟨f, r⟩, hw', -⟩ := id hp
    obtain ⟨w', hlw, -⟩ := Session.writers_eq_some.1 hw'
    exact h.goes_of_frame hlw fun t'' ht hp'' => ht (h.alone hp'' hp)
  · exact h.goes_of_frame hw fun t' _ hp' => hp ⟨t', hp'⟩

/-- A write to a peer goes on. -/
theorem goes_of_push (h : y.Serving) {t : Tid} {d : Dir} {w : PeerWrite}
    (hw : y.proxy.peerWrite t = some (d, w)) (hl : w.live = true) (hr : w.rest ≠ [])
    (hn : y.proxy.linkWrite t = none) : y.Goes := by
  have hlen := List.length_pos_of_ne_nil hr
  refine h.goes_proxy (e := .push t w.rest.length) (s := (y.proxy.accept d
    (w.rest.take w.rest.length)).setPeerWrite { w with rest := w.rest.drop w.rest.length } t)
    trivial id trivial (fun hne => absurd hn hne) trivial ?_
  simp only [Session.step, onPush, hw]
  exact if_pos ⟨hl, h.dstOpen d, hlen, le_rfl⟩

theorem goes_of_writeDirect (h : y.Serving) {d : Dir} {w : PeerWrite}
    (hpc : (y.proxy.way d).relay = .writeDirect w) : y.Goes := by
  have hl := h.served.noVainWait.relay d
  rw [hpc] at hl
  by_cases hr : w.rest = []
  · refine h.goes_proxy (e := .complete (.relay d)) (s := y.proxy.relayLoop d) trivial id
      trivial trivial trivial ?_
    simp only [Session.step, onComplete, hpc]
    exact if_pos ⟨hl, hr⟩
  · refine h.goes_of_push (t := .relay d) (d := d) (w := w) ?_ hl hr ?_
    · rw [peerWrite, hpc]
      rfl
    · rw [Session.linkWrite, hpc]
      rfl

theorem goes_of_release (h : y.Serving) {d : Dir} {count : ℕ} {next : Int32} {w : PeerWrite}
    (hpc : (y.proxy.readers 0).pc = .release d count next w) : y.Goes := by
  have hl := h.served.noVainWait.reader
  rw [hpc] at hl
  by_cases hr : w.rest = []
  · refine h.goes_proxy (e := .complete (.reader 0)) (s := y.proxy.clearReleased 0 d count next)
      trivial id trivial trivial trivial ?_
    simp only [Session.step, onComplete, hpc]
    exact if_pos ⟨hl, hr⟩
  · refine h.goes_of_push (t := .reader 0) (d := d) (w := w) ?_ hl hr rfl
    rw [peerWrite, hpc]
    rfl

/-- The reader goes on, unless it waits for the process. -/
theorem goes_of_reader (h : y.Serving) {r : LinkRead} (hpc : (y.proxy.readers 0).pc = .readHead r)
    (hmore : r.io = .idle ∨ y.peer.unsent < y.proxy.link.inbound.length) : y.Goes := by
  have hal := h.served.noVainWait.reader
  rw [hpc] at hal
  obtain ⟨hgen, hdead, hle, hlt⟩ := hal
  have hread : y.proxy.linkRead 0 = some r := by
    rw [linkRead, hpc]
    rfl
  cases hio : r.io with
  | idle =>
    by_cases hf : r.got.length = r.want
    · -- the head is there
      have hfin : r.Finished := ⟨hio, hf⟩
      have hcan : ∃ s, y.proxy.step (.complete (.reader 0)) = some s := by
        simp only [Session.step, onComplete, hpc, if_pos hfin]
        split <;> exact ⟨_, rfl⟩
      obtain ⟨s, hs⟩ := hcan
      exact h.goes_proxy (e := .complete (.reader 0)) trivial id trivial trivial trivial hs
    · refine h.goes_proxy (e := .issue (.reader 0)) (s := (y.proxy.noteRead 0).setLinkRead 0
        { r with gen := y.proxy.conns, io := y.proxy.issued }) trivial id trivial ?_ trivial ?_
      · rintro _ v ⟨⟩
      · have hn : y.proxy.linkWrite (.reader 0) = none := rfl
        simp only [Session.step, onIssue, hn, hread]
        exact if_pos ⟨hio, by omega⟩
  | live =>
    have hin : y.peer.unsent < y.proxy.link.inbound.length := hmore.resolve_left (by rw [hio]; simp)
    have hup : y.proxy.proxyProcessSocket = .connected :=
      (h.oneConnection.steady h.intact.shape (i := 0) (by rw [hpc]; simp)).1.1
    have hroom := hlt hio
    refine h.goes_proxy (e := .pull 0 1) (s := (y.proxy.setLink { y.proxy.link with
      inbound := y.proxy.link.inbound.drop 1 }).setLinkRead 0
      { r with io := .idle, got := r.got ++ y.proxy.link.inbound.take 1 }) trivial id trivial
      trivial ?_ ?_
    · show 1 + y.peer.unsent ≤ _
      omega
    · simp only [Session.step, onPull, hread]
      exact if_pos ⟨hio, hgen, hup, Nat.one_pos, by omega, by omega⟩
  | dead => exact absurd hio hdead

/-- A head goes on, if the other coroutine is not part-way. -/
theorem goes_of_head (h : y.Serving) (h0 : 0 < y.proxy.conns) {t : Coroutine} {w : HeadWrite}
    (hw : y.peer.headWrite t = some w) (hA : ¬ y.peer.PartWay t.other) : y.Goes := by
  by_cases hr : w.rest = []
  · have hcan : ∃ p, y.peer.step (.wrote t) = some p := by
      cases t with
      | setup => exact ⟨y.peer.setupLoop, by simp only [Process.step, hw, if_pos hr]⟩
      | heartbeat => exact ⟨y.peer.heartbeatLoop, by simp only [Process.step, hw, if_pos hr]⟩
    obtain ⟨p, hp⟩ := hcan
    exact h.goes_process h0 (e := .wrote t) trivial trivial id trivial id trivial hp
  · have hlen := List.length_pos_of_ne_nil hr
    refine h.goes_process h0 (e := .push t w.rest.length) (p := (y.peer.send w
      w.rest.length).setHeadWrite { w with rest := w.rest.drop w.rest.length } t) trivial trivial id
      hA id trivial ?_
    simp only [Process.step, hw]
    exact if_pos ⟨h.served.answering.goes.1, hlen, le_rfl⟩

/-- A coroutine of the process that writes goes on, or the other one does. -/
theorem goes_of_headWrite (h : y.Serving) (h0 : 0 < y.proxy.conns) {t : Coroutine} {w : HeadWrite}
    (hw : y.peer.headWrite t = some w) : y.Goes := by
  by_cases hp : y.peer.PartWay t.other
  · obtain ⟨⟨f, r⟩, hw', -⟩ := id hp
    exact h.goes_of_head h0 (Process.writers_eq_some.1 hw') (h.heads_alone hp)
  · exact h.goes_of_head h0 hw hp

/-- What `setup` has got is part of what it wants; if it is not all, what it has received
    behind the whole frames is a part of one. -/
theorem reading (h : y.Serving) {got : List Byte} {want : ℕ}
    (hq : y.peer.setup.reading = some (got, want)) : got.length ≤ want ∧
      (got.length ≠ want → ∃ frames rest, Cut y.peer.received frames rest ∧ Partial rest ∧
        y.peer.handled = calls frames) := by
  obtain ⟨frames, rest, hc, ha⟩ := h.joined.decoded.phase
  unfold Process.At at ha
  cases hpc : y.peer.setup with
  | readHead got' =>
    rw [hpc] at hq ha
    cases hq
    obtain ⟨-, rfl, hle, hh⟩ := ha
    refine ⟨hle, fun hne => ⟨frames, _, hc, ?_, hh⟩⟩
    show _ < _
    omega
  | readBody head got' =>
    rw [hpc] at hq ha
    cases hq
    obtain ⟨hlen, -, -, hle, hh, hrest, -⟩ := ha
    refine ⟨hle, fun hne => ⟨frames, rest, hc, ?_, hh⟩⟩
    rw [hrest h.joined.eof, Partial, bodyLen_append hlen, List.length_append, hlen]
    omega
  | write | done => rw [hpc] at hq; cases hq

/-- `setup` goes on, unless it waits for the proxy. -/
theorem goes_of_reading (h : y.Serving) (h0 : 0 < y.proxy.conns) {got : List Byte} {want : ℕ}
    (hq : y.peer.setup.reading = some (got, want))
    (hmore : got.length = want ∨ y.peer.received ≠ y.proxy.link.sent) : y.Goes := by
  by_cases hf : got.length = want
  · -- the head or the body is there
    have hcan : ∃ p, y.peer.step (.readDone true) = some p := by
      cases hpc : y.peer.setup with
      | readHead =>
        rw [hpc] at hq
        cases hq
        exact ⟨y.peer.setupHead got true, by simp only [Process.step, hpc, if_pos hf]⟩
      | readBody head =>
        rw [hpc] at hq
        cases hq
        exact ⟨(y.peer.setBuf got).handle head true, by simp only [Process.step, hpc, if_pos hf]⟩
      | write | done => rw [hpc] at hq; cases hq
    obtain ⟨p, hp⟩ := hcan
    exact h.goes_process h0 (e := .readDone true) trivial rfl id trivial id trivial hp
  · obtain ⟨rest, hrest⟩ := h.joined.decoded.received
    have hle := (h.reading hq).1
    cases rest with
    | nil => exact absurd ((List.append_nil _).symm.trans hrest) (hmore.resolve_left hf)
    | cons b rest =>
      refine h.goes_process h0 (e := .pull [b]) (p := { y.peer with
        setup := y.peer.setup.setGot (got ++ [b]), received := y.peer.received ++ [b] }) trivial
        trivial id trivial id ?_ ?_
      · show y.peer.received ++ [b] <+: y.proxy.link.sent
        exact ⟨rest, by rw [← hrest, List.append_assoc]; rfl⟩
      · simp only [Process.step, hq]
        refine if_pos ⟨h.served.answering.goes.1, by simp, ?_⟩
        rw [List.length_singleton]
        omega

end System.Serving

/-! ## Still -/

/-- Every coroutine waits for a peer or a timer. -/
structure System.Still (y : System) : Prop where
  connector : y.proxy.connectors 0 = .done
  links : ∀ t, y.proxy.linkWrite t = none
  relay : ∀ d w, (y.proxy.way d).relay ≠ .writeDirect w
  reader : ∃ r, (y.proxy.readers 0).pc = .readHead r ∧ r.got.length < r.want
  inbound : y.proxy.link.inbound = []
  setup : ∃ got want, y.peer.setup.reading = some (got, want) ∧ got.length ≠ want
  received : y.peer.received = y.proxy.link.sent

namespace System.Serving

variable {y y' : System}

/-- **Somebody can go on, or all coroutines are still.** -/
theorem goes_or_still (h : y.Serving) : y.Goes ∨ y.Still := by
  by_cases hgo : y.Goes
  · exact .inl hgo
  right
  have hc : ¬ (y.proxy.connectors 0).IsConnecting := fun hc => hgo (h.goes_of_connecting hc)
  have h0 : 0 < y.proxy.conns := by
    rw [(h.up hc).2]
    exact Nat.one_pos
  have hlinks : ∀ t, y.proxy.linkWrite t = none := fun t => by
    by_contra hn
    obtain ⟨w, hw⟩ := Option.ne_none_iff_exists'.1 hn
    exact hgo (h.goes_of_linkWrite hw)
  have hheads : ∀ t, y.peer.headWrite t = none := fun t => by
    by_contra hn
    obtain ⟨w, hw⟩ := Option.ne_none_iff_exists'.1 hn
    exact hgo (h.goes_of_headWrite h0 hw)
  have hconn : y.proxy.connectors 0 = .done := by
    cases hpc : y.proxy.connectors 0 with
    | connecting up => exact absurd (.inl ⟨up, hpc⟩) hc
    | waiting => exact absurd (.inr hpc) hc
    | fourTuple conn w =>
      have hw := hlinks (.connector 0)
      rw [Session.linkWrite, hpc] at hw
      cases hw
    | done => rfl
  have hunsent : y.peer.unsent = 0 := by simp [Process.unsent, hheads]
  obtain ⟨r, hpc⟩ : ∃ r, (y.proxy.readers 0).pc = .readHead r := by
    obtain ⟨-, hr | ⟨d, count, next, w, hpc⟩⟩ :=
      h.intact.reader_pc h.stays (h.served.noVainWait.spawned hconn)
    · exact hr
    · exact absurd (h.goes_of_release hpc) hgo
  have hal := h.served.noVainWait.reader
  rw [hpc] at hal
  have hlive : r.io = .live := by
    cases hio : r.io with
    | live => rfl
    | idle => exact absurd (h.goes_of_reader hpc (.inl hio)) hgo
    | dead => exact absurd hio hal.2.1
  have hin : y.proxy.link.inbound = [] := by
    by_contra hn
    have hpos := List.length_pos_of_ne_nil hn
    exact hgo (h.goes_of_reader hpc (.inr (by omega)))
  obtain ⟨got, want, hq⟩ : ∃ got want, y.peer.setup.reading = some (got, want) := by
    cases hs : y.peer.setup with
    | readHead | readBody => exact ⟨_, _, rfl⟩
    | write w =>
      have hw := hheads .setup
      rw [Process.headWrite, hs] at hw
      cases hw
    | done => exact absurd hs h.served.answering.goes.2
  refine ⟨hconn, hlinks, fun d w hpc => hgo (h.goes_of_writeDirect hpc),
    ⟨r, hpc, hal.2.2.2 hlive⟩, hin, ⟨got, want, hq, fun hf => ?_⟩, ?_⟩
  · exact hgo (h.goes_of_reading h0 hq (.inl hf))
  · by_contra hn
    exact hgo (h.goes_of_reading h0 hq (.inr hn))

/-- All that was framed is sent, and the process has handled it. -/
theorem total_of_still (h : y.Serving) (hs : y.Still) (d : Dir) :
    y.peer.total d = (y.proxy.link.frames d).flatten.length := by
  have hj := h.joined
  have hc : ¬ (y.proxy.connectors 0).IsConnecting := by
    rw [hs.connector]
    rintro (⟨up, hc⟩ | hc) <;> cases hc
  -- the stream is whole frames
  have hwhole : y.proxy.link.sent = y.proxy.link.begun.flatten := by
    refine ((hj.linked.clean ⟨(h.up hc).1, hj.wired.whole⟩).whole fun t f r hw => ?_).2
    obtain ⟨w, hlw, -⟩ := Session.writers_eq_some.1 hw
    rw [hs.links t] at hlw
    cases hlw
  -- so no frame is left to be handled
  obtain ⟨got, want, hq, hne⟩ := hs.setup
  obtain ⟨frames, rest, hcut, hpart, hhandled⟩ := (h.reading hq).2 hne
  have hfs : (frames.map fun f => f.1 ++ f.2) = y.proxy.link.begun := by
    have hok : ∀ f ∈ frames.map (fun f => f.1 ++ f.2), Wellformed f := by
      intro f hf
      obtain ⟨g, hg, rfl⟩ := List.mem_map.1 hf
      obtain ⟨hl, hb⟩ := hcut.whole g hg
      exact wellformed_append hl hb
    have hbegun : ∀ f ∈ y.proxy.link.begun, Wellformed f := fun f hf =>
      ((hj.linked.sent y.proxy.conns).frames_ok f hf).wellformed
    have heq := hcut.eq
    rw [hs.received, hwhole] at heq
    obtain ⟨more, hmore⟩ := prefixFree_wellformed.isPrefix (fun f hf hn => by
      rw [hn, Wellformed, List.length_nil, frameHeadLen] at hf
      omega) hok hbegun ⟨rest, heq.symm⟩
    cases more with
    | nil => rw [← hmore, List.append_nil]
    | cons f more =>
      have hf : Wellformed f := hbegun f (by rw [← hmore]; simp)
      have hrest : rest = f ++ more.flatten := by
        rw [← hmore, List.flatten_append, List.flatten_cons] at heq
        exact (List.append_cancel_left heq).symm
      have hlong := hf.not_partial more.flatten
      rw [← hrest] at hlong
      exact absurd hpart hlong
  have hframed := hj.wired.framed d
  have hwait : (y.proxy.way d).relay.waiting d = [] := by
    have hl := hs.links (.relay d)
    rw [Session.linkWrite] at hl
    rw [RelayPc.waiting, hl]
    rfl
  rw [hwait, List.append_nil] at hframed
  rw [Process.total, hhandled, total_eq d fun f hf => (hcut.whole f hf).1, hfs, hframed]

/-- The counter of a direction has reached the total of the process. -/
theorem reached_of_still (h : y.Serving) (hs : y.Still) (d : Dir) :
    y.peer.total d ≤ (y.proxy.way d).handledTotalPkgLen.toNat := by
  obtain ⟨r, hpc, hlt⟩ := hs.reader
  -- no response is ahead of the reader
  obtain ⟨handled, pending, hres, ha, hreach⟩ := h.served.noVainWait.heard
  rw [hpc, hs.inbound] at ha
  have hnil : pending = [] := by
    cases pending with
    | nil => rfl
    | cons resp rest =>
      have hlen := congrArg List.length ha.2
      rw [encode_cons, Response.bytes, List.length_append, List.length_append, List.length_append,
        ResponseHead.length_bytes, List.length_nil] at hlen
      have := ha.1
      omega
  rw [hnil, List.append_nil] at hres
  rcases h.served.answering.answered d with hw | h0 | ⟨resp, hm, ht, htot⟩
  · obtain ⟨got, want, hq, -⟩ := hs.setup
    rw [hw] at hq
    cases hq
  · rw [h0]
    exact Nat.zero_le _
  · rw [← htot]
    rw [hres] at hm
    exact UInt64.le_iff_toNat_le.1 (hreach d resp hm ht)

/-- **When all coroutines are still, all is delivered.** -/
theorem delivered_of_still (h : y.Serving) (hs : y.Still) (d : Dir) :
    (y.proxy.way d).accepted = (y.proxy.way d).received := by
  obtain ⟨r, hpc, hlt⟩ := hs.reader
  have hne : (y.proxy.readers 0).pc ≠ .done := by rw [hpc]; simp
  have hc := h.intact.counted h.stays
  have hidle : ∀ i, (y.proxy.readers i).pc.releasing d = none := by
    intro i
    by_cases hi : (y.proxy.readers i).pc = .done
    · rw [hi]
      rfl
    · obtain ⟨rfl, -⟩ := h.intact.reader_pc h.stays hi
      rw [hpc]
      rfl
  -- the counter is behind the last frame, so the queue is empty
  have hstored : (y.proxy.way d).storedData = [] := by
    obtain ⟨k, hk, hq, hcount⟩ := (hc.align d).idle (h.oneConnection.steady h.intact.shape hne) hidle
    rw [Nat.add_zero] at hk hcount
    have hreach := h.reached_of_still hs d
    rw [h.total_of_still hs d, hcount] at hreach
    have hlast : k = (y.proxy.link.frames d).length := by
      by_contra hlt
      have := flatten_take_lt (h.joined.wired.filled d) (m := k) (n := _) (by omega) le_rfl
      rw [List.take_length] at this
      omega
    have hbytes := hq.bytes
    rw [hlast, List.drop_length] at hbytes
    exact List.map_eq_nil_iff.1 hbytes
  have hrelay : (y.proxy.way d).relay.writer = none := by
    have hn := h.oneConnection.noFlush.1 d
    have hl := hs.links (.relay d)
    rw [Session.linkWrite] at hl
    cases hp : (y.proxy.way d).relay with
    | writeDirect w => exact absurd hp (hs.relay d w)
    | flush gen w => rw [hp] at hn; exact absurd trivial hn
    | _ => rfl
  have hundel : y.proxy.undelivered d = [] := by
    have hn : y.proxy.nReaders = 1 := by
      rw [h.oneConnection.readers, if_pos hs.connector]
    simp [Session.undelivered, hn, List.range_succ, hpc, ReaderPc.undelivered, hstored]
    rfl
  rw [h.intact.received_eq h.stays hrelay, hundel, List.append_nil]

end System.Serving

/-! ## Runs -/

/-- **Everything that was read is delivered**: however an open session that is served goes
    on, undisturbed, the two programs take only so many steps, and as long as a peer has
    not accepted all that the other one sent, one of them can take one. -/
theorem settles_delivered {c : Conf} {y : System} (h : Reach System.step System.Serves (System.init c) y)
    (ho : y.proxy.hasClosed = false) (hb : ∀ d, (y.proxy.way d).received.length < 2 ^ 64) :
    Settles System.step System.Undisturbed SystemEvent.Own
      (fun y => ∀ d, (y.proxy.way d).accepted = (y.proxy.way d).received) y := by
  have hserved : y.Working ∧ (y.proxy.hasClosed = false → y.Served) :=
    h.inv (I := fun y => y.Working ∧ (y.proxy.hasClosed = false → y.Served))
      ⟨System.Working.init c, fun _ => System.Served.init c⟩ fun y e y' hy hS hst =>
        ⟨hy.1.step hS.1 hst, fun ho' =>
          have ho := System.open_of_step hst ho'
          (hy.2 ho).step hy.1 ho hS hst ho'⟩
  refine settles_of_rank (I := System.Serving) System.work
    ⟨hserved.1, ho, hb, hserved.2 ho⟩ (fun y e y' hy hU hst => ?_) fun y hy => ?_
  · have hy' := hy.step hU hst
    have hwork := System.work_of_step hy.working hU.1.1 hst hy'.stays
    rw [SystemEvent.cost_eq_zero hU.2] at hwork
    exact ⟨hy', hwork⟩
  · rcases hy.goes_or_still with hgo | hstill
    · exact .inr hgo
    · exact .inl (hy.delivered_of_still hstill)

/-- A request is with the process, and is not answered yet. -/
theorem settles_asked : ∃ y : System, (y.proxy.way .req).accepted ≠ (y.proxy.way .req).received ∧
    Settles System.step System.Undisturbed SystemEvent.Own
      (fun y => ∀ d, (y.proxy.way d).accepted = (y.proxy.way d).received) y := by
  obtain ⟨y, hy, hp⟩ := exists_runIf System.step System.Serves
    (System.init (localConf false))
    (firstUp.map SystemEvent.proxy ++ tupleRead ++
      [.proxy (.read .req (.data [2])), .proxy (.push (.relay .req) 6)])
    (fun y => !y.proxy.hasClosed && decide (∀ d, (y.proxy.way d).received.length < 2 ^ 64) &&
      decide ((y.proxy.way .req).accepted ≠ (y.proxy.way .req).received)) (by decide +kernel)
  simp only [Bool.and_eq_true, Bool.not_eq_true', decide_eq_true_eq] at hp
  exact ⟨y, hp.2, settles_delivered hy hp.1.1 hp.1.2⟩

end CppProxy
