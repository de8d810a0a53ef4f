/-
  cpp_proxy — the frames on the local link.

  On either side several coroutines start composed writes on the one socket,
  with no queue between them; asio asks that a stream performs no other write
  until a composed write completes.

  * `Session.Apart`, `Process.Apart`: a part is sent only while no other
    coroutine is part-way on the connection, and a frame goes on only on the
    connection it was begun on;
  * `Linked`, `Process.Linked`: what either side has sent on a connection is then the
    frames it has begun there, in order, up to a part of the last.
-/
import CppProxy.Lib.Framing
import CppProxy.Lib.Runs
import CppProxy.Process
import CppProxy.Shape

namespace CppProxy

open Session Runs Framing

/-- A frame of the proxy. -/
def IsFrame (f : List Byte) : Prop :=
  ∃ type payload, payload.length < 2 ^ 32 ∧ f = frame type payload

/-- A head of the process, without new data. -/
def IsHead (f : List Byte) : Prop := ∃ head : ResponseHead, head.newDataLen = 0 ∧ f = head.bytes

namespace Session

variable (s : Session)

/-- The frame, and the rest of it, of a coroutine that writes to the current
    connection. -/
def writers (t : Tid) : Option (List Byte × List Byte) :=
  match s.linkWrite t with
  | some w => if w.gen = s.conns then some (w.frame, w.rest) else none
  | none => none

/-- Some of the frame of coroutine `t` is sent on the current connection. -/
def PartWay (t : Tid) : Prop := ∃ p ∈ s.writers t, Framing.PartWay p.1 p.2

instance (t : Tid) : Decidable (s.PartWay t) :=
  inferInstanceAs (Decidable (∃ p ∈ s.writers t, Framing.PartWay p.1 p.2))

/-- Bytes can be sent on the current connection. -/
def Alive : Prop := s.proxyProcessSocket = .connected ∧ s.link.broken = false

instance : Decidable s.Alive := inferInstanceAs (Decidable (_ ∧ _))

/-- A part of a frame is sent while no other frame is part-way, and goes on only on
    the connection that the frame was begun on. -/
def Apart : Event → Prop
  | .push t _ => s.linkWrite t ≠ none → (∀ d, Tid.relay d ≠ t → ¬ s.PartWay (.relay d)) ∧
      ∀ j < s.nConnectors, Tid.connector j ≠ t → ¬ s.PartWay (.connector j)
  | .issue t => s.Alive → ∀ w ∈ s.linkWrite t, Framing.PartWay w.frame w.rest → w.gen = s.conns
  | _ => True

instance : ∀ e, Decidable (s.Apart e)
  | .push _ _ => inferInstanceAs (Decidable (_ → _ ∧ _))
  | .issue t => inferInstanceAs (Decidable (_ → ∀ w ∈ s.linkWrite t, _ → _))
  | .read _ _ | .pull _ _ | .complete _ | .fail _ | .connect _ | .expire _ | .respond _ _ =>
    inferInstanceAs (Decidable True)

/-- A write to the process that is just started. -/
def Fresh (w : LinkWrite) : Prop := ∃ f, IsFrame f ∧ w = s.asyncWriteProcess f

variable {s}

theorem writers_eq_some {t : Tid} {f r : List Byte} : s.writers t = some (f, r) ↔
    ∃ w, s.linkWrite t = some w ∧ w.gen = s.conns ∧ w.frame = f ∧ w.rest = r := by
  unfold writers
  cases s.linkWrite t with
  | none => simp
  | some w => by_cases hg : w.gen = s.conns <;> simp [hg]

/-- A session begins with no write to the process. -/
theorem linkWrite_init (c : Conf) (t : Tid) : (Session.init c).linkWrite t = none := by
  cases t with
  | relay d => cases d <;> rfl
  | connector j =>
    have hj : (Session.init c).connectors = Function.update (fun _ => .done) 0 (.connecting false) :=
      rfl
    simp only [linkWrite, hj]
    by_cases h0 : j = 0 <;> simp [h0, ConnectorPc.linkWrite]
  | reader i => rfl
  | detector k => rfl

/-- A coroutine writes to a peer or to the process. -/
theorem linkWrite_of_peerWrite {t : Tid} {w : Dir × PeerWrite} (hw : s.peerWrite t = some w) :
    s.linkWrite t = none := by
  cases t with
  | relay d =>
    rw [peerWrite, Option.map_eq_some_iff] at hw
    obtain ⟨w', hw', -⟩ := hw
    rw [linkWrite]
    cases hpc : (s.way d).relay <;> rw [hpc] at hw' <;> first | rfl | cases hw'
  | connector j => cases hw
  | reader i => rfl
  | detector k => rfl

end Session

/-- The writes to the process, and what is sent. -/
structure Linked (s : Session) : Prop where
  frames : ∀ t w, s.linkWrite t = some w → IsFrame w.frame ∧ w.rest <:+ w.frame
  gen : ∀ t w, s.linkWrite t = some w → w.gen ≤ s.conns
  dead : ∀ t w, s.linkWrite t = some w → w.io = .dead → w.gen = s.conns →
    s.proxyProcessSocket ≠ .connected
  tuple : s.fourTuple.length < 2 ^ 32
  sent : ∀ g, Framed IsFrame (s.links g).begun (s.links g).sent
  clean : s.Alive → Clean IsFrame s.writers s.link.begun s.link.sent

namespace Linked

variable {s s' : Session}

/-! ## The functions -/

/-- Nothing is sent: writes that are not part-way end, and new ones start. -/
theorem keep (h : Linked s)
    (hl : ∀ g, (s'.links g).sent = (s.links g).sent ∧ (s'.links g).begun = (s.links g).begun)
    (hc : s'.conns = s.conns) (ht : s'.fourTuple = s.fourTuple)
    (hup : s'.proxyProcessSocket = .connected → s.proxyProcessSocket = .connected)
    (ha : s'.Alive → s.Alive)
    (hw : ∀ t w, s'.linkWrite t = some w → s.linkWrite t = some w ∨ s'.Fresh w)
    (hgone : s'.Alive → ∀ t w, s.linkWrite t = some w → PartWay w.frame w.rest →
      w.gen = s.conns → s'.linkWrite t = some w) : Linked s' := by
  refine ⟨fun t w hw' => ?_, fun t w hw' => ?_, fun t w hw' hd hg hs => ?_, ht ▸ h.tuple,
    fun g => (hl g).1 ▸ (hl g).2 ▸ h.sent g, fun hal => ?_⟩
  · rcases hw t w hw' with hw' | ⟨f, hf, rfl⟩
    · exact h.frames t w hw'
    · exact ⟨hf, List.suffix_rfl⟩
  · rcases hw t w hw' with hw' | ⟨f, hf, rfl⟩
    · exact hc ▸ h.gen t w hw'
    · exact le_rfl
  · rcases hw t w hw' with hw' | ⟨f, hf, rfl⟩
    · exact h.dead t w hw' hd (hc ▸ hg) (hup hs)
    · simp [asyncWriteProcess, issued, hs] at hd
  · have hlink : s'.link.sent = s.link.sent ∧ s'.link.begun = s.link.begun := by
      rw [link, link, hc]; exact hl _
    rw [hlink.1, hlink.2]
    refine (h.clean (ha hal)).congr fun t f r hp => ?_
    rw [writers_eq_some, writers_eq_some, hc]
    constructor
    · rintro ⟨w, hw', hg, rfl, rfl⟩
      rcases hw t w hw' with hw' | ⟨f, hf, rfl⟩
      · exact ⟨w, hw', hg, rfl, rfl⟩
      · exact absurd rfl hp.2
    · rintro ⟨w, hw', hg, rfl, rfl⟩
      exact ⟨w, hgone hal t w hw' hp hg, hg, rfl, rfl⟩

/-- Nothing that `Linked` reads changes. -/
theorem same {x : Session} (h : Linked s)
    (hl : ∀ g, (x.links g).sent = (s.links g).sent ∧ (x.links g).begun = (s.links g).begun ∧
      (x.links g).broken = (s.links g).broken) (hc : x.conns = s.conns)
    (ht : x.fourTuple = s.fourTuple) (hs : x.proxyProcessSocket = s.proxyProcessSocket)
    (hr : ∀ d, (x.way d).relay.linkWrite = (s.way d).relay.linkWrite)
    (hj : ∀ j, (x.connectors j).linkWrite = (s.connectors j).linkWrite) : Linked x := by
  have hw : ∀ t, x.linkWrite t = s.linkWrite t := by
    intro t
    cases t with
    | relay d => exact hr d
    | connector j => exact hj j
    | _ => rfl
  refine h.keep (fun g => ⟨(hl g).1, (hl g).2.1⟩) hc ht (fun h => hs ▸ h)
    (fun ha => ⟨hs ▸ ha.1, ?_⟩) (fun t w hw' => .inl (by rwa [← hw]))
    fun _ t w hw' _ _ => by rwa [hw]
  have := ha.2
  rwa [link, hc, (hl _).2.2] at this

/-- The process socket is closed, or not connected again yet. -/
theorem down (h : Linked s) (hl : s'.links = s.links) (hc : s'.conns = s.conns)
    (ht : s'.fourTuple = s.fourTuple) (hs : s'.proxyProcessSocket ≠ .connected)
    (hw : ∀ t w, s'.linkWrite t = some w → s.linkWrite t = some w) : Linked s' :=
  h.keep (fun g => by rw [hl]; exact ⟨rfl, rfl⟩) hc ht (fun hs' => absurd hs' hs) (fun ha => absurd ha.1 hs)
    (fun t w hw' => .inl (hw t w hw')) fun ha => absurd ha.1 hs

/-- A relay that is not part-way goes on, maybe to a new write. -/
theorem setWay (h : Linked s) {d : Dir} {w : Way}
    (hold : s.Alive → ¬ s.PartWay (.relay d)) (hnew : ∀ u, w.relay.linkWrite = some u → s.Fresh u) :
    Linked (s.setWay d w) := by
  have hrelay : ∀ t, t ≠ .relay d → (s.setWay d w).linkWrite t = s.linkWrite t := by
    intro t ht
    cases t with
    | relay d' =>
      have hd : d' ≠ d := fun hd => ht (by rw [hd])
      simp [linkWrite, hd]
    | _ => rfl
  have hself : (s.setWay d w).linkWrite (.relay d) = w.relay.linkWrite := by simp [linkWrite]
  refine h.keep (fun _ => ⟨rfl, rfl⟩) rfl rfl id id (fun t u hu => ?_) fun ha t u hu hp hg => ?_
  · by_cases ht : t = .relay d
    · subst ht; rw [hself] at hu; exact .inr (hnew u hu)
    · rw [hrelay t ht] at hu; exact .inl hu
  · by_cases ht : t = .relay d
    · subst ht
      exact absurd ⟨(u.frame, u.rest), writers_eq_some.2 ⟨u, hu, hg, rfl, rfl⟩, hp⟩ (hold ha)
    · rw [hrelay t ht]; exact hu

/-- A relay whose write to the process does not change. -/
theorem setWay_same (h : Linked s) {d : Dir} {w : Way}
    (hw : w.relay.linkWrite = (s.way d).relay.linkWrite) : Linked (s.setWay d w) := by
  refine h.same (fun _ => ⟨rfl, rfl, rfl⟩) rfl rfl rfl (fun d' => ?_) fun _ => rfl
  by_cases hd : d' = d
  · subst hd; simpa using hw
  · simp [hd]

theorem setConnector (h : Linked s) {j : ℕ} {q : ConnectorPc}
    (hold : s.Alive → ¬ s.PartWay (.connector j)) (hnew : ∀ u, q.linkWrite = some u → s.Fresh u) :
    Linked (s.setConnector j q) := by
  have hconn : ∀ t, t ≠ .connector j → (s.setConnector j q).linkWrite t = s.linkWrite t := by
    intro t ht
    cases t with
    | connector j' =>
      have hj : j' ≠ j := fun hj => ht (by rw [hj])
      simp [linkWrite, Session.setConnector, hj]
    | _ => rfl
  have hself : (s.setConnector j q).linkWrite (.connector j) = q.linkWrite := by
    simp [linkWrite, Session.setConnector]
  refine h.keep (fun _ => ⟨rfl, rfl⟩) rfl rfl id id (fun t u hu => ?_) fun ha t u hu hp hg => ?_
  · by_cases ht : t = .connector j
    · subst ht; rw [hself] at hu; exact .inr (hnew u hu)
    · rw [hconn t ht] at hu; exact .inl hu
  · by_cases ht : t = .connector j
    · subst ht
      exact absurd ⟨(u.frame, u.rest), writers_eq_some.2 ⟨u, hu, hg, rfl, rfl⟩, hp⟩ (hold ha)
    · rw [hconn t ht]; exact hu

theorem not_partWay_of_none {t : Tid} (h : s.linkWrite t = none) : ¬ s.PartWay t := by
  rintro ⟨⟨f, r⟩, hw, -⟩
  obtain ⟨w, hw', -⟩ := writers_eq_some.1 hw
  rw [h] at hw'; cases hw'

theorem not_partWay_of_finished {t : Tid} {w : LinkWrite} (h : s.linkWrite t = some w)
    (hf : w.Finished) : ¬ s.PartWay t := by
  rintro ⟨⟨f, r⟩, hw, hp⟩
  obtain ⟨w', hw', -, rfl, rfl⟩ := writers_eq_some.1 hw
  rw [h] at hw'; cases hw'
  exact hp.1 hf.2

theorem emit (h : Linked s) (a : Act) : Linked (s.emit a) :=
  h.same (fun _ => ⟨rfl, rfl, rfl⟩) rfl rfl rfl (fun _ => rfl) fun _ => rfl

theorem bypass (h : Linked s) (b : Bool) : Linked { s with bypass := b } :=
  h.same (fun _ => ⟨rfl, rfl, rfl⟩) rfl rfl rfl (fun _ => rfl) fun _ => rfl

theorem setReader (h : Linked s) (i : ℕ) (pc : ReaderPc) : Linked (s.setReader i pc) :=
  h.same (fun _ => ⟨rfl, rfl, rfl⟩) rfl rfl rfl (fun _ => rfl) fun _ => rfl

theorem graceClose (h : Linked s) : Linked s.graceClose :=
  graceClose_ind (fun _ => h) fun _ => h.down rfl rfl rfl (by simp) fun t w hw => by
    cases t <;> exact hw

/-- The process socket is closed by `grace_close`. -/
theorem not_alive_graceClose (hs : Shape s) : ¬ s.graceClose.Alive := by
  intro ha
  have := ha.1
  rw [hs.graceClose.closed (graceClose_hasClosed s)] at this; cases this

theorem graceClose_setWay (h : Linked s) (hs : Shape s) {d : Dir} {w : Way}
    (hw : w.relay.linkWrite = none) : Linked (s.graceClose.setWay d w) :=
  h.graceClose.setWay (fun ha => absurd ha (not_alive_graceClose hs)) (by simp [hw])

theorem connectProcess (h : Linked s) (gen : ℕ) : Linked (s.connectProcess gen) := by
  refine connectProcess_ind (fun _ => h) fun _ => h.down rfl rfl rfl ?_ fun t w hw => ?_
  · simp only [reconnecting]; split <;> simp
  · cases t with
    | connector j =>
      by_cases hj : j = s.nConnectors
      · subst hj
        simp only [linkWrite, reconnecting, Function.update_self] at hw
        split at hw <;> cases hw
      · simpa [linkWrite, reconnecting, hj] using hw
    | _ => exact hw

theorem fresh_notify (s : Session) : s.Fresh (s.asyncWriteProcess (frame .fromServerToClient [])) :=
  ⟨_, ⟨_, [], by simp, rfl⟩, rfl⟩

/-- A relay that is not part-way continues its loop. -/
theorem relayLoop (h : Linked s) (hs : Shape s) {d : Dir} (hold : s.Alive → ¬ s.PartWay (.relay d)) :
    Linked (s.relayLoop d) := by
  refine relayLoop_ind (fun _ => h.graceClose_setWay hs rfl)
    (fun _ _ => h.setWay hold fun u hu => by cases hu) (fun _ _ _ _ => h.setWay hold fun u hu => ?_)
      fun _ _ _ => h.setWay hold fun u hu => by cases hu
  cases hu
  exact fresh_notify s

/-- `connect_process` takes the connection down, or it is connecting already. -/
theorem relayReconnect (h : Linked s) (hs : Shape s) (d : Dir) (gen : ℕ)
    (hold : s.Alive → ¬ s.PartWay (.relay d)) : Linked (s.relayReconnect d gen) := by
  refine (h.connectProcess gen).relayLoop (hs.connectProcess gen) ?_
  refine connectProcess_ind (P := fun s' => s'.Alive → ¬ s'.PartWay (.relay d)) (fun _ => hold)
    fun _ ha => ?_
  have := ha.1
  simp only [reconnecting] at this
  split at this <;> cases this

theorem relayFlush (h : Linked s) (hs : Shape s) (d : Dir) (gen : ℕ)
    (hold : s.Alive → ¬ s.PartWay (.relay d)) : Linked (s.relayFlush d gen) := by
  refine relayFlush_ind (fun _ => ?_) fun _ => ?_
  · exact (h.bypass true).relayReconnect (hs.congr rfl rfl rfl rfl rfl rfl rfl rfl rfl) d gen hold
  · exact ((h.bypass true).emit _).setWay hold fun u hu => by cases hu

theorem readerReconnect (h : Linked s) (i gen : ℕ) : Linked (s.readerReconnect i gen) :=
  (h.connectProcess gen).setReader i _

theorem readerFlushClient (h : Linked s) (i gen : ℕ) : Linked (s.readerFlushClient i gen) :=
  readerFlushClient_ind (fun _ => (h.bypass true).readerReconnect i gen)
    fun _ => ((h.bypass true).emit _).setReader i _

theorem readerFlushServer (h : Linked s) (i gen : ℕ) : Linked (s.readerFlushServer i gen) :=
  readerFlushServer_ind (fun _ => (h.bypass true).readerFlushClient i gen)
    fun _ => ((h.bypass true).emit _).setReader i _

theorem clearFlushed (h : Linked s) (d : Dir) (w : PeerWrite) : Linked (s.clearFlushed d w) :=
  (h.emit _).setWay_same rfl

theorem noteRead (h : Linked s) (i : ℕ) : Linked (s.noteRead i) := by
  refine noteRead_ind (fun _ => h.same (fun g => ?_) rfl rfl rfl (fun _ => rfl) fun _ => rfl)
    fun _ => h
  by_cases hg : g = s.conns <;> simp [setLink, link, hg]

theorem readHead (h : Linked s) (i : ℕ) : Linked (s.readHead i) := (h.noteRead i).setReader i _

theorem dispatch (h : Linked s) (i conn : ℕ) (head : ResponseHead) (buf : List Byte) :
    Linked (s.dispatch i conn head buf) := by
  have h₁ := h.emit (.response i head)
  refine dispatch_ind (fun d _ => innerProxy_ind (fun _ => (h₁.emit _).setReader i _) fun _ =>
    actOnHead_ind (fun _ => h₁.graceClose.setReader i _) fun _ => ?_) ?_ (h₁.readHead i)
  · refine h₁.same (fun _ => ⟨rfl, rfl, rfl⟩) rfl rfl rfl (fun d' => ?_) fun _ => rfl
    by_cases hd : d' = d
    · subst hd; simp [Session.releasing]
    · simp [Session.releasing, hd]
  · exact (h₁.same (x := (s.emit (.response i head)).cancelTimer) (fun _ => ⟨rfl, rfl, rfl⟩) rfl rfl rfl
      (fun _ => rfl) fun _ => rfl).readHead i

/-- A part of the write fails: the connection is broken, unless it was not up. -/
theorem breakLink (h : Linked s) {t : Tid} {w : LinkWrite} (ht : s.linkWrite t = some w)
    (hf : w.CanFail) : Linked (s.breakLink w) ∧
      ((s.breakLink w).Alive → ¬ (s.breakLink w).PartWay t) := by
  have hwr : ∀ {s' : Session} {f r}, (∀ t, s'.linkWrite t = s.linkWrite t) → s'.conns = s.conns →
      (f, r) ∈ s'.writers t → w.gen = s.conns := by
    intro s' f r hl hc hw
    obtain ⟨w', hw', hg, -, -⟩ := writers_eq_some.1 hw
    rw [hl, ht] at hw'; cases hw'
    rw [hg, hc]
  refine breakLink_ind (P := fun s' => Linked s' ∧ (s'.Alive → ¬ s'.PartWay t)) (fun hl => ?_)
    fun hn => ⟨h, fun ha ⟨⟨f, r⟩, hw, _⟩ => ?_⟩
  · generalize hs' : ({ s with links := _ } : Session) = s'
    have hsent : ∀ g, ((s'.links g).sent = (s.links g).sent ∧
        (s'.links g).begun = (s.links g).begun) ∧ ((s'.links g).broken = false → g ≠ w.gen ∧ (s.links g).broken = false) := by
      subst hs'
      intro g
      by_cases hg : g = w.gen <;> simp [hg]
    have hsame : (∀ t, s'.linkWrite t = s.linkWrite t) ∧ s'.conns = s.conns ∧
        s'.fourTuple = s.fourTuple ∧ s'.proxyProcessSocket = s.proxyProcessSocket := by
      subst hs'; exact ⟨fun t => by cases t <;> rfl, rfl, rfl, rfl⟩
    obtain ⟨hlw, hc, htup, hsock⟩ := hsame
    constructor
    · refine h.keep (fun g => (hsent g).1) hc htup (fun hs => hsock ▸ hs) (fun ha => ⟨hsock ▸ ha.1, ?_⟩)
        (fun t' u hu => .inl (by rwa [← hlw])) fun _ t' u hu _ _ => by rwa [hlw]
      have := ha.2
      rw [link, hc] at this
      exact ((hsent _).2 this).2
    · rintro ha ⟨⟨f, r⟩, hw, -⟩
      have := ha.2
      rw [link, hc] at this
      exact ((hsent _).2 this).1 (hwr hlw hc hw).symm
  · -- the part was issued on a socket that was not connected
    have hd : w.io = .dead := by
      cases hio : w.io with
      | live => exact absurd hio hn
      | dead => rfl
      | idle => exact absurd hio hf
    exact h.dead t w ht hd (hwr (fun _ => rfl) rfl hw) ha.1

/-- A read from a peer starts one frame. -/
theorem writeProcess (h : Linked s) {d : Dir} {live : Bool} {bytes : List Byte}
    (hpc : (s.way d).relay = .readProcess live) (hb : bytes.length < 2 ^ 32) :
    Linked (s.writeProcess d bytes) := by
  rw [writeProcess_eq]
  have h₁ := h.setWay (d := d) (w := { s.way d with
    received := (s.way d).received ++ bytes
    storedData := (s.way d).storedData ++ [Packet.ofData bytes]
    block := (s.way d).block.map fun b => b.updateAvailable (UInt32.ofNat bytes.length + 5)
    relay := .writeProcess (s.asyncWriteProcess (CppProxy.frame d.dataType bytes)) })
    (fun _ => not_partWay_of_none (by rw [linkWrite, hpc]; rfl)) fun u hu => by
      cases hu; exact ⟨_, ⟨_, bytes, hb, rfl⟩, rfl⟩
  refine h₁.same (fun g => ?_) rfl rfl rfl (fun _ => rfl) fun _ => rfl
  show (s.framed d bytes g).sent = (s.links g).sent ∧
    (s.framed d bytes g).begun = (s.links g).begun ∧
    (s.framed d bytes g).broken = (s.links g).broken
  unfold framed
  split
  · by_cases hg : g = s.conns <;> simp [hg, link]
  · exact ⟨rfl, rfl, rfl⟩

/-- The write of one coroutine is replaced. -/
theorem linkWrite_setLinkWrite {t : Tid} {w v : LinkWrite} (ht : s.linkWrite t = some w) :
    (s.setLinkWrite v t).linkWrite t = some v ∧
      ∀ t' ≠ t, (s.setLinkWrite v t).linkWrite t' = s.linkWrite t' := by
  cases t with
  | relay d =>
    constructor
    · simp only [linkWrite, setLinkWrite, setRelay_way, Function.update_self] at ht ⊢
      cases hpc : (s.way d).relay <;> rw [hpc] at ht <;> cases ht <;> rfl
    · intro t' ht'
      cases t' with
      | relay d' =>
        have hd : d' ≠ d := fun hd => ht' (by rw [hd])
        simp [linkWrite, setLinkWrite, hd]
      | _ => rfl
  | connector j =>
    constructor
    · simp only [linkWrite, setLinkWrite, Session.setConnector, Function.update_self] at ht ⊢
      cases hpc : s.connectors j with
      | fourTuple => rw [hpc] at ht; cases ht; rfl
      | _ => rw [hpc] at ht; cases ht
    · intro t' ht'
      cases t' with
      | connector j' =>
        have hj : j' ≠ j := fun hj => ht' (by rw [hj])
        simp [linkWrite, setLinkWrite, Session.setConnector, hj]
      | _ => rfl
  | reader i => cases ht
  | detector k => cases ht

theorem setLinkWrite_frame (s : Session) (w : LinkWrite) (t : Tid) :
    (s.setLinkWrite w t).links = s.links ∧ (s.setLinkWrite w t).conns = s.conns ∧
      (s.setLinkWrite w t).fourTuple = s.fourTuple ∧
      (s.setLinkWrite w t).proxyProcessSocket = s.proxyProcessSocket := by
  cases t <;> exact ⟨rfl, rfl, rfl, rfl⟩

/-- Only relays and connectors write to the process. -/
theorem not_partWay (hs : Shape s) {t : Tid} {k : ℕ} (hA : s.Apart (.push t k))
    (ht : s.linkWrite t ≠ none) : ∀ t' ≠ t, ¬ s.PartWay t' := by
  obtain ⟨hrelay, hconn⟩ := hA ht
  intro t' htt
  cases t' with
  | relay d => exact hrelay d htt
  | connector j =>
    by_cases hj : j < s.nConnectors
    · exact hconn j hj htt
    · refine not_partWay_of_none ?_
      rw [linkWrite, hs.connectors j (by omega)]; rfl
  | reader i => exact not_partWay_of_none rfl
  | detector k => exact not_partWay_of_none rfl

/-- A part of a frame goes out while no other frame is part-way. -/
theorem pushLink (h : Linked s) (hs : Shape s) {t : Tid} {k : ℕ} {w : LinkWrite}
    (hA : s.Apart (.push t k)) (hw : s.linkWrite t = some w) (hg : w.gen = s.conns)
    (hal : s.Alive) (h0 : 0 < k) (hk : k ≤ w.rest.length) :
    Linked ((s.sendLink w k).setLinkWrite { w with io := .idle, rest := w.rest.drop k } t) := by
  generalize hs₁ : s.sendLink w k = s₁
  have hsame : (∀ t, s₁.linkWrite t = s.linkWrite t) ∧ s₁.conns = s.conns ∧
      s₁.fourTuple = s.fourTuple ∧ s₁.proxyProcessSocket = s.proxyProcessSocket := by
    subst hs₁; exact ⟨fun t => by cases t <;> rfl, rfl, rfl, rfl⟩
  have hlinks : s₁.link.sent = s.link.sent ++ w.rest.take k ∧
      s₁.link.begun = s.link.begun ++ (if w.rest = w.frame then [w.frame] else []) ∧
      ∀ g ≠ s.conns, s₁.links g = s.links g := by
    subst hs₁
    exact ⟨by rw [sendLink, setLink_link], by rw [sendLink, setLink_link],
      fun g hg => by simp [sendLink, setLink, hg]⟩
  obtain ⟨hlw, hc₁, htup, hsock⟩ := hsame
  obtain ⟨hsent, hbegun, hother⟩ := hlinks
  obtain ⟨hself, hrest⟩ := linkWrite_setLinkWrite (s := s₁) (t := t) (w := w)
    (v := { w with io := .idle, rest := w.rest.drop k }) (by rw [hlw]; exact hw)
  obtain ⟨hl', hc', htup', hsock'⟩ := setLinkWrite_frame s₁
    { w with io := .idle, rest := w.rest.drop k } t
  generalize s₁.setLinkWrite { w with io := .idle, rest := w.rest.drop k } t = s' at *
  obtain ⟨hframe, hlen⟩ := h.frames t w hw
  have hwriters : ∀ t' ≠ t, s'.writers t' = s.writers t' := by
    intro t' ht'
    simp only [writers, hrest t' ht', hlw, hc', hc₁]
  have hpush := (h.clean hal).send (v := s'.writers) (t := t) (f := w.frame) (k := k)
    (writers_eq_some.2 ⟨w, hw, hg, rfl, rfl⟩) hframe h0 hk hlen
    (fun t' ht' f r hw' hp => not_partWay hs hA (by simp [hw]) t' ht' ⟨(f, r), hw', hp⟩)
    (writers_eq_some.2 ⟨_, hself, by rw [hc', hc₁]; exact hg, rfl, rfl⟩) hwriters
  have hcase : ∀ t' u, s'.linkWrite t' = some u → t' = t ∧ u = { w with io := .idle, rest := w.rest.drop k } ∨
      s.linkWrite t' = some u := by
    intro t' u hu
    by_cases ht' : t' = t
    · subst ht'; rw [hself] at hu; cases hu; exact .inl ⟨rfl, rfl⟩
    · rw [hrest t' ht', hlw] at hu; exact .inr hu
  refine ⟨fun t' u hu => ?_, fun t' u hu => ?_, fun t' u hu hd hg' => ?_, ?_, fun g => ?_, fun _ => ?_⟩
  · rcases hcase t' u hu with ⟨rfl, rfl⟩ | hu
    · exact ⟨hframe, (List.drop_suffix k w.rest).trans hlen⟩
    · exact h.frames t' u hu
  · rw [hc', hc₁]
    rcases hcase t' u hu with ⟨rfl, rfl⟩ | hu
    · exact h.gen t' w hw
    · exact h.gen t' u hu
  · rw [hsock', hsock]
    rcases hcase t' u hu with ⟨rfl, rfl⟩ | hu
    · cases hd
    · exact h.dead t' u hu hd (by rw [hg', hc', hc₁])
  · rw [htup', htup]; exact h.tuple
  · rw [hl']
    by_cases hgc : g = s.conns
    · subst hgc
      have : s₁.links s.conns = s₁.link := by rw [link, hc₁]
      rw [this, hsent, hbegun]; exact hpush.2
    · rw [hother g hgc]; exact h.sent g
  · have : s'.link = s₁.link := by rw [link, link, hl', hc']
    rw [this, hsent, hbegun]; exact hpush.1

/-- The next part of a frame is issued. -/
theorem issueWrite (h : Linked s) {t : Tid} {w : LinkWrite} (hA : s.Apart (.issue t))
    (hw : s.linkWrite t = some w) :
    Linked (s.setLinkWrite { w with gen := s.conns, io := s.issued } t) := by
  obtain ⟨hself, hrest⟩ := linkWrite_setLinkWrite (v := { w with gen := s.conns, io := s.issued }) hw
  obtain ⟨hl', hc', htup', hsock'⟩ := setLinkWrite_frame s { w with gen := s.conns, io := s.issued } t
  generalize s.setLinkWrite { w with gen := s.conns, io := s.issued } t = s' at *
  have hcase : ∀ t' u, s'.linkWrite t' = some u →
      t' = t ∧ u = { w with gen := s.conns, io := s.issued } ∨ s.linkWrite t' = some u := by
    intro t' u hu
    by_cases ht' : t' = t
    · subst ht'; rw [hself] at hu; cases hu; exact .inl ⟨rfl, rfl⟩
    · rw [hrest t' ht'] at hu; exact .inr hu
  have hlink : s'.link = s.link := by rw [link, link, hl', hc']
  refine ⟨fun t' u hu => ?_, fun t' u hu => ?_, fun t' u hu hd hg' => ?_, htup' ▸ h.tuple,
    fun g => by rw [hl']; exact h.sent g, fun ha => ?_⟩
  · rcases hcase t' u hu with ⟨rfl, rfl⟩ | hu
    · exact h.frames t' w hw
    · exact h.frames t' u hu
  · rw [hc']
    rcases hcase t' u hu with ⟨rfl, rfl⟩ | hu
    · exact le_rfl
    · exact h.gen t' u hu
  · rw [hsock']
    rcases hcase t' u hu with ⟨rfl, rfl⟩ | hu
    · intro hs
      simp [issued, hs] at hd
    · exact h.dead t' u hu hd (by rw [hg', hc'])
  · rw [hlink]
    have ha' : s.Alive := by
      rw [Alive, hsock', hlink] at ha; exact ha
    refine (h.clean ha').congr fun t' f r hp => ?_
    by_cases ht' : t' = t
    · subst ht'
      rw [writers_eq_some, writers_eq_some, hself, hw]
      constructor
      · rintro ⟨u, hu, -, rfl, rfl⟩
        cases hu
        exact ⟨w, rfl, hA ha' w hw hp, rfl, rfl⟩
      · rintro ⟨u, hu, -, rfl, rfl⟩
        cases hu
        exact ⟨_, rfl, hc'.symm, rfl, rfl⟩
    · rw [writers_eq_some, writers_eq_some, hrest t' ht', hc']

/-! ## The steps -/

theorem init (c : Conf) : Linked (Session.init c) := by
  refine ⟨fun t w hw => ?_, fun t w hw => ?_, fun t w hw => ?_, c.fourTuple_len, fun g => .nil,
    fun ha => by cases ha.1⟩
  all_goals rw [linkWrite_init] at hw; cases hw

theorem step (h : Linked s) (hs : Shape s) {e : Event} (hA : s.Apart e) (hr : Rule s e s') :
    Linked s' := by
  have hnone : ∀ {d}, (s.way d).relay.linkWrite = none → s.Alive → ¬ s.PartWay (.relay d) :=
    fun hn _ => not_partWay_of_none hn
  cases hr with
  | @gotDirect d live bytes hpc =>
    rw [writeDirect_eq]
    exact (h.setWay (d := d) (hnone (by rw [hpc]; rfl)) (w := { s.way d with
      received := (s.way d).received ++ bytes
      relay := .writeDirect (s.asyncWrite d bytes) }) (fun u hu => by cases hu)).same
        (fun _ => ⟨rfl, rfl, rfl⟩) rfl rfl rfl (fun _ => rfl) fun _ => rfl
  | gotProcess hpc hp => exact h.writeProcess hpc (lt_of_le_of_lt hp.2.1 (UInt32.toNat_lt _))
  | @readEof d live hpc =>
    rw [relayEof_eq]
    exact graceClose_setWay (s := { s with eof := true, trace := _ })
      (h.same (fun _ => ⟨rfl, rfl, rfl⟩) rfl rfl rfl (fun _ => rfl) fun _ => rfl)
      (hs.congr rfl rfl rfl rfl rfl rfl rfl rfl rfl) rfl
  | @readError d => exact h.graceClose_setWay hs rfl
  | @pushPeer t k d w =>
    have h₁ : Linked (s.accept d (w.rest.take k)) := h.setWay_same rfl
    cases t with
    | relay d' => 
      refine h₁.setWay_same ?_
      generalize ((s.accept d (w.rest.take k)).way d').relay = pc
      cases pc <;> rfl
    | reader i => exact h₁.setReader i _
    | connector j => exact h₁
    | detector k => exact h₁
  | pushLink hw hi hg hsock hb h0 hk => exact h.pushLink hs hA hw hg ⟨hsock, hb⟩ h0 hk
  | @pull i k r =>
    have h₁ : Linked (s.setLink { s.link with inbound := s.link.inbound.drop k }) := by
      refine h.same (fun g => ?_) rfl rfl rfl (fun _ => rfl) fun _ => rfl
      by_cases hg : g = s.conns <;> simp [setLink, link, hg]
    exact h₁.setReader i _
  | issueWrite hw => exact h.issueWrite hA hw
  | @issueRead i => exact (h.noteRead i).setReader i _
  | @notified d w hpc hf =>
    exact h.setWay (fun _ => not_partWay_of_finished (by rw [linkWrite, hpc]; rfl) hf)
      fun u hu => by cases hu
  | @notifyFailed d w hpc hf =>
    obtain ⟨h₁, hp⟩ := h.breakLink (t := .relay d) (by rw [linkWrite, hpc]; rfl) hf
    exact h₁.setWay hp fun u hu => by cases hu
  | @wroteDirect d w hpc => exact h.relayLoop hs (hnone (by rw [hpc]; rfl))
  | @wroteProcess d w hpc hf =>
    exact h.relayLoop hs fun _ => not_partWay_of_finished (by rw [linkWrite, hpc]; rfl) hf
  | @processFailed d w hpc hf =>
    obtain ⟨h₁, hp⟩ := h.breakLink (t := .relay d) (by rw [linkWrite, hpc]; rfl) hf
    exact h₁.relayFlush (hs.breakLink w) d _ hp
  | @relayFlushed d gen w hpc =>
    refine (h.clearFlushed d w).relayReconnect (hs.clearFlushed d w) d _ fun _ => ?_
    refine not_partWay_of_none ?_
    simp [linkWrite, Session.clearFlushed, setStored, hpc, RelayPc.linkWrite]
  | @relayWriteFailed d => exact h.graceClose_setWay hs rfl
  | @gotHead i => exact (h.noteRead i).setReader i _
  | gotHeadOnly => exact h.dispatch _ _ _ _
  | gotBody => exact h.dispatch _ _ _ _
  | @readFailed i =>
    exact readerFailed_ind (fun _ => h.setReader i _) fun _ => h.readerFlushServer _ _
  | @wroteNew i d conn head =>
    refine actOnHead_ind (fun _ => h.graceClose.setReader i _) fun _ => ?_
    refine h.same (fun _ => ⟨rfl, rfl, rfl⟩) rfl rfl rfl (fun d' => ?_) fun _ => rfl
    by_cases hd : d' = d
    · subst hd; simp [Session.releasing]
    · simp [Session.releasing, hd]
  | @released i d =>
    refine clearReleased_ind (fun stored _ => ?_) fun _ => ?_
    · exact (h.setWay_same (d := d) (w := { s.way d with storedData := stored }) rfl).readHead i
    exact (h.same (x := { s with undefined := true }) (fun _ => ⟨rfl, rfl, rfl⟩) rfl rfl rfl
      (fun _ => rfl) fun _ => rfl).readHead i
  | readerWriteFailed => exact h.graceClose.setReader _ _
  | flushedServer => exact (h.clearFlushed _ _).readerFlushClient _ _
  | flushServerFailed => exact h.graceClose.readerFlushClient _ _
  | flushedClient => exact (h.clearFlushed _ _).readerReconnect _ _
  | flushClientFailed => exact h.graceClose.readerReconnect _ _
  | @connected j hpc =>
    have h₁ : Linked { s with bypass := false, processConnecting := false } :=
      h.same (fun _ => ⟨rfl, rfl, rfl⟩) rfl rfl rfl (fun _ => rfl) fun _ => rfl
    refine h₁.setConnector (fun _ => not_partWay_of_none ?_) fun u hu => ?_
    · simp [linkWrite, hpc, ConnectorPc.linkWrite]
    · cases hu
      exact ⟨_, ⟨_, s.fourTuple, h.tuple, rfl⟩, rfl⟩
  | @connectFailed j hpc =>
    exact h.setConnector (fun _ => not_partWay_of_none (by simp [linkWrite, hpc, ConnectorPc.linkWrite]))
      fun u hu => by cases hu
  | @retry j hpc =>
    have hn : s.linkWrite (.connector j) = none := by simp [linkWrite, hpc, ConnectorPc.linkWrite]
    refine connectLoop_ind (fun _ => h.setConnector (fun _ => not_partWay_of_none hn)
      fun u hu => by cases hu) fun _ => ?_
    have h₁ := h.setConnector (q := .connecting false) (fun _ => not_partWay_of_none hn)
      fun u hu => by cases hu
    have hup : (s.asyncConnect j).proxyProcessSocket = .connected →
        s.proxyProcessSocket = .connected := by
      simp only [asyncConnect]
      split <;> simp
    exact h₁.keep (fun _ => ⟨rfl, rfl⟩) rfl rfl hup (fun ha => ⟨hup ha.1, ha.2⟩) (fun _ _ hw => .inl hw)
      fun _ _ _ hw _ _ => hw
  | @wroteTuple j conn w hpc hf =>
    obtain ⟨ds, n, hd⟩ := s.superviseProcess_detectors j conn
    rw [hd]
    have h₁ := h.setConnector (j := j) (q := .done)
      (fun _ => not_partWay_of_finished (by rw [linkWrite, hpc]; rfl) hf) fun u hu => by cases hu
    have h₂ : Linked (s.spawning j conn) :=
      h₁.same (fun _ => ⟨rfl, rfl, rfl⟩) rfl rfl rfl (fun _ => rfl) fun _ => rfl
    exact (h₂.readHead s.nReaders).same (fun _ => ⟨rfl, rfl, rfl⟩) rfl rfl rfl (fun _ => rfl) fun _ => rfl
  | @tupleFailed j conn w hpc hf =>
    obtain ⟨h₁, hp⟩ := h.breakLink (t := .connector j) (by rw [linkWrite, hpc]; rfl) hf
    exact h₁.setConnector hp fun u hu => by cases hu
  | timedOut => exact h.down rfl rfl rfl (by simp) fun t w hw => by cases t <;> exact hw
  | rearm =>
    obtain ⟨ds, hd⟩ := s.detectLoop_detectors _ _
    rw [hd]
    exact h.same (fun _ => ⟨rfl, rfl, rfl⟩) rfl rfl rfl (fun _ => rfl) fun _ => rfl
  | @connect j hpc =>
    generalize hs' : ({ s with
      proxyProcessSocket := _, conns := _, links := _, connectors := _ } : Session) = s'
    have hlw : ∀ t w, s'.linkWrite t = some w → s.linkWrite t = some w := by
      subst hs'
      intro t w hw
      cases t with
      | connector j' =>
        by_cases hj : j' = j
        · subst hj; simp [linkWrite, ConnectorPc.linkWrite] at hw
        · simpa [linkWrite, hj] using hw
      | _ => exact hw
    have hc : s'.conns = s.conns + 1 := by subst hs'; rfl
    have hgen : ∀ t w, s'.linkWrite t = some w → w.gen ≠ s'.conns := by
      intro t w hw
      have := h.gen t w (hlw t w hw)
      omega
    refine ⟨fun t w hw => h.frames t w (hlw t w hw), fun t w hw => ?_,
      fun t w hw _ hg => absurd hg (hgen t w hw), by subst hs'; exact h.tuple, fun g => ?_, fun _ => ?_⟩
    · have := h.gen t w (hlw t w hw)
      omega
    · subst hs'
      by_cases hg : g = s.conns + 1
      · subst hg; simpa using Framed.nil
      · simpa [hg] using h.sent g
    · have : s'.link = {} := by subst hs'; simp [link]
      rw [this]
      refine clean_nil fun t f r hw _ => ?_
      obtain ⟨w, hw, hg, -⟩ := writers_eq_some.1 hw
      exact hgen t w hw hg
  | expire => exact h.same (fun _ => ⟨rfl, rfl, rfl⟩) rfl rfl rfl (fun _ => rfl) fun _ => rfl
  | @respond g r =>
    refine h.same (fun g' => ?_) rfl rfl rfl (fun _ => rfl) fun _ => rfl
    by_cases hg : g' = g <;> simp [hg]

end Linked

/-! ## The process's end -/

/-- The other coroutine that writes. -/
def Coroutine.other : Coroutine → Coroutine
  | setup => heartbeat
  | heartbeat => setup

namespace Process

variable (p : Process)

/-- The head, and the rest of it, of a coroutine that writes. -/
def writers (t : Coroutine) : Option (List Byte × List Byte) :=
  (p.headWrite t).map fun w => (w.frame, w.rest)

/-- A head of the coroutine is begun and not sent whole. -/
def PartWay (t : Coroutine) : Prop := ∃ q ∈ p.writers t, Framing.PartWay q.1 q.2

instance (t : Coroutine) : Decidable (p.PartWay t) :=
  inferInstanceAs (Decidable (∃ q ∈ p.writers t, Framing.PartWay q.1 q.2))

/-- A part of a head is sent while the other coroutine is not part-way. -/
def Apart : ProcessEvent → Prop
  | .push t _ => ¬ p.PartWay t.other
  | _ => True

instance : ∀ e, Decidable (p.Apart e)
  | .push _ _ => inferInstanceAs (Decidable (¬ _))
  | .pull _ | .readDone _ | .readEof _ _ | .readError | .tick | .cancelled | .wrote _
  | .writeFailed _ => inferInstanceAs (Decidable True)

/-- The writes of the process, and what is sent. -/
structure Linked (p : Process) : Prop where
  frames : ∀ t w, p.headWrite t = some w → IsHead w.frame ∧ w.rest <:+ w.frame
  sent : Framed IsHead p.begun p.sent
  clean : p.hasClosed = false → Clean IsHead p.writers p.begun p.sent

variable {p} {p' : Process}

theorem writers_eq_some {t : Coroutine} {f r : List Byte} :
    p.writers t = some (f, r) ↔ p.headWrite t = some ⟨f, r⟩ := by
  unfold writers
  cases p.headWrite t with
  | none => simp
  | some w => cases w; simp

theorem not_partWay_of_none {t : Coroutine} (h : p.headWrite t = none) : ¬ p.PartWay t := by
  rintro ⟨⟨f, r⟩, hw, -⟩
  rw [Option.mem_def, writers_eq_some, h] at hw; cases hw

theorem not_partWay_of_finished {t : Coroutine} {w : HeadWrite} (h : p.headWrite t = some w)
    (hr : w.rest = []) : ¬ p.PartWay t := by
  rintro ⟨⟨f, r⟩, hw, hp⟩
  rw [Option.mem_def, writers_eq_some, h] at hw; cases hw
  exact hp.1 hr

theorem isHead_passHead (type : DataType) (total : UInt64) : IsHead (passHead type total).bytes :=
  ⟨_, rfl, rfl⟩

namespace Linked

/-- Nothing is sent: writes that are not part-way end, and new ones start. -/
theorem keep (h : Linked p) (hs : p'.sent = p.sent ∧ p'.begun = p.begun) (ho : p'.hasClosed = false → p.hasClosed = false)
    (hw : ∀ t w, p'.headWrite t = some w → p.headWrite t = some w ∨ IsHead w.frame ∧ w.rest = w.frame)
    (hgone : p'.hasClosed = false → ∀ t w, p.headWrite t = some w →
      Framing.PartWay w.frame w.rest → p'.headWrite t = some w) : Linked p' := by
  refine ⟨fun t w hw' => ?_, hs.1 ▸ hs.2 ▸ h.sent, fun hc => ?_⟩
  · rcases hw t w hw' with hw' | ⟨hf, hr⟩
    · exact h.frames t w hw'
    · exact ⟨hf, hr ▸ List.suffix_rfl⟩
  · rw [hs.1, hs.2]
    refine (h.clean (ho hc)).congr fun t f r hp => ?_
    rw [writers_eq_some, writers_eq_some]
    refine ⟨fun hw' => ?_, fun hw' => hgone hc t _ hw' hp⟩
    rcases hw t _ hw' with hw' | ⟨-, hr⟩
    · exact hw'
    · exact absurd hr hp.2

/-- `setup` goes on from something else than a head part-way. -/
theorem setSetup (h : Linked p) {q : SetupPc} (hs : p'.sent = p.sent ∧ p'.begun = p.begun)
    (ho : p'.hasClosed = false → p.hasClosed = false) (hb : p'.heartbeat = p.heartbeat)
    (hpc : p'.setup = q) (hold : p'.hasClosed = false → ¬ p.PartWay .setup)
    (hnew : ∀ w, q = .write w → IsHead w.frame ∧ w.rest = w.frame) : Linked p' := by
  refine h.keep hs ho (fun t w hw => ?_) fun hc t w hw hp => ?_
  · cases t with
    | setup =>
      simp only [headWrite, hpc] at hw
      cases q <;> cases hw
      exact .inr (hnew w rfl)
    | heartbeat => exact .inl (by simpa only [headWrite, hb] using hw)
  · cases t with
    | setup => exact absurd ⟨_, writers_eq_some.2 hw, hp⟩ (hold hc)
    | heartbeat => simpa only [headWrite, hb] using hw

theorem setHeartbeat (h : Linked p) {q : HeartbeatPc} (hs : p'.sent = p.sent ∧ p'.begun = p.begun)
    (ho : p'.hasClosed = false → p.hasClosed = false) (hb : p'.setup = p.setup)
    (hpc : p'.heartbeat = q) (hold : p'.hasClosed = false → ¬ p.PartWay .heartbeat)
    (hnew : ∀ w, q = .write w → IsHead w.frame ∧ w.rest = w.frame) : Linked p' := by
  refine h.keep hs ho (fun t w hw => ?_) fun hc t w hw hp => ?_
  · cases t with
    | heartbeat =>
      simp only [headWrite, hpc] at hw
      cases q <;> cases hw
      exact .inr (hnew w rfl)
    | setup => exact .inl (by simpa only [headWrite, hb] using hw)
  · cases t with
    | heartbeat => exact absurd ⟨_, writers_eq_some.2 hw, hp⟩ (hold hc)
    | setup => simpa only [headWrite, hb] using hw

theorem setupLoop (h : Linked p) (hold : ¬ p.PartWay .setup) : Linked p.setupLoop := by
  unfold Process.setupLoop
  split
  · exact h.setSetup (q := .done) ⟨rfl, rfl⟩ (by simp [Process.graceClose]) rfl rfl (fun _ => hold) (by simp)
  · exact h.setSetup (q := .readHead []) ⟨rfl, rfl⟩ id rfl rfl (fun _ => hold) (by simp)

/-- What `setup` reads and calls is no part of the link. -/
theorem congr (h : Linked p) (hs : p'.setup = p.setup) (hb : p'.heartbeat = p.heartbeat)
    (hl : p'.sent = p.sent ∧ p'.begun = p.begun) (hc : p'.hasClosed = p.hasClosed) : Linked p' := by
  have hw : ∀ t, p'.headWrite t = p.headWrite t := by
    intro t
    cases t <;> simp only [headWrite, hs, hb]
  exact h.keep hl (fun ho => hc ▸ ho) (fun t w hw' => .inl (hw t ▸ hw'))
    fun _ t w hw' _ => (hw t).trans hw'

theorem handle (h : Linked p) (hold : ¬ p.PartWay .setup) (head : List Byte) (parses : Bool) :
    Linked (p.handle head parses) := by
  have hnew : ∀ type total w, SetupPc.write (.start (passHead type total)) = .write w →
      IsHead w.frame ∧ w.rest = w.frame := by
    intro type total w hw
    cases hw
    exact ⟨isHead_passHead _ _, rfl⟩
  unfold Process.handle
  dsimp only
  split
  · exact h.setSetup ⟨rfl, rfl⟩ id rfl rfl (fun _ => hold) (hnew _ _)
  · split
    · exact setupLoop (p := Process.call { p with resHandledTotalPkgLen := _ } _ _)
        (h.congr rfl rfl ⟨rfl, rfl⟩ rfl) hold
    · exact h.setSetup ⟨rfl, rfl⟩ id rfl rfl (fun _ => hold) (hnew _ _)
  · split
    · exact setupLoop (p := Process.call p _ _) (h.congr rfl rfl ⟨rfl, rfl⟩ rfl) hold
    · exact h.setSetup ⟨rfl, rfl⟩ id rfl rfl (fun _ => hold) fun w hw => by cases hw
  · exact h.setupLoop hold

theorem setupHead (h : Linked p) (hold : ¬ p.PartWay .setup) (head : List Byte) (parses : Bool) :
    Linked (p.setupHead head parses) := by
  unfold Process.setupHead
  dsimp only
  split
  · exact h.setSetup ⟨rfl, rfl⟩ id rfl rfl (fun _ => hold) fun w hw => by cases hw
  · exact handle (p := p.growBuf _) (h.congr rfl rfl ⟨rfl, rfl⟩ rfl) hold head parses

theorem heartbeatLoop (h : Linked p) (hold : ¬ p.PartWay .heartbeat) : Linked p.heartbeatLoop := by
  refine h.setHeartbeat (q := if p.hasClosed then .done else .waiting) ⟨rfl, rfl⟩ id rfl rfl
    (fun _ => hold) fun w hw => ?_
  split at hw <;> cases hw

/-- A coroutine that writes fails, and closes the session. -/
theorem closed (h : Linked p) (hs : p'.sent = p.sent ∧ p'.begun = p.begun)
    (hc : p'.hasClosed = true)
    (hw : ∀ t w, p'.headWrite t = some w → p.headWrite t = some w) : Linked p' :=
  h.keep hs (fun ho => by rw [hc] at ho; cases ho) (fun t w hw' => .inl (hw t w hw'))
    fun ho => by rw [hc] at ho; cases ho

theorem other_of_ne {t t' : Coroutine} (h : t' ≠ t) : t' = t.other := by
  cases t <;> cases t' <;> first | rfl | exact absurd rfl h

/-- A part of a head goes out while the other coroutine is not part-way. -/
theorem push (h : Linked p) {t : Coroutine} {k : ℕ} {w : HeadWrite} (hA : p.Apart (.push t k))
    (hw : p.headWrite t = some w) (ho : p.hasClosed = false) (h0 : 0 < k)
    (hk : k ≤ w.rest.length) :
    Linked ((p.send w k).setHeadWrite { w with rest := w.rest.drop k } t) := by
  obtain ⟨hframe, hlen⟩ := h.frames t w hw
  generalize hp' : (p.send w k).setHeadWrite { w with rest := w.rest.drop k } t = p'
  have hsent : p'.sent = p.sent ++ w.rest.take k ∧
      p'.begun = p.begun ++ (if w.rest = w.frame then [w.frame] else []) := by
    subst hp'; cases t <;> exact ⟨rfl, rfl⟩
  have hself : p'.headWrite t = some { w with rest := w.rest.drop k } := by
    subst hp'; cases t <;> rfl
  have hother : ∀ t' ≠ t, p'.headWrite t' = p.headWrite t' := by
    subst hp'
    intro t' ht'
    cases t <;> cases t' <;> first | rfl | exact absurd rfl ht'
  have hpush := (h.clean ho).send (v := p'.writers) (t := t) (f := w.frame) (k := k)
    (writers_eq_some.2 hw) hframe h0 hk hlen
    (fun t' ht' f r hw' hp => hA (other_of_ne ht' ▸ ⟨(f, r), hw', hp⟩))
    (writers_eq_some.2 hself) fun t' ht' => by rw [Process.writers, Process.writers, hother t' ht']
  refine ⟨fun t' u hu => ?_, by rw [hsent.1, hsent.2]; exact hpush.2,
    fun _ => by rw [hsent.1, hsent.2]; exact hpush.1⟩
  by_cases ht' : t' = t
  · subst ht'
    rw [hself] at hu; cases hu
    exact ⟨hframe, (List.drop_suffix k w.rest).trans hlen⟩
  · rw [hother t' ht'] at hu
    exact h.frames t' u hu

theorem init : Linked Process.init :=
  ⟨fun t w hw => (by cases t <;> cases hw), .nil, fun _ => clean_nil fun t f r hw =>
    (by cases t <;> cases hw)⟩

/-- `setup` reads. -/
theorem not_partWay_of_reading {q : List Byte × ℕ} (hq : p.setup.reading = some q) :
    ¬ p.PartWay .setup := by
  refine not_partWay_of_none ?_
  unfold headWrite
  cases hpc : p.setup with
  | write w => rw [hpc] at hq; cases hq
  | _ => rfl

theorem step (h : Linked p) {e : ProcessEvent} (hA : p.Apart e) (hst : p.step e = some p') :
    Linked p' := by
  cases e with
  | pull bytes =>
    simp only [Process.step] at hst
    split at hst
    case h_2 => cases hst
    case h_1 got want hq =>
      split at hst <;> cases hst
      refine h.setSetup ⟨rfl, rfl⟩ id rfl rfl (fun _ => not_partWay_of_reading hq) fun w hw => ?_
      cases hpc : p.setup with
      | write w => rw [hpc] at hq; cases hq
      | _ => rw [hpc] at hw; cases hw
  | readDone parses =>
    simp only [Process.step] at hst
    split at hst
    case h_1 got hpc =>
      split at hst <;> cases hst
      exact h.setupHead (not_partWay_of_none (by rw [headWrite, hpc])) got parses
    case h_2 head got hpc =>
      split at hst <;> cases hst
      exact handle (p := p.setBuf got) (h.congr rfl rfl ⟨rfl, rfl⟩ rfl)
        (not_partWay_of_none (by simp only [headWrite, setBuf, hpc])) head parses
    case h_3 => cases hst
  | readEof garbage parses =>
    simp only [Process.step] at hst
    split at hst
    case h_1 got hpc =>
      split at hst <;> cases hst
      exact setupHead (p := { p with eof := true }) (h.congr rfl rfl ⟨rfl, rfl⟩ rfl)
        (not_partWay_of_none (by simp only [headWrite, hpc])) _ parses
    case h_2 head got hpc =>
      split at hst <;> cases hst
      exact handle (p := { p with eof := true }.setBuf got) (h.congr rfl rfl ⟨rfl, rfl⟩ rfl)
        (not_partWay_of_none (by simp only [headWrite, setBuf, hpc])) head parses
    case h_3 => cases hst
  | readError =>
    simp only [Process.step] at hst
    split at hst
    case h_2 => cases hst
    case h_1 got want hq =>
      split at hst <;> cases hst
      exact h.setSetup (q := .done) ⟨rfl, rfl⟩ (by simp [Process.graceClose]) rfl rfl
        (fun _ => not_partWay_of_reading hq) fun w hw => by cases hw
  | tick =>
    simp only [Process.step] at hst
    split at hst <;> cases hst
    case h_1 hpc =>
      exact h.setHeartbeat ⟨rfl, rfl⟩ id rfl rfl (fun _ => not_partWay_of_none (by rw [headWrite, hpc]))
        fun w hw => by cases hw; exact ⟨isHead_passHead _ _, rfl⟩
  | cancelled =>
    simp only [Process.step] at hst
    split at hst
    case h_2 => cases hst
    case h_1 hpc =>
      split at hst <;> cases hst
      exact h.heartbeatLoop (not_partWay_of_none (by rw [headWrite, hpc]))
  | push t k =>
    simp only [Process.step] at hst
    split at hst
    case h_2 => cases hst
    case h_1 w hw =>
      split at hst
      case isFalse => cases hst
      case isTrue hc =>
        cases hst
        exact h.push hA hw hc.1 hc.2.1 hc.2.2
  | wrote t =>
    simp only [Process.step] at hst
    split at hst
    case h_2 => cases hst
    case h_1 w hw =>
      split at hst
      case isFalse => cases hst
      case isTrue hr =>
        have hold := not_partWay_of_finished hw hr
        cases t with
        | setup => cases hst; exact h.setupLoop hold
        | heartbeat => cases hst; exact h.heartbeatLoop hold
  | writeFailed t =>
    simp only [Process.step] at hst
    split at hst
    case h_2 => cases hst
    case h_1 w hw =>
      split at hst
      case isFalse => cases hst
      case isTrue =>
        cases t with
        | setup =>
          cases hst
          refine h.closed ⟨rfl, rfl⟩ rfl fun t u hu => ?_
          cases t <;> first | cases hu | exact hu
        | heartbeat =>
          cases hst
          refine h.closed ⟨rfl, rfl⟩ rfl fun t u hu => ?_
          cases t <;> first | cases hu | exact hu

end Linked

end Process

end CppProxy
