/-
  cpp_proxy — the updates that the code makes.

  The code between two suspensions is a sequence of a few updates: a flag is set, the
  sockets are closed, a coroutine moves to its next program point.  What all of them
  respect, every stretch of code respects.

  * `Edit t s s'`: one update by coroutine `t`, with the test it is made under;
  * `Edits t s s'`: a sequence of them; the functions of the session are such sequences;
  * `Edits.inv`: what every update keeps, the code keeps;
  * `Session.Same`, `Edits.same`: what no code changes;
  * `Updated`, `updated_of_rule`: a step of the session is a stretch of code, perhaps after
    packets are taken off a queue, or what the kernel, a peer or the process does;
  * `Session.Frame`, `frame_of_rule`: what only some steps change.
-/
import Mathlib.Logic.Relation
import CppProxy.Frame

namespace CppProxy

open Session

/-- The coroutine that an event resumes, or whose operation it moves. -/
def Event.tid : Event → Option Tid
  | .read d _ => some (.relay d)
  | .push t _ | .issue t | .complete t | .fail t => some t
  | .pull i _ => some (.reader i)
  | .connect j => some (.connector j)
  | .expire k => some (.detector k)
  | .respond _ _ => none

/-! ## What a coroutine is about to do -/

/-- What a relay in the direct path has read and not written yet. -/
def RelayPc.unsent : RelayPc → List Byte
  | writeDirect w => w.rest
  | _ => []

/-- The bytes that a flush of a queue writes. -/
def RelayPc.flushing : RelayPc → Option (List Byte)
  | flush _ w => some w.data
  | _ => none

/-- The bytes of direction `d` that a reader in a flush writes. -/
def ReaderPc.flushing (d : Dir) : ReaderPc → Option (List Byte)
  | flushServer _ w => if d = .req then some w.data else none
  | flushClient _ w => if d = .res then some w.data else none
  | _ => none

/-- The bytes that coroutine `t` writes while it flushes the queue of direction `d`. -/
def Session.flushing (s : Session) (d : Dir) : Tid → Option (List Byte)
  | .relay d' => if d' = d then (s.way d).relay.flushing else none
  | .reader i => (s.readers i).pc.flushing d
  | .connector _ | .detector _ => none

/-- The head for direction `d` that a reader acts on when it goes on: one without
    new data, or one whose new data is written. -/
def ReaderPc.acting (d : Dir) : ReaderPc → Option ResponseHead
  | readHead r =>
    if (ResponseHead.ofBytes r.got).newDataLen = 0 ∧
        DataType.ofCode (ResponseHead.ofBytes r.got).type = some d.dataType then
      some (ResponseHead.ofBytes r.got)
    else none
  | readBody head _ =>
    if head.newDataLen = 0 ∧ DataType.ofCode head.type = some d.dataType then some head else none
  | writeNew d' _ head _ => if d' = d then some head else none
  | _ => none

/-- The head for direction `d` that coroutine `t` acts on when it goes on. -/
def Session.acting (s : Session) (d : Dir) : Tid → Option ResponseHead
  | .reader i => (s.readers i).pc.acting d
  | _ => none

/-! ## One update -/

/-- One update that the code of coroutine `t` makes. -/
inductive Edit (s : Session) : Tid → Session → Prop
  -- made by several coroutines
  | close {t} (ho : s.hasClosed = false) : Edit s t { s.cancelTimer with
      hasClosed := true
      proxyClientOpen := false
      proxyServerOpen := false
      proxyProcessSocket := .closed }
  | reconnect {t} (gen : ℕ) (ht : ∀ j, t ≠ .connector j) (hp : s.processConnecting = false) :
      Edit s t (s.reconnecting gen)
  | enableBypass {t} : Edit s t { s with bypass := true }
  | timer {t} (detectors : ℕ → DetectorPc) (nDetectors : ℕ) :
      Edit s t { s with detectors, nDetectors }
  | noteRead {t} (i : ℕ) (hs : s.proxyProcessSocket = .connected) :
      Edit s t (s.setLink { s.link with readers := i :: s.link.readers })
  | breakLink {t w} (hw : s.linkWrite t = some w) (hl : w.io = .live) : Edit s t { s with
      links := Function.update s.links w.gen { s.links w.gen with broken := true } }
  | issueWrite {t w} (hw : s.linkWrite t = some w) (hi : w.io = .idle) (hr : w.rest ≠ []) :
      Edit s t (s.setLinkWrite { w with gen := s.conns, io := s.issued } t)
  -- made by a relay
  | relayDone {d} (hc : s.hasClosed = true) : Edit s (.relay d) (s.setRelay d .done)
  | relayDirect {d} (hu : (s.way d).relay.unsent = []) (hb : s.bypass = true) :
      Edit s (.relay d) (s.relayDirect d)
  | notified {d w} (hpc : (s.way d).relay = .notify w) : Edit s (.relay d) (s.relayDirect d)
  | notify (hu : (s.way .res).relay.unsent = []) (he : s.eof = false) (hb : s.bypass = false)
      (hr : s.responseBypass = true) : Edit s (.relay .res)
        (s.setRelay .res (.notify (s.asyncWriteProcess (frame .fromServerToClient []))))
  | readProcess {d} (hu : (s.way d).relay.unsent = []) (he : s.eof = false)
      (hb : s.bypass = false) (hr : d = .res → s.responseBypass = false) :
      Edit s (.relay d) (s.innerClientOrServer2proxy2process d)
  | relayFlush {d} (gen : ℕ) (hu : (s.way d).relay.unsent = [])
      (hs : (s.way d).storedData ≠ []) :
      Edit s (.relay d) ((s.emit (.flush d (s.dstOpen d) (storedBytes (s.way d).storedData))).setRelay
        d (.flush gen (s.asyncWrite d (storedBytes (s.way d).storedData))))
  -- made by a reader
  | response {i} (head : ResponseHead) : Edit s (.reader i) (s.emit (.response i head))
  | readerDone {i} : Edit s (.reader i) (s.setReader i .done)
  | readHead {i} : Edit s (.reader i) (s.setReader i (.readHead (s.asyncReadProcess responseHeadLen)))
  | readBody {i} (head : ResponseHead) :
      Edit s (.reader i) (s.setReader i (.readBody head (s.asyncReadProcess head.newDataLen.toNat)))
  | issueRead {i r} (hr : s.linkRead i = some r) (hi : r.io = .idle) (hw : r.got.length < r.want) :
      Edit s (.reader i) (s.setLinkRead i { r with gen := s.conns, io := s.issued })
  | writeNew {i r d head} (buf : List Byte) (hr : s.linkRead i = some r) (hf : r.Finished)
      (ht : DataType.ofCode head.type = some d.dataType) (hm : .response i head ∈ s.trace) :
      Edit s (.reader i) ((s.emit (.newData d (s.dstOpen d) buf)).setReader i
        (.writeNew d r.gen head (s.asyncWrite d buf)))
  | flushServer {i} (gen : ℕ) (hs : (s.way .req).storedData ≠ []) : Edit s (.reader i)
      ((s.emit (.flush .req (s.dstOpen .req) (storedBytes (s.way .req).storedData))).setReader i
        (.flushServer gen (s.asyncWrite .req (storedBytes (s.way .req).storedData))))
  | flushClient {i} (gen : ℕ) (hs : (s.way .res).storedData ≠ []) : Edit s (.reader i)
      ((s.emit (.flush .res (s.dstOpen .res) (storedBytes (s.way .res).storedData))).setReader i
        (.flushClient gen (s.asyncWrite .res (storedBytes (s.way .res).storedData))))
  -- made by a connector or a detector
  | connectorDone {j} : Edit s (.connector j) (s.setConnector j .done)
  | wait {j} (hpc : s.connectors j = .connecting false) :
      Edit s (.connector j) (s.setConnector j .waiting)
  | retry {j} (hpc : s.connectors j = .waiting) (ho : s.hasClosed = false) :
      Edit s (.connector j) (s.asyncConnect j)
  | spawn {j conn w} (hpc : s.connectors j = .fourTuple conn w) (hf : w.Finished) :
      Edit s (.connector j) ((s.spawning j conn).setReader s.nReaders
        (.readHead (s.asyncReadProcess responseHeadLen)))
  | timedOut {k conn} (hpc : s.detectors k = .waiting conn .fired) :
      Edit s (.detector k) { s with
        proxyProcessSocket := .closed
        detectors := Function.update s.detectors k .done }

/-- Reader `i` starts to write what the head releases. -/
def Session.Releases (s : Session) (i : ℕ) (d : Dir) (conn : ℕ) (head : ResponseHead)
    (s' : Session) : Prop :=
  head.act ≠ Action.block.code ∧ s' = s.releasing i d conn head
    (prepareTransferPacket head (s.way d).storedData (s.way d).handledTotalPkgLen)

/-- A stretch of code of coroutine `t`. -/
def Edits (t : Tid) : Session → Session → Prop := Relation.ReflTransGen fun s s' => Edit s t s'

namespace Edits

variable {t : Tid} {s s₁ s' : Session}

theorem refl (t : Tid) (s : Session) : Edits t s s := Relation.ReflTransGen.refl

theorem one (h : Edit s t s') : Edits t s s' := .single h

theorem trans (h : Edits t s s₁) (h' : Edits t s₁ s') : Edits t s s' := Relation.ReflTransGen.trans h h'

theorem tail (h : Edits t s s₁) (h' : Edit s₁ t s') : Edits t s s' := Relation.ReflTransGen.tail h h'

/-- **What every update keeps, the code keeps.** -/
theorem inv {P : Session → Prop} (h : Edits t s s') (hstep : ∀ x x', P x → Edit x t x' → P x')
    (h₀ : P s) : P s' := by
  induction h with
  | refl => exact h₀
  | tail _ he ih => exact hstep _ _ ih he

/-! ## The functions -/

theorem graceClose (t : Tid) (s : Session) : Edits t s s.graceClose :=
  graceClose_ind (P := fun x => Edits t s x) (fun _ => refl t s) fun ho => one (.close ho)

theorem connectProcess (ht : ∀ j, t ≠ .connector j) (s : Session) (gen : ℕ) :
    Edits t s (s.connectProcess gen) :=
  connectProcess_ind (P := fun x => Edits t s x) (fun _ => refl t s)
    fun hp => one (.reconnect gen ht hp)

theorem cancelTimer (t : Tid) (s : Session) : Edits t s s.cancelTimer :=
  one (.timer (s.cancelTimer).detectors s.nDetectors)

theorem detectLoop (t : Tid) (s : Session) (k conn : ℕ) : Edits t s (s.detectLoop k conn) := by
  obtain ⟨ds, hd⟩ := s.detectLoop_detectors k conn
  rw [hd]
  exact one (.timer ds s.nDetectors)

theorem noteRead (t : Tid) (s : Session) (i : ℕ) : Edits t s (s.noteRead i) :=
  noteRead_ind (P := fun x => Edits t s x) (fun hs => one (.noteRead i hs)) fun _ => refl t s

theorem breakLink {w : LinkWrite} (hw : s.linkWrite t = some w) : Edits t s (s.breakLink w) :=
  breakLink_ind (P := fun x => Edits t s x) (fun hl => one (.breakLink hw hl)) fun _ => refl t s

theorem relayClose (s : Session) (d : Dir) : Edits (.relay d) s (s.relayClose d) :=
  (graceClose _ s).tail (.relayDone (graceClose_hasClosed s))

section

variable {d : Dir} (hu : (s.way d).relay.unsent = [])
include hu

theorem relayLoop : Edits (.relay d) s (s.relayLoop d) :=
  relayLoop_ind (P := fun x => Edits (.relay d) s x) (fun _ => relayClose s d)
    (fun _ hb => one (.relayDirect hu hb))
    (fun he hb hd hr => by subst hd; exact one (.notify hu he hb hr))
    fun he hb hr => one (.readProcess hu he hb hr)

theorem relayReconnect (gen : ℕ) : Edits (.relay d) s (s.relayReconnect d gen) := by
  refine (connectProcess (by simp) s gen).trans (relayLoop ?_)
  exact connectProcess_ind (P := fun x => (x.way d).relay.unsent = []) (fun _ => hu) fun _ => hu

theorem relayFlush (gen : ℕ) : Edits (.relay d) s (s.relayFlush d gen) :=
  relayFlush_ind (P := fun x => Edits (.relay d) s x)
    (fun _ => (one .enableBypass).trans (relayReconnect (s := { s with bypass := true }) hu gen))
    fun hs => (one .enableBypass).tail (.relayFlush gen hu hs)

end

theorem readHead (s : Session) (i : ℕ) : Edits (.reader i) s (s.readHead i) := by
  rw [Session.readHead, ← noteRead_asyncReadProcess s i]
  exact (noteRead _ s i).tail .readHead

theorem readBody (s : Session) (i : ℕ) (head : ResponseHead) :
    Edits (.reader i) s (s.readBody i head) := by
  rw [Session.readBody, ← noteRead_asyncReadProcess s i]
  exact (noteRead _ s i).tail (.readBody head)

theorem readerReconnect (s : Session) (i gen : ℕ) : Edits (.reader i) s (s.readerReconnect i gen) :=
  (connectProcess (by simp) s gen).tail .readerDone

theorem readerFlushClient (s : Session) (i gen : ℕ) :
    Edits (.reader i) s (s.readerFlushClient i gen) :=
  readerFlushClient_ind (P := fun x => Edits (.reader i) s x)
    (fun _ => (one .enableBypass).trans (readerReconnect _ i gen))
    fun hs => (one .enableBypass).tail (.flushClient gen hs)

theorem readerFlushServer (s : Session) (i gen : ℕ) :
    Edits (.reader i) s (s.readerFlushServer i gen) :=
  readerFlushServer_ind (P := fun x => Edits (.reader i) s x)
    (fun _ => (one .enableBypass).trans (readerFlushClient _ i gen))
    fun hs => (one .enableBypass).tail (.flushServer gen hs)

/-- A head is acted on: the session is closed, or stored packets are released. -/
theorem actOnHead (s : Session) (i : ℕ) (d : Dir) (conn : ℕ) (head : ResponseHead) :
    Edits (.reader i) s (s.actOnHead i d conn head) ∨
      s.Releases i d conn head (s.actOnHead i d conn head) :=
  actOnHead_ind (P := fun x => Edits (.reader i) s x ∨ s.Releases i d conn head x)
    (fun _ => .inl ((graceClose _ s).tail .readerDone)) fun ha => .inr ⟨ha, rfl⟩

/-- A reader acts on the response that it has read, or writes its new data. -/
theorem dispatch {i : ℕ} {r : LinkRead} (hr : s.linkRead i = some r) (hf : r.Finished)
    (head : ResponseHead) (buf : List Byte) :
    Edits (.reader i) s (s.dispatch i r.gen head buf) ∨ ∃ d, head.newDataLen = 0 ∧
      DataType.ofCode head.type = some d.dataType ∧
        (s.emit (.response i head)).Releases i d r.gen head (s.dispatch i r.gen head buf) := by
  have h₁ : Edits (.reader i) s (s.emit (.response i head)) := one (.response head)
  refine dispatch_ind (P := fun x => Edits (.reader i) s x ∨ ∃ d, head.newDataLen = 0 ∧
      DataType.ofCode head.type = some d.dataType ∧ Session.Releases _ i d r.gen head x)
    (fun d ht => ?_)
    (.inl ((h₁.trans (cancelTimer _ _)).trans (readHead _ i))) (.inl (h₁.trans (readHead _ i)))
  refine innerProxy_ind (P := fun x => Edits (.reader i) s x ∨ ∃ d, head.newDataLen = 0 ∧
      DataType.ofCode head.type = some d.dataType ∧ Session.Releases _ i d r.gen head x)
    (fun _ => .inl (h₁.tail (.writeNew buf hr hf ht ?_)))
    fun hn => (actOnHead _ i d r.gen head).imp h₁.trans fun h => ⟨d, hn, ht, h⟩
  simp [Session.emit]

theorem connectLoop {j : ℕ} (hpc : s.connectors j = .waiting) :
    Edits (.connector j) s (s.connectLoop j) :=
  connectLoop_ind (P := fun x => Edits (.connector j) s x) (fun _ => one .connectorDone)
    fun ho => one (.retry hpc ho)

theorem superviseProcess {j conn : ℕ} {w : LinkWrite} (hpc : s.connectors j = .fourTuple conn w)
    (hf : w.Finished) : Edits (.connector j) s (s.superviseProcess j conn) := by
  have h : (s.spawning j conn).readHead s.nReaders =
      ((s.noteRead s.nReaders).spawning j conn).setReader (s.noteRead s.nReaders).nReaders
        (.readHead ((s.noteRead s.nReaders).asyncReadProcess responseHeadLen)) := by
    unfold Session.readHead Session.noteRead Session.spawning Session.setLink Session.link
      Session.setReader Session.asyncReadProcess Session.issued
    dsimp only
    split <;> simp_all
  obtain ⟨ds, n, hd⟩ := s.superviseProcess_detectors j conn
  rw [hd, h]
  refine ((noteRead _ s s.nReaders).tail (.spawn (w := w) ?_ hf)).tail (.timer ds n)
  rw [noteRead_connectors, hpc]

end Edits

/-! ## What no code changes -/

/-- The members that `setup_proxy` sets. -/
def Session.settings (s : Session) : ℕ × Bool × List Byte :=
  (s.connBufSize, s.responseBypass, s.fourTuple)

/-- What has gone over a connection, and was framed to it. -/
def Link.carried (l : Link) : Link := { l with broken := false, readers := [] }

/-- The bytes of a direction that were read and accepted, and its queue. -/
def Way.carried (w : Way) : Way :=
  { w with handledTotalPkgLen := 0, relay := .done, block := none }

/-- What no code changes: the settings, the queues, and what the peers and the process have
    sent and got. -/
structure Session.Same (s s' : Session) : Prop where
  settings : s'.settings = s.settings
  eof : s'.eof = s.eof
  undefined : s'.undefined = s.undefined
  conns : s'.conns = s.conns
  links : ∀ g, (s'.links g).carried = (s.links g).carried
  ways : ∀ d, (s'.way d).carried = (s.way d).carried

namespace Session.Same

variable {s s₁ s' : Session}

theorem refl (s : Session) : s.Same s := ⟨rfl, rfl, rfl, rfl, fun _ => rfl, fun _ => rfl⟩

theorem trans (h : s.Same s₁) (h' : s₁.Same s') : s.Same s' where
  settings := h'.settings.trans h.settings
  eof := h'.eof.trans h.eof
  undefined := h'.undefined.trans h.undefined
  conns := h'.conns.trans h.conns
  links g := (h'.links g).trans (h.links g)
  ways d := (h'.ways d).trans (h.ways d)

theorem setWay (s : Session) {d : Dir} {w : Way} (hw : w.carried = (s.way d).carried) :
    s.Same (s.setWay d w) := by
  refine ⟨rfl, rfl, rfl, rfl, fun _ => rfl, fun d' => ?_⟩
  by_cases hd : d' = d
  · subst hd; simpa using hw
  · simp [hd]

theorem setLinks (s : Session) {g : ℕ} {l : Link} (hl : l.carried = (s.links g).carried) :
    s.Same { s with links := Function.update s.links g l } := by
  refine ⟨rfl, rfl, rfl, rfl, fun g' => ?_, fun _ => rfl⟩
  by_cases hg : g' = g
  · subst hg; simpa using hl
  · simp [hg]

section

variable (h : s.Same s')
include h

theorem stored (d : Dir) : (s'.way d).storedData = (s.way d).storedData :=
  (congrArg Way.storedData (h.ways d) :)

theorem received (d : Dir) : (s'.way d).received = (s.way d).received :=
  (congrArg Way.received (h.ways d) :)

theorem accepted (d : Dir) : (s'.way d).accepted = (s.way d).accepted :=
  (congrArg Way.accepted (h.ways d) :)

theorem sent (g : ℕ) : (s'.links g).sent = (s.links g).sent := (congrArg Link.sent (h.links g) :)

theorem begun (g : ℕ) : (s'.links g).begun = (s.links g).begun := (congrArg Link.begun (h.links g) :)

theorem responses (g : ℕ) : (s'.links g).responses = (s.links g).responses :=
  (congrArg Link.responses (h.links g) :)

theorem frames (g : ℕ) : (s'.links g).frames = (s.links g).frames := (congrArg Link.frames (h.links g) :)

end

end Session.Same

theorem Edit.same {t : Tid} {s s' : Session} (h : Edit s t s') : s.Same s' := by
  cases h with
  | noteRead i hs => exact .setLinks s rfl
  | breakLink hw hl => exact .setLinks s rfl
  | @issueWrite t =>
    cases t with
    | relay d => exact .setWay s rfl
    | _ => exact ⟨rfl, rfl, rfl, rfl, fun _ => rfl, fun _ => rfl⟩
  | relayDone | relayDirect | notified | notify | readProcess => exact .setWay s rfl
  | @relayFlush d =>
    have h₁ : s.Same (s.emit (.flush d (s.dstOpen d) (storedBytes (s.way d).storedData))) :=
      ⟨rfl, rfl, rfl, rfl, fun _ => rfl, fun _ => rfl⟩
    exact h₁.trans (.setWay _ rfl)
  | _ => exact ⟨rfl, rfl, rfl, rfl, fun _ => rfl, fun _ => rfl⟩

theorem Edits.same {t : Tid} {s s' : Session} (h : Edits t s s') : s.Same s' :=
  h.inv (P := fun x => s.Same x) (fun _ _ hx he => hx.trans he.same) (.refl s)

/-! ## The steps -/

/-- What a step does: a stretch of code, perhaps after an end of stream, after packets are
    taken off a queue or after an undefined read of it; or what arrived is stored, a part is
    sent or read, packets are released, or the process socket is connected or handed over. -/
inductive Updated (s : Session) : Event → Session → Prop
  | code {e t s'} (ht : e.tid = some t) (hn : e = .complete t → ∀ d, s.flushing d t = none)
      (h : Edits t s s') : Updated s e s'
  | readEof {d s'} (h : Edits (.relay d) { s with
      eof := true
      trace := s.trace ++ [.eof d (s.way d).received (s.way d).accepted] } s') :
      Updated s (.read d .eof) s'
  | overrun {i d count next w s'} (hpc : (s.readers i).pc = .release d count next w)
      (hk : clearHandledPacket (s.way d).storedData count next = none)
      (h : Edits (.reader i) { s with undefined := true } s') :
      Updated s (.complete (.reader i)) s'
  | flushed {d t w s'} (hf : s.flushing d t = some w.data)
      (ho : ∀ d' data, s'.flushing d' t = some data → data = storedBytes (s'.way d').storedData)
      (h : Edits t (s.clearFlushed d w) s') : Updated s (.complete t) s'
  | cleared {i d count next w stored s'} (hpc : (s.readers i).pc = .release d count next w)
      (hk : clearHandledPacket (s.way d).storedData count next = some stored)
      (h : Edits (.reader i) (s.setStored d stored) s') : Updated s (.complete (.reader i)) s'
  | gotDirect {d live bytes} (hpc : (s.way d).relay = .readDirect live)
      (hr : (ReadResult.data bytes).Possible live s.connBufSize) :
      Updated s (.read d (.data bytes)) (s.writeDirect d bytes)
  | gotProcess {d live bytes} (hpc : (s.way d).relay = .readProcess live)
      (hr : (ReadResult.data bytes).Possible live (s.room d)) :
      Updated s (.read d (.data bytes)) (s.writeProcess d bytes)
  | pushPeer {t k d w} (hw : s.peerWrite t = some (d, w)) (hl : w.live = true)
      (ho : s.dstOpen d = true) (h0 : 0 < k) (hk : k ≤ w.rest.length) :
      Updated s (.push t k)
        ((s.accept d (w.rest.take k)).setPeerWrite { w with rest := w.rest.drop k } t)
  | pushLink {t k w} (hw : s.linkWrite t = some w) (hg : w.gen = s.conns)
      (hs : s.proxyProcessSocket = .connected) (hb : s.link.broken = false) (h0 : 0 < k)
      (hk : k ≤ w.rest.length) :
      Updated s (.push t k)
        ((s.sendLink w k).setLinkWrite { w with io := .idle, rest := w.rest.drop k } t)
  | pull {i k r} (hr : s.linkRead i = some r) (hg : r.gen = s.conns)
      (hk : k ≤ r.want - r.got.length) (hin : k ≤ s.link.inbound.length) :
      Updated s (.pull i k)
        ((s.setLink { s.link with inbound := s.link.inbound.drop k }).setLinkRead i
          { r with io := .idle, got := r.got ++ s.link.inbound.take k })
  | release {i d conn head s₁ s'} (h₁ : s₁ = s ∨ s₁ = s.emit (.response i head))
      (hh : head ∈ (s.readers i).pc.acting d) (h : s₁.Releases i d conn head s') :
      Updated s (.complete (.reader i)) s'
  | connected {j} (hpc : s.connectors j = .connecting true) :
      Updated s (.complete (.connector j)) (s.fourTuple2process j)
  | connect {j} (hpc : s.connectors j = .connecting false) :
      Updated s (.connect j) { s with
        proxyProcessSocket := .connected
        conns := s.conns + 1
        links := Function.update s.links (s.conns + 1) {}
        connectors := Function.update s.connectors j (.connecting true) }
  | respond {g r} : Updated s (.respond g r) { s with
      links := Function.update s.links g { s.links g with
        responses := (s.links g).responses ++ [r]
        inbound := (s.links g).inbound ++ r.bytes } }

theorem setStored_relay (s : Session) (d₁ : Dir) (stored : List Packet) (d : Dir) :
    ((s.setStored d₁ stored).way d).relay = (s.way d).relay := by
  by_cases hd : d = d₁
  · subst hd; simp [setStored]
  · simp [setStored, hd]

/-- A relay that goes on without a process, or goes round its loop, flushes nothing. -/
theorem relayReconnect_flushing (s : Session) (d : Dir) (gen : ℕ) (d' : Dir) :
    (s.relayReconnect d gen).flushing d' (.relay d) = none := by
  by_cases hd : d = d'
  · subst hd
    exact relayLoop_ind (P := fun x => x.flushing d (.relay d) = none)
      (fun _ => by simp [flushing, RelayPc.flushing])
      (fun _ _ => by simp [flushing, RelayPc.flushing, relayDirect])
      (fun _ _ _ _ => by simp [flushing, RelayPc.flushing])
      fun _ _ _ => by simp [flushing, RelayPc.flushing, innerClientOrServer2proxy2process]
  · simp [flushing, hd]

/-- A reader flushes to the client what is stored. -/
theorem readerFlushClient_flushing (s : Session) (i gen : ℕ) (d : Dir) (data : List Byte)
    (h : (s.readerFlushClient i gen).flushing d (.reader i) = some data) :
    data = storedBytes ((s.readerFlushClient i gen).way d).storedData := by
  revert h
  refine readerFlushClient_ind (P := fun x => x.flushing d (.reader i) = some data →
    data = storedBytes (x.way d).storedData) (fun _ h => ?_) fun _ h => ?_
  · simp [flushing, ReaderPc.flushing, readerReconnect] at h
  · simp only [flushing, setReader_readers, Function.update_self, ReaderPc.flushing] at h
    split at h
    · subst d
      exact (Option.some.inj h).symm
    · cases h

/-- **What a step does.** -/
theorem updated_of_rule {s s' : Session} {e : Event} (hr : Rule s e s') : Updated s e s' := by
  have hrelay : ∀ {d pc}, (s.way d).relay = pc → pc.flushing = none →
      ∀ d', s.flushing d' (.relay d) = none := by
    intro d pc hpc hn d'
    rw [flushing]
    split
    · subst d'
      rw [hpc, hn]
    · rfl
  have hreader : ∀ {i pc}, (s.readers i).pc = pc → (∀ d, pc.flushing d = none) →
      ∀ d, s.flushing d (.reader i) = none := by
    intro i pc hpc hn d
    rw [flushing, hpc, hn]
  cases hr with
  | gotDirect hpc hr => exact .gotDirect hpc hr
  | gotProcess hpc hr => exact .gotProcess hpc hr
  | @readEof d =>
    refine .readEof ?_
    rw [relayEof_eq]
    exact .relayClose { s with eof := true, trace := _ } d
  | @readError d => exact .code rfl (by simp) (.relayClose s d)
  | pushPeer hw hl ho h0 hk => exact .pushPeer hw hl ho h0 hk
  | pushLink hw _ hg hs hb h0 hk => exact .pushLink hw hg hs hb h0 hk
  | pull hr _ hg _ _ hk hin => exact .pull hr hg hk hin
  | issueWrite hw hi hr => exact .code rfl (by simp) (.one (.issueWrite hw hi hr))
  | @issueRead i r hr hi hw =>
    refine .code rfl (by simp) ((Edits.noteRead _ s i).tail ?_)
    have h := Edit.issueRead (s := s.noteRead i) (by rw [linkRead, noteRead_readers]; exact hr) hi hw
    rwa [noteRead_conns, noteRead_issued] at h
  | notified hpc => exact .code rfl (fun _ => hrelay hpc rfl) (.one (.notified hpc))
  | @notifyFailed d w hpc =>
    refine .code rfl (by simp)
      ((Edits.breakLink (t := .relay d) (w := w) ?_).tail (.notified (w := w) ?_))
    · rw [linkWrite, hpc]; rfl
    · rw [breakLink_way, hpc]
  | wroteDirect hpc hf =>
    exact .code rfl (fun _ => hrelay hpc rfl) (.relayLoop (by rw [hpc]; exact hf.2))
  | wroteProcess hpc hf =>
    exact .code rfl (fun _ => hrelay hpc rfl) (.relayLoop (by rw [hpc]; rfl))
  | @processFailed d w hpc =>
    refine .code rfl (by simp) ((Edits.breakLink (t := .relay d) (w := w) ?_).trans
      (.relayFlush ?_ _))
    · rw [linkWrite, hpc]; rfl
    · rw [breakLink_way, hpc]; rfl
  | @relayFlushed d gen w hpc =>
    refine .flushed (d := d) (w := w) ?_ (fun d' data h => ?_) (.relayReconnect ?_ gen)
    · simp [flushing, hpc, RelayPc.flushing]
    · rw [relayReconnect_flushing] at h
      cases h
    · simp [Session.clearFlushed, setStored, hpc, RelayPc.unsent]
  | relayWriteFailed => exact .code rfl (by simp) (.relayClose s _)
  | gotHead hpc => exact .code rfl (fun _ => hreader hpc fun _ => rfl) (.readBody s _ _)
  | @gotHeadOnly i r hpc hf =>
    rcases Edits.dispatch (by rw [linkRead, hpc]; rfl) hf _ _ with h | ⟨d, hn, ht, h⟩
    · exact .code rfl (fun _ => hreader hpc fun _ => rfl) h
    · exact .release (.inr rfl) (by simp [hpc, ReaderPc.acting, hn, ht]) h
  | @gotBody i head r hpc hf =>
    rcases Edits.dispatch (by rw [linkRead, hpc]; rfl) hf head r.got with h | ⟨d, hn, ht, h⟩
    · exact .code rfl (fun _ => hreader hpc fun _ => rfl) h
    · exact .release (.inr rfl) (by simp [hpc, ReaderPc.acting, hn, ht]) h
  | @readFailed i r =>
    exact .code rfl (by simp) (readerFailed_ind (P := fun x => Edits (.reader i) s x)
      (fun _ => .one .readerDone) fun _ => .readerFlushServer s i _)
  | @wroteNew i d conn head w hpc =>
    rcases Edits.actOnHead s i d conn head with h | h
    · exact .code rfl (fun _ => hreader hpc fun _ => rfl) h
    · exact .release (.inl rfl) (by simp [hpc, ReaderPc.acting]) h
  | @released i d count next w hpc =>
    exact clearReleased_ind (P := fun x => Updated s (.complete (.reader i)) x)
      (fun _ hk => .cleared hpc hk (.readHead _ i)) fun hk => .overrun hpc hk (.readHead _ i)
  | readerWriteFailed => exact .code rfl (by simp) ((Edits.graceClose _ s).tail .readerDone)
  | @flushedServer i gen w hpc =>
    refine .flushed (d := .req) (w := w) ?_ (readerFlushClient_flushing _ i gen)
      (.readerFlushClient _ i gen)
    simp [flushing, hpc, ReaderPc.flushing]
  | flushServerFailed =>
    exact .code rfl (by simp) ((Edits.graceClose _ s).trans (.readerFlushClient _ _ _))
  | @flushedClient i gen w hpc =>
    refine .flushed (d := .res) (w := w) ?_ (fun d' data h => ?_) (.readerReconnect _ i gen)
    · simp [flushing, hpc, ReaderPc.flushing]
    · simp [flushing, ReaderPc.flushing, readerReconnect] at h
  | flushClientFailed =>
    exact .code rfl (by simp) ((Edits.graceClose _ s).trans (.readerReconnect _ _ _))
  | connected hpc => exact .connected hpc
  | connectFailed hpc => exact .code rfl (by simp) (.one (.wait hpc))
  | retry hpc => exact .code rfl (fun _ _ => rfl) (.connectLoop hpc)
  | wroteTuple hpc hf => exact .code rfl (fun _ _ => rfl) (.superviseProcess hpc hf)
  | @tupleFailed j conn w hpc =>
    refine .code rfl (by simp)
      ((Edits.breakLink (t := .connector j) (w := w) ?_).tail .connectorDone)
    rw [linkWrite, hpc]; rfl
  | timedOut hpc => exact .code rfl (fun _ _ => rfl) (.one (.timedOut hpc))
  | rearm => exact .code rfl (fun _ _ => rfl) (.detectLoop _ s _ _)
  | connect hpc => exact .connect hpc
  | expire => exact .code rfl (by simp) (.one (.timer _ s.nDetectors))
  | respond => exact .respond

/-! ## What only some steps change -/

/-- What no step changes but the one that must: a read, a part of a write, the end of a
    stream, a connection or a response. -/
structure Session.Frame (s : Session) (e : Event) (s' : Session) : Prop where
  settings : s'.settings = s.settings
  eof : s'.hasClosed = false → s'.eof = s.eof
  conns : (∀ j, e ≠ .connect j) → s'.conns = s.conns
  responses : (∀ j, e ≠ .connect j) → (∀ g r, e ≠ .respond g r) →
    ∀ g, (s'.links g).responses = (s.links g).responses
  received : ∀ d, (s'.way d).received = (s.way d).received ∨ ∃ bytes, e = .read d (.data bytes) ∧
    (s'.way d).received = (s.way d).received ++ bytes
  accepted : (∀ t k, e ≠ .push t k) → ∀ d, (s'.way d).accepted = (s.way d).accepted

theorem Session.Same.frame {s s' : Session} {e : Event} (h : s.Same s') : s.Frame e s' where
  settings := h.settings
  eof _ := h.eof
  conns _ := h.conns
  responses _ _ := h.responses
  received d := .inl (h.received d)
  accepted _ := h.accepted

/-- What a frame reads is as it was. -/
theorem Session.Frame.congr {s x s' : Session} {e : Event} (h : x.Frame e s')
    (hx : x.settings = s.settings) (he : x.eof = s.eof) (hc : x.conns = s.conns)
    (hl : x.links = s.links) (hr : ∀ d, (x.way d).received = (s.way d).received)
    (ha : ∀ d, (x.way d).accepted = (s.way d).accepted) : s.Frame e s' where
  settings := h.settings.trans hx
  eof ho := (h.eof ho).trans he
  conns hn := (h.conns hn).trans hc
  responses hn hn' g := by rw [h.responses hn hn' g, hl]
  received d := by rw [← hr]; exact h.received d
  accepted hn d := (h.accepted hn d).trans (ha d)

/-- **What a step leaves as it is.** -/
theorem frame_of_rule {s s' : Session} {e : Event} (hr : Rule s e s') : s.Frame e s' := by
  have hstored : ∀ d stored d', ((s.setStored d stored).way d').received = (s.way d').received ∧
      ((s.setStored d stored).way d').accepted = (s.way d').accepted := by
    intro d stored d'
    by_cases hd : d' = d
    · subst hd; simp [setStored]
    · simp [setStored, hd]
  cases updated_of_rule hr with
  | code _ _ h => exact h.same.frame
  | @readEof d _ h =>
    -- the end of a stream closes the session
    have hclosed : s'.hasClosed = true := by
      cases hr with
      | readEof => rw [relayEof_eq]; exact graceClose_hasClosed _
    have hsame := h.same
    exact {
      settings := hsame.settings
      eof := fun ho => by rw [hclosed] at ho; cases ho
      conns := fun _ => hsame.conns
      responses := fun _ _ => hsame.responses
      received := fun d => .inl (hsame.received d)
      accepted := fun _ => hsame.accepted }
  | overrun _ _ h => exact h.same.frame.congr rfl rfl rfl rfl (fun _ => rfl) fun _ => rfl
  | flushed _ _ h =>
    exact h.same.frame.congr rfl rfl rfl rfl (fun d => (hstored _ _ d).1) fun d => (hstored _ _ d).2
  | cleared _ _ h =>
    exact h.same.frame.congr rfl rfl rfl rfl (fun d => (hstored _ _ d).1) fun d => (hstored _ _ d).2
  | @gotDirect d live bytes =>
    rw [writeDirect_eq]
    refine ⟨rfl, fun _ => rfl, fun _ => rfl, fun _ _ _ => rfl, fun d' => ?_, fun _ d' => ?_⟩
    · by_cases hd : d' = d
      · subst hd; exact .inr ⟨bytes, rfl, by simp⟩
      · exact .inl (by simp [hd])
    · by_cases hd : d' = d
      · subst hd; simp
      · simp [hd]
  | @gotProcess d live bytes =>
    rw [writeProcess_eq]
    refine ⟨rfl, fun _ => rfl, fun _ => rfl, fun _ _ g => ?_, fun d' => ?_, fun _ d' => ?_⟩
    · show (s.framed d bytes g).responses = (s.links g).responses
      unfold framed
      split
      · by_cases hg : g = s.conns
        · subst hg; simp [link]
        · simp [hg]
      · rfl
    · by_cases hd : d' = d
      · subst hd; exact .inr ⟨bytes, rfl, by simp⟩
      · exact .inl (by simp [hd])
    · by_cases hd : d' = d
      · subst hd; simp
      · simp [hd]
  | @pushPeer t k d w =>
    have hway : ∀ d', (((s.accept d (w.rest.take k)).setPeerWrite
        { w with rest := w.rest.drop k } t).way d').received = (s.way d').received := by
      intro d'
      have hacc : ((s.accept d (w.rest.take k)).way d').received = (s.way d').received := by
        by_cases hd : d' = d
        · subst hd; simp [accept]
        · simp [accept, hd]
      cases t with
      | relay d₁ =>
        by_cases hd : d' = d₁
        · subst hd; simpa [setPeerWrite] using hacc
        · simpa [setPeerWrite, hd] using hacc
      | _ => exact hacc
    refine ⟨?_, fun _ => ?_, fun _ => ?_, fun _ _ g => ?_, fun d' => .inl (hway d'),
      fun hn => absurd rfl (hn t k)⟩ <;> cases t <;> rfl
  | @pushLink t k w =>
    have hlinks : ∀ g, (((s.sendLink w k).setLinkWrite { w with io := .idle, rest := w.rest.drop k }
        t).links g).responses = (s.links g).responses := by
      intro g
      have hsend : ((s.sendLink w k).links g).responses = (s.links g).responses := by
        by_cases hg : g = s.conns
        · subst hg; simp [sendLink, setLink, link]
        · simp [sendLink, setLink, hg]
      cases t <;> exact hsend
    have hway : ∀ d, (((s.sendLink w k).setLinkWrite { w with io := .idle, rest := w.rest.drop k }
        t).way d).received = (s.way d).received := by
      intro d
      cases t with
      | relay d₁ =>
        by_cases hd : d = d₁
        · subst hd; simp [setLinkWrite, sendLink, setLink]
        · simp [setLinkWrite, sendLink, setLink, hd]
      | _ => rfl
    refine ⟨?_, fun _ => ?_, fun _ => ?_, fun _ _ => hlinks, fun d => .inl (hway d),
      fun hn => absurd rfl (hn t k)⟩ <;> cases t <;> rfl
  | @pull i k r =>
    refine ⟨rfl, fun _ => rfl, fun _ => rfl, fun _ _ g => ?_, fun _ => .inl rfl, fun _ _ => rfl⟩
    show (Function.update s.links s.conns _ g).responses = (s.links g).responses
    by_cases hg : g = s.conns
    · subst hg; simp [link]
    · simp [hg]
  | @release i d conn head s₁ _ h₁ _ h =>
    obtain ⟨-, rfl⟩ := h
    have hway : ∀ r d', ((s₁.releasing i d conn head r).way d').received = (s.way d').received ∧
        ((s₁.releasing i d conn head r).way d').accepted = (s.way d').accepted := by
      intro r d'
      have hw : s₁.way = s.way := by rcases h₁ with rfl | rfl <;> rfl
      by_cases hd : d' = d
      · subst hd; simp [releasing, hw]
      · simp [releasing, hw, hd]
    refine ⟨?_, fun _ => ?_, fun _ => ?_, fun _ _ _ => ?_, fun d' => .inl (hway _ d').1,
      fun _ d' => (hway _ d').2⟩ <;> rcases h₁ with rfl | rfl <;> rfl
  | connected => exact ⟨rfl, fun _ => rfl, fun _ => rfl, fun _ _ _ => rfl, fun _ => .inl rfl,
      fun _ _ => rfl⟩
  | connect => exact ⟨rfl, fun _ => rfl, fun hn => absurd rfl (hn _), fun hn => absurd rfl (hn _),
      fun _ => .inl rfl, fun _ _ => rfl⟩
  | respond => exact ⟨rfl, fun _ => rfl, fun _ => rfl, fun _ hn => absurd rfl (hn _ _),
      fun _ => .inl rfl, fun _ _ => rfl⟩

end CppProxy
