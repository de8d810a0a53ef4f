/-
  cpp_proxy — nothing of the client passes the process by.

  `client_request` tests `bypass_` before it starts to read, and the data comes
  at any later time: a direct read that is pending when `connect_process` clears
  the flag forwards its data past the process.

  * `Session.Inspected`: what is read while `bypass_` is clear is framed to the
    process, and is released up to a total that the process passed;
  * `HandsOver`, `PassesSteady`, `Inspects`: the steps that keep it so;
  * `Modes`, `Heads`: the mode of the relay, and the responses the readers are in;
  * `inspected_of_inspects`: inspection is complete in every such run.
-/
import CppProxy.Align
import CppProxy.Lib.Traces
import CppProxy.Trace

namespace CppProxy

open Session Runs Traces

/-- What is read from the client while `bypass_` is clear is framed at once. -/
def Act.Sent : Act → Option Act → Prop
  | got .req false data, next => next = some (.frame .req data)
  | _, _ => True

/-- The direct path writes only what was read while `bypass_` was set.  What a
    release writes was framed to the connection that the process passed it on,
    by a response that does not block and whose total covers it. -/
def Session.Covered (s : Session) (pre : List Act) : Act → Prop
  | .direct .req _ data => ∃ pre', pre = pre' ++ [.got .req true data]
  | .release .req true conn total before _ _ data => data ≠ [] →
      (∃ i head, .response i head ∈ pre ∧ head.act ≠ Action.block.code ∧
        DataType.ofCode head.type = some .fromClientToServer ∧ head.handledTotalPkgLen = total) ∧
      before.toNat + data.length ≤ total.toNat ∧ conn ≤ s.conns ∧
      data <+: ((s.links conn).frames .req).flatten.drop before.toNat
  | _ => True

/-- Every read is framed or sent at once, and every release is covered. -/
def Session.Inspected (s : Session) : Prop := After Act.Sent s.trace ∧ Before s.Covered s.trace

/-- No direct read from the client is pending when `connect_process` clears
    `bypass_`. -/
def HandsOver (s : Session) : Event → Prop
  | .complete (.connector j) => s.connectors j = .connecting true → ¬ (s.way .req).relay.IsDirect
  | _ => True

/-- Stored data of the client is passed on a connection that is up, while nothing
    is flushed. -/
def PassesSteady (s : Session) : Event → Prop
  | .complete (.reader i) => ∀ head ∈ (s.readers i).pc.acting .req,
      head.act ≠ Action.block.code → s.proxyServerOpen = true → (s.way .req).storedData ≠ [] →
        s.Steady
  | _ => True

instance (s : Session) : ∀ e, Decidable (HandsOver s e)
  | .complete (.connector _) => inferInstanceAs (Decidable (_ → _))
  | .complete (.relay _) | .complete (.reader _) | .complete (.detector _)
  | .read _ _ | .push _ _ | .pull _ _ | .issue _ | .fail _ | .connect _ | .expire _
  | .respond _ _ => inferInstanceAs (Decidable True)

instance (s : Session) : ∀ e, Decidable (PassesSteady s e)
  | .complete (.reader i) => inferInstanceAs
    (Decidable (∀ head ∈ (s.readers i).pc.acting .req, _ → _ → _ → _))
  | .complete (.relay _) | .complete (.connector _) | .complete (.detector _)
  | .read _ _ | .push _ _ | .pull _ _ | .issue _ | .fail _ | .connect _ | .expire _
  | .respond _ _ => inferInstanceAs (Decidable True)

/-- The steps of a run in which the process inspects the client. -/
def Inspects (s : Session) (e : Event) : Prop :=
  Vacant s e ∧ Realigned .req s e ∧ CutsBetween .req s e ∧ HandsOver s e ∧ PassesSteady s e

instance (s : Session) (e : Event) : Decidable (Inspects s e) :=
  inferInstanceAs (Decidable (_ ∧ _ ∧ _ ∧ _ ∧ _))

/-! ## The mode of the relay -/

/-- A direct read of `client_request` is pending in bypass mode only, and only
    `server_response` notifies the process. -/
def RelayPc.InMode (bypass : Bool) : RelayPc → Prop
  | readDirect _ => bypass = true
  | notify _ => False
  | _ => True

/-- `client_request` is in the mode that `bypass_` says. -/
def Modes (s : Session) : Prop := (s.way .req).relay.InMode s.bypass

theorem RelayPc.InMode.mono {bypass bypass' : Bool} {pc : RelayPc} (h : pc.InMode bypass)
    (hb : bypass = true → bypass' = true) : pc.InMode bypass' := by
  cases pc with
  | readDirect => exact hb h
  | _ => exact h

theorem RelayPc.InMode.setPeerWrite {bypass : Bool} {pc : RelayPc} {w : PeerWrite}
    (h : pc.InMode bypass) : (pc.setPeerWrite w).InMode bypass := by
  cases pc <;> exact h

theorem RelayPc.InMode.setLinkWrite {bypass : Bool} {pc : RelayPc} {w : LinkWrite}
    (h : pc.InMode bypass) : (pc.setLinkWrite w).InMode bypass := by
  cases pc <;> exact h

namespace Modes

variable {s s' : Session}

theorem keep {x : Session} (h : Modes s) (hw : (x.way .req).relay = (s.way .req).relay)
    (hb : s.bypass = true → x.bypass = true) : Modes x := by
  unfold Modes
  rw [hw]
  exact RelayPc.InMode.mono h hb

theorem setWay (h : Modes s) {d : Dir} {w : Way} (hw : d = .req → w.relay.InMode s.bypass) :
    Modes (s.setWay d w) := by
  cases d with
  | req =>
    unfold Modes
    rw [setWay_way, Function.update_self]
    exact hw rfl
  | res => exact h.keep rfl id

theorem edit {t : Tid} (h : Modes s) (he : Edit s t s') : Modes s' := by
  cases he with
  | enableBypass => exact h.keep rfl fun _ => rfl
  | @issueWrite t =>
    cases t with
    | relay d => exact h.setWay fun hd => by subst hd; exact RelayPc.InMode.setLinkWrite h
    | _ => exact h.keep rfl id
  | relayDone | readProcess => exact h.setWay fun _ => trivial
  | relayFlush => exact (h.keep (x := s.emit (.flush _ _ _)) rfl id).setWay fun _ => trivial
  | relayDirect _ hb => exact h.setWay fun _ => hb
  | notified hpc =>
    refine h.setWay fun hd => ?_
    subst hd
    rw [Modes, hpc] at h
    exact h.elim
  | notify => exact h.setWay fun hd => by cases hd
  | _ => exact h.keep rfl id

theorem init (c : Conf) : Modes (Session.init c) := rfl

theorem step (h : Modes s) {e : Event} (hH : HandsOver s e) (hr : Rule s e s') : Modes s' := by
  have hcode : ∀ {t x}, Modes x → Edits t x s' → Modes s' := fun hx he =>
    he.inv (P := Modes) (fun _ _ hx he => hx.edit he) hx
  cases updated_of_rule hr with
  | code _ _ he => exact hcode h he
  | readEof he => exact hcode (h.keep (x := { s with eof := true, trace := _ }) rfl id) he
  | overrun _ _ he => exact hcode (h.keep (x := { s with undefined := true }) rfl id) he
  | @flushed d t w _ _ _ he =>
    refine hcode (h.keep (x := s.clearFlushed d w) ?_ id) he
    exact setStored_relay _ d [] .req
  | @cleared i d _ _ _ stored _ _ _ he =>
    exact hcode (h.keep (x := s.setStored d stored) (setStored_relay s d stored .req) id) he
  | @gotDirect d =>
    rw [writeDirect_eq]
    cases d with
    | req => simp [Modes, RelayPc.InMode]
    | res => exact h.keep rfl id
  | @gotProcess d =>
    rw [writeProcess_eq]
    cases d with
    | req => simp [Modes, RelayPc.InMode]
    | res => exact h.keep rfl id
  | @pushPeer t k d w =>
    have h₁ : Modes (s.accept d (w.rest.take k)) := h.setWay fun hd => by subst hd; exact h
    cases t with
    | relay d₁ => exact h₁.setWay fun hd => by subst hd; exact RelayPc.InMode.setPeerWrite h₁
    | _ => exact h₁.keep rfl id
  | @pushLink t k w =>
    have h₁ : Modes (s.sendLink w k) := h.keep rfl id
    cases t with
    | relay d => exact h₁.setWay fun hd => by subst hd; exact RelayPc.InMode.setLinkWrite h₁
    | _ => exact h₁.keep rfl id
  | @release i d conn head s₁ _ h₁ _ he =>
    obtain ⟨-, rfl⟩ := he
    have hs₁ : Modes s₁ := by rcases h₁ with rfl | rfl <;> exact h.keep rfl id
    refine hs₁.keep ?_ id
    cases d <;> simp [Session.releasing]
  | @connected j hpc =>
    have := hH hpc
    unfold Modes at h ⊢
    show (s.way .req).relay.InMode false
    cases hw : (s.way .req).relay <;> rw [hw] at this h <;>
      first | exact h | exact (this trivial).elim
  | pull | connect | respond => exact h.keep rfl id

end Modes

/-! ## The responses the readers are in -/

/-- What reader `i` has read came from the current connection, and the response
    whose new data it writes is recorded. -/
def ReaderPc.InHead (i conns : ℕ) (trace : List Act) : ReaderPc → Prop
  | readHead r | readBody _ r => r.io = .idle → r.gen = conns
  | writeNew d conn head _ => conn = conns ∧ DataType.ofCode head.type = some d.dataType ∧
      .response i head ∈ trace
  | _ => True

/-- Every reader has what it has read from the current connection. -/
def Heads (s : Session) : Prop := ∀ i, (s.readers i).pc.InHead i s.conns s.trace

theorem ReaderPc.InHead.mono {i conns : ℕ} {trace acts : List Act} {pc : ReaderPc}
    (h : pc.InHead i conns trace) : pc.InHead i conns (trace ++ acts) := by
  cases pc with
  | writeNew => exact ⟨h.1, h.2.1, List.mem_append_left _ h.2.2⟩
  | _ => exact h

theorem ReaderPc.InHead.setPeerWrite {i conns : ℕ} {trace : List Act} {pc : ReaderPc}
    {w : PeerWrite} (h : pc.InHead i conns trace) : (pc.setPeerWrite w).InHead i conns trace := by
  cases pc <;> exact h

theorem Session.issued_ne_idle (s : Session) : s.issued ≠ .idle := by
  unfold issued; split <;> simp

namespace Heads

variable {s s' : Session}

theorem keep (h : Heads s) (hr : s'.readers = s.readers) (hc : s'.conns = s.conns)
    (ht : Quiet s s') : Heads s' := by
  intro i
  obtain ⟨acts, -, ht⟩ := ht
  rw [hr, hc, ht]
  exact (h i).mono

theorem same {x : Session} (h : Heads s) (hr : x.readers = s.readers) (hc : x.conns = s.conns)
    (ht : x.trace = s.trace) : Heads x :=
  h.keep hr hc (.of_eq ht)

theorem emit (h : Heads s) (a : Act) : Heads (s.emit a) := fun i => (h i).mono

theorem setReader (h : Heads s) {i : ℕ} {pc : ReaderPc} (hpc : pc.InHead i s.conns s.trace) :
    Heads (s.setReader i pc) := by
  intro i'
  by_cases hi : i' = i
  · subst hi
    rw [setReader_readers, Function.update_self]
    exact hpc
  · rw [setReader_readers, Function.update_of_ne hi]
    exact h i'

/-- A read that starts has read nothing from a connection yet. -/
theorem edit {t : Tid} (h : Heads s) (he : Edit s t s') : Heads s' := by
  cases he with
  | reconnect gen => exact h.keep rfl rfl ⟨[.reconnect gen s.conns], by simp [Act.Silent], rfl⟩
  | relayFlush | response => exact h.emit _
  | readerDone => exact h.setReader trivial
  | readHead | readBody => exact h.setReader fun hi => absurd hi (issued_ne_idle s)
  | @issueRead i r hr =>
    refine h.setReader ?_
    unfold linkRead at hr
    cases hpc : (s.readers i).pc <;> rw [hpc] at hr <;> cases hr <;>
      exact fun hi => absurd hi (issued_ne_idle s)
  | @writeNew i r d head buf hr hf ht hm =>
    refine (h.emit _).setReader ⟨?_, ht, List.mem_append_left _ hm⟩
    have hgen := h i
    unfold linkRead at hr
    cases hpc : (s.readers i).pc <;> rw [hpc] at hr hgen <;> cases hr <;> exact hgen hf.1
  | flushServer | flushClient => exact (h.emit _).setReader trivial
  | @spawn j conn =>
    have hs : Heads (s.spawning j conn) := by
      intro i
      by_cases hi : i = s.nReaders
      · subst hi; simp [Session.spawning, ReaderPc.InHead]
      · simp only [Session.spawning, Function.update_of_ne hi]; exact h i
    exact hs.setReader fun hi => absurd hi (issued_ne_idle s)
  | @issueWrite t => cases t <;> exact h.same rfl rfl rfl
  | _ => exact h.same rfl rfl rfl

theorem init (c : Conf) : Heads (Session.init c) := fun _ => trivial

theorem step (h : Heads s) (hs : Shape s) {e : Event} (hV : Vacant s e) (hr : Rule s e s') :
    Heads s' := by
  have hcode : ∀ {t x}, Heads x → Edits t x s' → Heads s' := fun hx he =>
    he.inv (P := Heads) (fun _ _ hx he => hx.edit he) hx
  cases updated_of_rule hr with
  | code _ _ he => exact hcode h he
  | readEof he => exact hcode (x := { s with eof := true, trace := _ }) (fun i => (h i).mono) he
  | overrun _ _ he => exact hcode (h.same (x := { s with undefined := true }) rfl rfl rfl) he
  | @flushed d t w _ _ _ he =>
    exact hcode ((h.emit _).same (x := s.clearFlushed d w) rfl rfl rfl) he
  | cleared _ _ he => exact hcode (h.same (x := s.setStored _ _) rfl rfl rfl) he
  | gotDirect => rw [writeDirect_eq]; exact fun i => (h i).mono
  | gotProcess => rw [writeProcess_eq]; exact fun i => (h i).mono
  | @pushPeer t k d w =>
    have h₁ : Heads (s.accept d (w.rest.take k)) := h.same rfl rfl rfl
    cases t with
    | reader i => exact h₁.setReader (ReaderPc.InHead.setPeerWrite (h i))
    | _ => exact h₁.same rfl rfl rfl
  | @pushLink t k w => cases t <;> exact h.same rfl rfl rfl
  | @pull i k r hread hg =>
    have h₁ : Heads (s.setLink { s.link with inbound := s.link.inbound.drop k }) :=
      h.same rfl rfl rfl
    refine h₁.setReader ?_
    unfold linkRead at hread
    change ((s.readers i).pc.setLinkRead _).InHead i s.conns s.trace
    cases hpc : (s.readers i).pc <;> rw [hpc] at hread <;> cases hread <;> exact fun _ => hg
  | @release i d conn head s₁ _ h₁ _ he =>
    obtain ⟨-, rfl⟩ := he
    have hs₁ : Heads s₁ := by
      rcases h₁ with rfl | rfl
      · exact h
      · exact h.emit _
    intro i'
    by_cases hi : i' = i
    · subst hi; simp [Session.releasing, ReaderPc.InHead]
    · simp only [Session.releasing, Function.update_of_ne hi]
      exact (hs₁ i').mono
  | connected | respond => exact h.same rfl rfl rfl
  | connect =>
    -- no reader is between two reads
    intro i
    have hno : ¬ (s.readers i).pc.Serving := by
      by_cases hi : i < s.nReaders
      · exact hV.1 i hi
      · rw [hs.readers i (by omega)]; exact id
    cases hpc : (s.readers i).pc with
    | readHead r => rw [hpc] at hno; exact fun hi => absurd hi hno
    | readBody head r => rw [hpc] at hno; exact fun hi => absurd hi hno
    | writeNew => rw [hpc] at hno; exact absurd trivial hno
    | _ => trivial

end Heads

/-! ## Every run -/

theorem Session.Covered.mono {s s' : Session} (hl : Later s s') {pre : List Act} {a : Act}
    (h : s.Covered pre a) : s'.Covered pre a := by
  cases a with
  | release d live conn total before after next data =>
    cases d <;> cases live <;> try trivial
    intro hd
    obtain ⟨hresp, hle, hc, hpre⟩ := h hd
    refine ⟨hresp, hle, hc.trans hl.conns, hpre.trans ?_⟩
    -- the frames of the connection are added to at the end
    obtain ⟨l, hl'⟩ := hl.frames conn hc .req
    rw [← hl', List.flatten_append, List.drop_append]
    exact List.prefix_append _ _
  | direct d => cases d <;> exact h
  | _ => trivial

theorem Act.Silent.covered {s : Session} {pre : List Act} {a : Act} (h : a.Silent) :
    s.Covered pre a := by
  cases a <;> trivial

theorem Act.Silent.sent {a : Act} (h : a.Silent) (next : Option Act) : a.Sent next := by
  cases a <;> trivial

theorem Act.Sent.some {a : Act} (h : a.Sent none) (b : Act) : a.Sent (some b) := by
  cases a with
  | got d bypass data => cases d <;> cases bypass <;> trivial
  | _ => trivial

/-- A release on an aligned connection writes what was framed at the counter, and
    nothing beyond the total. -/
theorem Released.covers {s : Session} {head : ResponseHead} (ha : s.Aligned .req 0)
    (hs : s.Short .req) {r : Prepared}
    (hr : Released head.handledTotalPkgLen (s.way .req).handledTotalPkgLen
      (s.way .req).storedData r) (hd : r.bytes ≠ []) :
    (s.way .req).handledTotalPkgLen.toNat + r.bytes.length ≤ head.handledTotalPkgLen.toNat ∧
      r.bytes <+: (s.link.frames .req).flatten.drop (s.way .req).handledTotalPkgLen.toNat := by
  have hsum := Align.sum_of_aligned ha
  obtain ⟨k, -, hfr, hk⟩ := ha
  rw [Nat.add_zero] at hk
  have hlen : r.bytes.length = storedLen ((s.way .req).storedData.take r.handledPkgCount) := by
    rw [hr.bytes, (hfr.take _).storedBytes, (hfr.take _).storedLen]
  have hcount : r.handledPkgCount ≠ 0 := by
    intro h0
    rw [hr.bytes, h0] at hd
    exact hd rfl
  constructor
  · have hle := hr.le hcount
    rwa [UInt64.le_iff_toNat_le, hr.handled (by rw [hsum]; exact hs), ← hlen] at hle
  · rw [hr.bytes, (hfr.take _).storedBytes, hk]
    have hsplit : (s.link.frames .req).flatten =
        ((s.link.frames .req).take k).flatten ++ ((s.link.frames .req).drop k).flatten := by
      rw [← List.flatten_append, List.take_append_drop]
    rw [hsplit, List.drop_left]
    conv_rhs => rw [← List.take_append_drop r.handledPkgCount ((s.link.frames .req).drop k),
      List.flatten_append]
    exact List.prefix_append _ _

/-- The invariants of a run in which the process inspects the client. -/
structure Inspecting (s : Session) : Prop where
  shape : Shape s
  one : OneReader s
  align : Align .req s
  modes : Modes s
  heads : Heads s
  inspected : s.Inspected

namespace Inspecting

variable {s s' : Session}

/-- The release that a reader starts is covered by the response it is in. -/
theorem covered_release (h : Inspecting s) {i conn : ℕ} {d : Dir} {head : ResponseHead}
    (hI : Inspects s (.complete (.reader i))) {pre : List Act} (hserv : (s.readers i).pc.Serving)
    (hrel : (s.readers i).pc.releasing .req = none)
    (hact : d = .req → head ∈ (s.readers i).pc.acting .req) (hb : head.act ≠ Action.block.code)
    (ht : DataType.ofCode head.type = some d.dataType) (hconn : conn = s.conns)
    (hpre : Act.response i head ∈ pre) : s.Covered pre (s.releaseAct d conn head) := by
  obtain ⟨-, -, hC, -, hP⟩ := hI
  unfold releaseAct
  generalize hpr : prepareTransferPacket head (s.way d).storedData (s.way d).handledTotalPkgLen = r
  cases d with
  | res => trivial
  | req =>
    cases hlive : s.dstOpen .req with
    | false => trivial
    | true =>
      intro hd
      have hne : (s.way .req).storedData ≠ [] := by
        intro h0
        rw [h0] at hpr
        subst hpr
        exact hd rfl
      have hu : s.Steady := hP head (hact rfl) hb hlive hne
      obtain ⟨hshort, hcut⟩ := hC hu head (hact rfl) hb
      have hal := h.align.idle hu (Align.releasing_none h.shape h.one hserv hrel)
      have hr := released head hcut
      rw [hpr] at hr
      obtain ⟨hle, hpfx⟩ := hr.covers hal hshort hd
      exact ⟨⟨i, head, hpre, hb, ht, rfl⟩, hle, hconn.le, by rw [hconn]; exact hpfx⟩

/-- What a step records is covered, and what it reads is sent. -/
theorem inspected_of_emits (h : Inspecting s) {e : Event} {acts : List Act}
    (hI : Inspects s e) (he : s.Emits e acts) :
    After Act.Sent acts ∧ Before (fun pre a => s.Covered (s.trace ++ pre) a) acts := by
  cases he with
  | silent ha =>
    exact ⟨after_of_forall fun a hm => (ha a hm).sent, before_of_forall fun a hm _ => (ha a hm).covered⟩
  | @direct d live data hpc =>
    cases d with
    | req =>
      have hb : s.bypass = true := by
        have := h.modes
        rw [Modes, hpc] at this
        exact this
      rw [hb]
      simp [Act.Sent, Covered]
    | res => simp [Act.Sent, Covered]
  | @framed d live data hpc =>
    cases d <;> cases s.bypass <;> simp [Act.Sent, Covered]
  | @flush d e acts ha =>
    constructor
    · refine after_of_forall fun a hm => ?_
      rcases List.mem_append.1 hm with hm | hm
      · exact (ha a hm).sent
      · rw [List.mem_singleton.1 hm]; exact fun _ => trivial
    · refine before_of_forall fun a hm _ => ?_
      rcases List.mem_append.1 hm with hm | hm
      · exact (ha a hm).covered
      · rw [List.mem_singleton.1 hm]; trivial
  | dead => simp [Act.Sent, Covered]
  | response => simp [Act.Sent, Covered]
  | newData => simp [Act.Sent, Covered]
  | @pass i conn head buf d hh ht hn hb =>
    have hserv : (s.readers i).pc.Serving ∧ (s.readers i).pc.releasing .req = none ∧
        (d = .req → head ∈ (s.readers i).pc.acting .req) ∧ conn = s.conns := by
      have hin := h.heads i
      rcases hh with ⟨r, hpc, hf, rfl, -, rfl, -⟩ | ⟨r, hpc, hf, rfl, -⟩ <;> rw [hpc] at hin ⊢ <;>
        refine ⟨hf.1, rfl, fun hd => ?_, hin hf.1⟩ <;> subst hd <;> simp [ReaderPc.acting, hn, ht]
    obtain ⟨hs, hrel, hact, hconn⟩ := hserv
    simp only [after_cons, after_nil, before_cons, before_nil, and_true]
    exact ⟨⟨trivial, trivial⟩, trivial,
      h.covered_release hI hs hrel hact hb ht hconn (by simp)⟩
  | @passNew i d conn head w hpc hb =>
    have hin := h.heads i
    rw [hpc] at hin
    obtain ⟨hconn, ht, hmem⟩ := hin
    simp only [after_cons, after_nil, before_cons, before_nil, and_true]
    refine ⟨trivial, h.covered_release hI (by rw [hpc]; trivial) (by rw [hpc]; rfl) (fun hd => ?_)
      hb ht hconn (by simpa using hmem)⟩
    rw [hpc]; simp [ReaderPc.acting, hd]

theorem init (c : Conf) : Inspecting (Session.init c) :=
  ⟨Shape.init c, OneReader.init c, Align.init .req c, Modes.init c, Heads.init c, by
    simp [Inspected, trace_init, Act.Sent, Covered]⟩

theorem step (h : Inspecting s) {e : Event} (hI : Inspects s e) (hr : Rule s e s') :
    Inspecting s' := by
  obtain ⟨acts, he, ht⟩ := records_of_rule h.shape hr
  obtain ⟨hsent, hcov⟩ := h.inspected_of_emits hI he
  refine ⟨h.shape.step hr, h.one.step h.shape hI.1 hr, h.align.step h.shape h.one hI.2.1 hI.2.2.1 hr,
    h.modes.step hI.2.2.2.1 hr, h.heads.step h.shape hI.1 hr, ?_⟩
  rw [Inspected, ht]
  refine ⟨h.inspected.1.append (fun _ ha => ha.some) hsent, ?_⟩
  exact (h.inspected.2.append hcov).imp fun _ _ => Covered.mono (Later.of_rule hr)

end Inspecting

/-- **Inspection is complete** in every such run. -/
theorem inspected_of_inspects {c : Conf} {s : Session}
    (h : Reach Session.step Inspects (Session.init c) s) : s.Inspected := by
  have hi : Inspecting s := h.inv (I := Inspecting) (Inspecting.init c) fun _ _ _ hs hC he =>
    hs.step hC (rule_of_step he)
  exact hi.inspected

/-- The connection comes up while the client's first byte is being written; the
    next two bytes are framed, passed and released. -/
theorem inspected_passed : ∃ s : Session, (s.way .req).accepted = [1, 2, 3] ∧ s.bypass = false ∧
    s.Inspected := by
  obtain ⟨s, hs, hp⟩ := exists_runIf Session.step Inspects
    (Session.init (localConf true))
    ([.read .req (.data [1]), .connect 0, .complete (.connector 0), .push (.relay .req) 1,
      .complete (.relay .req), .push (.connector 0) 89, .complete (.connector 0),
      .read .req (.data [2, 3]), .push (.relay .req) 7, .complete (.relay .req),
      .respond 1 (.pass 0 2),
      .pull 0 16, .complete (.reader 0), .push (.reader 0) 2, .complete (.reader 0)])
    (fun s => (s.way .req).accepted == [1, 2, 3] && s.bypass == false) (by decide +kernel)
  simp only [Bool.and_eq_true, beq_iff_eq] at hp
  exact ⟨s, hp.1, hp.2, inspected_of_inspects hs⟩

/-- A direct read that completes while `bypass_` is clear passes the process by. -/
theorem not_inspected_writeDirect {s : Session} (hb : s.bypass = false) (data : List Byte) :
    ¬ (s.writeDirect .req data).Inspected := by
  intro h
  have := h.1 s.trace (.got .req false data) [.direct .req (s.dstOpen .req) data]
    (by rw [writeDirect_eq, hb])
  cases this

/-- The first read of `client_request` is pending when the connection comes up:
    the client's first byte goes to the server uninspected. -/
theorem not_inspected : ¬ ∀ (c : Conf) (s : Session),
    Reach Session.step (fun _ _ => True) (Session.init c) s → s.Inspected := by
  intro h
  obtain ⟨s, hs, hp⟩ := exists_run Session.step (fun _ _ => True)
    (Session.init (localConf true))
    ([.connect 0, .complete (.connector 0), .read .req (.data [1])])
    (fun s => s.trace == [.reconnect 0 0, .got .req false [1], .direct .req true [1]])
    (fun _ _ _ => trivial) (by decide +kernel)
  rw [beq_iff_eq] at hp
  cases (h _ s hs).1 [.reconnect 0 0] _ _ hp

end CppProxy
