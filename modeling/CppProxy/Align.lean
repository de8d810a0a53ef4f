/-
  cpp_proxy — the counters and the queues.

  On an established connection the queue of a direction is what was framed to
  the process and not acknowledged yet, and the counter is the length of what
  was.  `connect_process` zeroes the counters and does not look at the queues,
  so this depends on what they hold when the next connection comes up.

  * `Aligned`: the queue is the payloads framed to the connection but for the
    first ones, whose length is the counter;
  * `AlignsAt`: the steps that align them, or keep them aligned;
  * `Align`: they are aligned whenever a connection is established and no flush
    is in progress.
-/
import CppProxy.Edits
import CppProxy.Readers
import CppProxy.Totals

namespace CppProxy

open Session Runs

/-- The number of packets, and of bytes of the next one, that a reader is
    releasing in direction `d`. -/
def ReaderPc.releasing (d : Dir) : ReaderPc → Option (ℕ × Int32)
  | release d' count next _ => if d' = d then some (count, next) else none
  | _ => none

/-- The relay flushes the stored packets of its direction. -/
def RelayPc.IsFlush : RelayPc → Prop
  | flush _ _ => True
  | _ => False

/-- The reader flushes the stored packets of a direction. -/
def ReaderPc.IsFlush : ReaderPc → Prop
  | flushServer _ _ | flushClient _ _ => True
  | _ => False

instance : ∀ pc : RelayPc, Decidable pc.IsFlush
  | .flush _ _ => inferInstanceAs (Decidable True)
  | .notify _ | .readDirect _ | .writeDirect _ | .readProcess _ | .writeProcess _ | .done =>
    inferInstanceAs (Decidable False)

instance : ∀ pc : ReaderPc, Decidable pc.IsFlush
  | .flushServer _ _ | .flushClient _ _ => inferInstanceAs (Decidable True)
  | .readHead _ | .readBody _ _ | .writeNew _ _ _ _ | .release _ _ _ _ | .done =>
    inferInstanceAs (Decidable False)

namespace Session

variable (s : Session)

/-- A process connection is established. -/
def Up : Prop := s.proxyProcessSocket = .connected ∧ s.processConnecting = false

/-- No coroutine flushes a queue. -/
def NoFlush : Prop :=
  (∀ d, ¬ (s.way d).relay.IsFlush) ∧ ∀ i < s.nReaders, ¬ (s.readers i).pc.IsFlush

/-- The connection is established and no flush is in progress. -/
def Steady : Prop := s.Up ∧ s.NoFlush

/-- The queue is what was framed to the connection but for some first payloads;
    the counter is the length of these and of the first `n` stored ones. -/
def Aligned (d : Dir) (n : ℕ) : Prop :=
  ∃ k, k + n ≤ (s.link.frames d).length ∧
    Frames (s.way d).storedData ((s.link.frames d).drop k) ∧
    (s.way d).handledTotalPkgLen.toNat = ((s.link.frames d).take (k + n)).flatten.length

/-- Fewer than `2 ^ 64` bytes were framed to the connection. -/
def Short (d : Dir) : Prop := (s.link.frames d).flatten.length < 2 ^ 64

/-- The counter is zero and the queue is what was framed to the connection. -/
def Restarted (d : Dir) : Prop :=
  (s.way d).handledTotalPkgLen = 0 ∧ Frames (s.way d).storedData (s.link.frames d)

instance : Decidable s.Up := inferInstanceAs (Decidable (_ ∧ _))
instance : Decidable s.NoFlush := inferInstanceAs (Decidable (_ ∧ _))
instance : Decidable s.Steady := inferInstanceAs (Decidable (_ ∧ _))
instance (d : Dir) : Decidable (s.Short d) := inferInstanceAs (Decidable (_ < _))
instance (d : Dir) : Decidable (s.Restarted d) :=
  decidable_of_iff ((s.way d).handledTotalPkgLen = 0 ∧
    (∀ p ∈ (s.way d).storedData, 0 ≤ p.buf ∧ p.buf.toNat + p.len.toNat ≤ p.bufKeeper.length) ∧
      (s.way d).storedData.map Packet.bytes = s.link.frames d)
    ⟨fun h => ⟨h.1, h.2.1, h.2.2⟩, fun h => ⟨h.1, h.2.ok, h.2.bytes⟩⟩

end Session

/-- A connection comes up with aligned queues, unless one is being flushed. -/
def Realigned (d : Dir) (s : Session) : Event → Prop
  | .complete (.connector j) => s.connectors j = .connecting true →
      s.proxyProcessSocket = .connected → s.NoFlush → s.Restarted d
  | _ => True

/-- On an established connection the totals cut the queue between packets. -/
def CutsBetween (d : Dir) (s : Session) : Event → Prop
  | .complete (.reader i) => s.Steady → ∀ head ∈ (s.readers i).pc.acting d,
      head.act ≠ Action.block.code → s.Short d ∧
        CutBetween head.handledTotalPkgLen (s.way d).handledTotalPkgLen (s.way d).storedData
  | _ => True

instance (d : Dir) (s : Session) : ∀ e, Decidable (Realigned d s e)
  | .complete (.connector _) => inferInstanceAs (Decidable (_ → _ → _ → _))
  | .complete (.relay _) | .complete (.reader _) | .complete (.detector _)
  | .read _ _ | .push _ _ | .pull _ _ | .issue _ | .fail _ | .connect _ | .expire _
  | .respond _ _ => inferInstanceAs (Decidable True)

instance (d : Dir) (s : Session) : ∀ e, Decidable (CutsBetween d s e)
  | .complete (.reader i) => inferInstanceAs
    (Decidable (_ → ∀ head ∈ (s.readers i).pc.acting d, _ → _ ∧ _))
  | .complete (.relay _) | .complete (.connector _) | .complete (.detector _)
  | .read _ _ | .push _ _ | .pull _ _ | .issue _ | .fail _ | .connect _ | .expire _
  | .respond _ _ => inferInstanceAs (Decidable True)

/-- While the connection is steady, each release of direction `d` selects whole packets,
    and between two releases the queue starts at the counter. -/
structure Align (d : Dir) (s : Session) : Prop where
  releasing : s.Steady → ∀ i count next, (s.readers i).pc.releasing d = some (count, next) →
    next = 0 ∧ s.Aligned d count
  idle : s.Steady → (∀ i, (s.readers i).pc.releasing d = none) → s.Aligned d 0

theorem ReaderPc.serving_of_releasing {d : Dir} {pc : ReaderPc} {p : ℕ × Int32}
    (h : pc.releasing d = some p) : pc.Serving := by
  cases pc <;> first | cases h | trivial

theorem ReaderPc.releasing_setPeerWrite {d : Dir} {pc : ReaderPc} {w : PeerWrite} :
    (pc.setPeerWrite w).releasing d = pc.releasing d := by
  cases pc <;> rfl

theorem ReaderPc.isFlush_setPeerWrite {pc : ReaderPc} {w : PeerWrite} :
    (pc.setPeerWrite w).IsFlush ↔ pc.IsFlush := by
  cases pc <;> rfl

theorem RelayPc.isFlush_setPeerWrite {pc : RelayPc} {w : PeerWrite} :
    (pc.setPeerWrite w).IsFlush ↔ pc.IsFlush := by
  cases pc <;> rfl

theorem RelayPc.isFlush_setLinkWrite {pc : RelayPc} {w : LinkWrite} :
    (pc.setLinkWrite w).IsFlush ↔ pc.IsFlush := by
  cases pc <;> rfl

theorem ReaderPc.setLinkRead_frame {d : Dir} {pc : ReaderPc} {r : LinkRead} :
    ((pc.setLinkRead r).IsFlush ↔ pc.IsFlush) ∧ (pc.setLinkRead r).releasing d = pc.releasing d := by
  cases pc <;> exact ⟨Iff.rfl, rfl⟩

namespace Session.Steady

variable {s s' : Session}

/-- What `Steady` reads stays as it is. -/
theorem of_same (hs : s'.proxyProcessSocket = s.proxyProcessSocket)
    (hp : s'.processConnecting = s.processConnecting)
    (hw : ∀ d, (s'.way d).relay = (s.way d).relay) (hr : s'.readers = s.readers)
    (hn : s'.nReaders = s.nReaders) (h : s'.Steady) : s.Steady := by
  simpa only [Steady, Up, NoFlush, hs, hp, hw, hr, hn] using h

theorem of_setWay {d : Dir} {w : Way} (hf : (s.way d).relay.IsFlush → w.relay.IsFlush)
    (h : (s.setWay d w).Steady) : s.Steady := by
  refine ⟨h.1, fun d' => ?_, h.2.2⟩
  have := h.2.1 d'
  by_cases hd : d' = d
  · subst hd
    rw [setWay_way, Function.update_self] at this
    exact fun hfl => this (hf hfl)
  · rwa [setWay_way, Function.update_of_ne hd] at this

theorem of_setReader {i : ℕ} {pc : ReaderPc} (hf : (s.readers i).pc.IsFlush → pc.IsFlush)
    (h : (s.setReader i pc).Steady) : s.Steady := by
  refine ⟨h.1, h.2.1, fun i' hi' => ?_⟩
  have := h.2.2 i' hi'
  by_cases hi : i' = i
  · subst hi
    rw [setReader_readers, Function.update_self] at this
    exact fun hfl => this (hf hfl)
  · rwa [setReader_readers, Function.update_of_ne hi] at this

theorem of_setPeerWrite {w : PeerWrite} {t : Tid} (h : (s.setPeerWrite w t).Steady) : s.Steady := by
  cases t with
  | relay d => exact of_setWay RelayPc.isFlush_setPeerWrite.2 h
  | reader i => exact of_setReader ReaderPc.isFlush_setPeerWrite.2 h
  | connector j => exact h
  | detector k => exact h

theorem of_releasing {i : ℕ} {d : Dir} {conn : ℕ} {head : ResponseHead} {r : Prepared}
    (hf : ¬ (s.readers i).pc.IsFlush) (h : (s.releasing i d conn head r).Steady) : s.Steady := by
  have h₁ : ((s.setWay d { s.way d with handledTotalPkgLen := r.handledTotalPkgLen }).setReader i
      (.release d r.handledPkgCount r.nextPkgUsedSize (s.asyncWrite d r.bytes))).Steady :=
    h.of_same rfl rfl (fun _ => rfl) rfl rfl
  have h₂ := h₁.of_setReader (by exact fun hf' => absurd hf' hf)
  exact h₂.of_setWay (by exact id)

theorem of_spawning {j conn : ℕ} (h : (s.spawning j conn).Steady) : s.Steady := by
  refine ⟨h.1, h.2.1, fun i hi => ?_⟩
  have := h.2.2 i (Nat.lt_succ_of_lt hi)
  simpa [Session.spawning, hi.ne] using this

theorem of_writeProcess {d : Dir} {live : Bool} {l : List Byte}
    (hpc : (s.way d).relay = .readProcess live) (h : (s.writeProcess d l).Steady) :
    s.Steady := by
  rw [writeProcess_eq] at h
  refine of_setWay (s := s) (d := d) (w := { s.way d with
    relay := .writeProcess (s.asyncWriteProcess (frame d.dataType l)) })
      (by rw [hpc]; exact fun hf => hf.elim) (h.of_same (by rfl) (by rfl) (fun d' => ?_) (by rfl)
        (by rfl))
  by_cases hd : d' = d <;> simp [hd]

end Session.Steady

namespace Align

variable {d : Dir} {s s' : Session}

/-! ## The functions -/

/-- Without a connection, or while a queue is flushed, nothing has to be aligned. -/
theorem down (h : ¬ s.Steady) : Align d s :=
  ⟨fun hs => absurd hs h, fun hs => absurd hs h⟩

theorem not_steady_of_connecting (h : s.processConnecting = true) : ¬ s.Steady := by
  intro hs
  rw [hs.1.2] at h; cases h

theorem not_steady_of_closed (hs : Shape s) (h : s.hasClosed = true) : ¬ s.Steady := by
  intro hu
  have := hu.1.1
  rw [hs.closed h] at this; cases this

theorem not_steady_of_relay {d : Dir} (h : (s.way d).relay.IsFlush) : ¬ s.Steady :=
  fun hs => hs.2.1 d h

theorem not_steady_of_reader {i : ℕ} (hi : i < s.nReaders) (h : (s.readers i).pc.IsFlush) :
    ¬ s.Steady := fun hs => hs.2.2 i hi h

/-- The queue, the counter, what was framed and the releases stay as they are. -/
theorem keep (h : Align d s) (hu : s'.Steady → s.Steady)
    (hS : (s'.way d).storedData = (s.way d).storedData)
    (hH : (s'.way d).handledTotalPkgLen = (s.way d).handledTotalPkgLen)
    (hl : s'.link.frames d = s.link.frames d)
    (hr : ∀ i, (s'.readers i).pc.releasing d = (s.readers i).pc.releasing d) : Align d s' := by
  have ha : ∀ n, s.Aligned d n → s'.Aligned d n := by
    intro n ⟨k, hn, hf, hk⟩
    exact ⟨k, by rwa [hl], by rwa [hS, hl], by rwa [hH, hl]⟩
  refine ⟨fun hs i count next hi => ?_, fun hs hi => ha 0 (h.idle (hu hs) fun i => ?_)⟩
  · rw [hr] at hi
    obtain ⟨hn, hal⟩ := h.releasing (hu hs) i count next hi
    exact ⟨hn, ha count hal⟩
  · rw [← hr]; exact hi i

/-- Nothing that `Align` reads changes. -/
theorem same {x : Session} (h : Align d s) (hs : x.proxyProcessSocket = s.proxyProcessSocket)
    (hp : x.processConnecting = s.processConnecting) (hw : x.way = s.way)
    (hl : x.link.frames d = s.link.frames d) (hr : x.readers = s.readers)
    (hn : x.nReaders = s.nReaders) : Align d x := by
  exact h.keep (Steady.of_same hs hp (fun _ => by rw [hw]) hr hn) (by rw [hw]) (by rw [hw]) hl
    fun i => by rw [hr]

/-- A relay that did not flush goes on. -/
theorem setRelay (h : Align d s) {k : Dir} {w : Way} (hf : ¬ (s.way k).relay.IsFlush)
    (hS : w.storedData = (s.way k).storedData)
    (hH : w.handledTotalPkgLen = (s.way k).handledTotalPkgLen) : Align d (s.setWay k w) := by
  refine h.keep (Steady.of_setWay fun hf' => absurd hf' hf) ?_ ?_ rfl fun _ => rfl
  · by_cases hd : d = k
    · subst hd; simpa using hS
    · simp [hd]
  · by_cases hd : d = k
    · subst hd; simpa using hH
    · simp [hd]

/-- A reader that neither flushed nor released goes on without releasing. -/
theorem setReader (h : Align d s) {i : ℕ} {pc : ReaderPc}
    (hf : (s.readers i).pc.IsFlush → pc.IsFlush)
    (hr : pc.releasing d = (s.readers i).pc.releasing d) : Align d (s.setReader i pc) := by
  refine h.keep (Steady.of_setReader hf) rfl rfl rfl fun i' => ?_
  by_cases hi : i' = i
  · subst hi; simpa using hr
  · simp [hi]

theorem emit (h : Align d s) (a : Act) : Align d (s.emit a) := h.same rfl rfl rfl rfl rfl rfl

theorem cancelTimer (h : Align d s) : Align d s.cancelTimer := h.same rfl rfl rfl rfl rfl rfl

theorem noteRead (h : Align d s) (i : ℕ) : Align d (s.noteRead i) :=
  noteRead_ind (fun _ => h.same rfl rfl rfl (by simp) rfl rfl) fun _ => h

theorem breakLink (h : Align d s) (w : LinkWrite) : Align d (s.breakLink w) := by
  refine breakLink_ind (fun _ => h.same rfl rfl rfl ?_ rfl rfl) fun _ => h
  by_cases hg : s.conns = w.gen <;> simp [link, hg]

theorem graceClose_setRelay (hs : Shape s) (d' : Dir) (pc : RelayPc) :
    Align d (s.graceClose.setRelay d' pc) :=
  down (not_steady_of_closed (hs.graceClose.setWay d' _) (graceClose_hasClosed s))

theorem graceClose_done (hs : Shape s) {i : ℕ} (hi : i < s.nReaders) :
    Align d (s.graceClose.setReader i .done) :=
  down (not_steady_of_closed (hs.graceClose.setReader _ (graceClose_ind
    (P := fun s' => i < s'.nReaders) (fun _ => hi) fun _ => hi)) (graceClose_hasClosed s))

theorem relayLoop (h : Align d s) (hs : Shape s) {d' : Dir} (hf : ¬ (s.way d').relay.IsFlush) :
    Align d (s.relayLoop d') :=
  relayLoop_ind (fun _ => graceClose_setRelay hs d' _) (fun _ _ => h.setRelay hf rfl rfl)
    (fun _ _ _ _ => h.setRelay hf rfl rfl) fun _ _ _ => h.setRelay hf rfl rfl

theorem relayReconnect (s : Session) (d' : Dir) (gen : ℕ) : Align d (s.relayReconnect d' gen) :=
  down (not_steady_of_connecting
    ((relayLoop_connecting _ d').trans (connectProcess_connecting s gen)))

theorem readerReconnect (s : Session) (i gen : ℕ) : Align d (s.readerReconnect i gen) :=
  down (not_steady_of_connecting (connectProcess_connecting s gen))

theorem relayFlush (s : Session) (d' : Dir) (gen : ℕ) : Align d (s.relayFlush d' gen) :=
  relayFlush_ind (fun _ => relayReconnect _ d' gen)
    fun _ => down (not_steady_of_relay (d := d') (by simp [RelayPc.IsFlush]))

theorem readerFlushClient (s : Session) {i : ℕ} (gen : ℕ) (hi : i < s.nReaders) :
    Align d (s.readerFlushClient i gen) :=
  readerFlushClient_ind (fun _ => readerReconnect _ i gen)
    fun _ => down (not_steady_of_reader hi (by simp [ReaderPc.IsFlush]))

theorem readerFlushServer (s : Session) {i : ℕ} (gen : ℕ) (hi : i < s.nReaders) :
    Align d (s.readerFlushServer i gen) :=
  readerFlushServer_ind (fun _ => readerFlushClient { s with bypass := true } gen hi)
    fun _ => down (not_steady_of_reader hi (by simp [ReaderPc.IsFlush]))

theorem readHead (h : Align d s) {i : ℕ} (hf : ¬ (s.readers i).pc.IsFlush)
    (hr : (s.readers i).pc.releasing d = none) : Align d (s.readHead i) :=
  (h.noteRead i).setReader (fun hf' => absurd (by simpa using hf') hf)
    (by simpa [ReaderPc.releasing] using hr.symm)

theorem readBody (h : Align d s) {i : ℕ} (head : ResponseHead)
    (hf : ¬ (s.readers i).pc.IsFlush) (hr : (s.readers i).pc.releasing d = none) :
    Align d (s.readBody i head) :=
  (h.noteRead i).setReader (fun hf' => absurd (by simpa using hf') hf)
    (by simpa [ReaderPc.releasing] using hr.symm)

theorem setPeerWrite (h : Align d s) (w : PeerWrite) (t : Tid) : Align d (s.setPeerWrite w t) := by
  cases t with
  | relay d' =>
    refine h.keep Steady.of_setPeerWrite ?_ ?_ rfl fun _ => rfl
    all_goals by_cases hd : d = d' <;> simp [Session.setPeerWrite, hd]
  | reader i =>
    exact h.setReader ReaderPc.isFlush_setPeerWrite.2 ReaderPc.releasing_setPeerWrite
  | connector j => exact h
  | detector k => exact h

theorem setLinkWrite (h : Align d s) {w v : LinkWrite} {t : Tid} (ht : s.linkWrite t = some v) :
    Align d (s.setLinkWrite w t) := by
  cases t with
  | relay d' =>
    refine h.setRelay (fun hf => ?_) rfl rfl
    simp only [linkWrite] at ht
    cases hpc : (s.way d').relay <;> rw [hpc] at ht hf <;> cases ht <;> exact hf
  | connector j => exact h.same rfl rfl rfl rfl rfl rfl
  | reader i => exact h
  | detector k => exact h

theorem setLinkRead (h : Align d s) (i : ℕ) (r : LinkRead) : Align d (s.setLinkRead i r) :=
  h.setReader (ReaderPc.setLinkRead_frame (d := d)).1.2 ReaderPc.setLinkRead_frame.2

/-- The counter and the stored packets are what was framed to the connection. -/
theorem sum_of_aligned {s : Session} {d : Dir} (h : s.Aligned d 0) :
    (s.way d).handledTotalPkgLen.toNat + storedLen (s.way d).storedData =
      (s.link.frames d).flatten.length := by
  obtain ⟨k, -, hfr, hk⟩ := h
  rw [hk, hfr.storedLen, Nat.add_zero, ← List.length_append, ← List.flatten_append,
    List.take_append_drop]

/-- While a reader is between two reads, no other reader releases. -/
theorem releasing_none (hs : Shape s) (ho : OneReader s) {i : ℕ} (hi : (s.readers i).pc.Serving)
    (hr : (s.readers i).pc.releasing d = none) : ∀ i', (s.readers i').pc.releasing d = none := by
  intro i'
  by_contra hne
  obtain ⟨p, hp⟩ := Option.ne_none_iff_exists'.1 hne
  have := ho.unique _ _ _ (ho.owns_of_serving hs hi)
    (ho.owns_of_serving hs (ReaderPc.serving_of_releasing hp))
  cases this
  rw [hr] at hp; cases hp

/-- A reader acts on a head: it starts a release in the direction of the head. -/
theorem actOnHead (h : Align d s) (hs : Shape s) (ho : OneReader s) {i : ℕ} {d' : Dir} (conn : ℕ)
    {head : ResponseHead} (hi : (s.readers i).pc.Serving) (hf : ¬ (s.readers i).pc.IsFlush)
    (hr : (s.readers i).pc.releasing d = none)
    (hC : d' = d → s.Steady → head.act ≠ Action.block.code → s.Short d ∧
      CutBetween head.handledTotalPkgLen (s.way d).handledTotalPkgLen (s.way d).storedData) :
    Align d (s.actOnHead i d' conn head) := by
  have hlt : i < s.nReaders := hs.reader_lt (fun hd => by rw [hd] at hi; exact hi)
  refine actOnHead_ind (fun _ => graceClose_done hs hlt) fun hb => ?_
  have hnone := releasing_none hs ho hi hr
  generalize hpr : prepareTransferPacket head (s.way d').storedData (s.way d').handledTotalPkgLen = r
  have hst : (s.releasing i d' conn head r).Steady → s.Steady := Steady.of_releasing hf
  by_cases hd : d' = d
  · subst hd
    constructor
    · intro hu i' count next hc
      have hu' := hst hu
      have hii : i' = i := by
        by_contra hii
        simp [Session.releasing, hii, hnone] at hc
      subst hii
      simp only [Session.releasing, Function.update_self, ReaderPc.releasing, if_true,
        Option.some.injEq, Prod.mk.injEq] at hc
      obtain ⟨rfl, rfl⟩ := hc
      obtain ⟨hshort, hcut⟩ := hC rfl hu' hb
      have hrel := released head hcut
      rw [hpr] at hrel
      obtain ⟨k, hkl, hfr, hk⟩ := h.idle hu' hnone
      refine ⟨hrel.next, k, ?_, ?_, ?_⟩
      · have := hrel.count_le
        rw [hfr.length, List.length_drop] at this
        show k + _ ≤ (s.link.frames d').length
        omega
      · show Frames (Function.update s.way d' _ d').storedData ((s.link.frames d').drop k)
        rw [Function.update_self]
        exact hfr
      · -- what is released is the next `count` payloads
        have := hrel.handled (by rw [sum_of_aligned ⟨k, hkl, hfr, hk⟩]; exact hshort)
        rw [hk, (hfr.take _).storedLen, Nat.add_zero, ← List.length_append, ← List.flatten_append,
          ← List.take_add] at this
        show (Function.update s.way d' _ d').handledTotalPkgLen.toNat = _
        rw [Function.update_self]
        exact this
    · intro hu hall
      have := hall i
      simp [Session.releasing, ReaderPc.releasing] at this
  · refine h.keep hst (by simp [Session.releasing, Ne.symm hd]) (by
      simp [Session.releasing, Ne.symm hd]) rfl fun i' => ?_
    by_cases hii : i' = i
    · subst hii; rw [hr]; simp [Session.releasing, ReaderPc.releasing, hd]
    · simp [Session.releasing, hii]

/-- A reader acts on a response: nothing, a heartbeat, new data or a head. -/
theorem dispatch (h : Align d s) (hs : Shape s) (ho : OneReader s) {i : ℕ} (conn : ℕ)
    {head : ResponseHead} (buf : List Byte) (hi : (s.readers i).pc.Serving)
    (hf : ¬ (s.readers i).pc.IsFlush) (hr : (s.readers i).pc.releasing d = none)
    (hC : head.newDataLen = 0 → DataType.ofCode head.type = some d.dataType → s.Steady →
      head.act ≠ Action.block.code → s.Short d ∧
        CutBetween head.handledTotalPkgLen (s.way d).handledTotalPkgLen (s.way d).storedData) :
    Align d (s.dispatch i conn head buf) := by
  refine dispatch_ind (fun d' hd' => innerProxy_ind (fun _ => ?_) fun hn => ?_)
    ((h.emit _).cancelTimer.readHead hf hr) ((h.emit _).readHead hf hr)
  · exact ((h.emit _).emit _).setReader (fun hf' => absurd hf' hf) (by rw [emit_readers]; exact hr.symm)
  · exact (h.emit _).actOnHead (hs.emit _) (ho.emit _) conn hi hf hr fun hd => hC hn (hd ▸ hd')

/-- A reader has released packets: they leave the queue. -/
theorem released_done (h : Align d s) (hs : Shape s) (ho : OneReader s) {i count : ℕ} {d' : Dir}
    {next : Int32} {w : PeerWrite} (hpc : (s.readers i).pc = .release d' count next w)
    {l : List Packet} (hst : d' = d → s.Steady → l = (s.way d).storedData.drop count) :
    Align d ((s.setStored d' l).setReader i .done) := by
  have hsteady : ((s.setStored d' l).setReader i .done).Steady → s.Steady := by
    intro hu
    have h₁ := hu.of_setReader fun hf => by
      change (s.readers i).pc.IsFlush at hf
      rw [hpc] at hf; exact hf
    exact Steady.of_setWay (by exact id) h₁
  have hserv : (s.readers i).pc.Serving := by rw [hpc]; trivial
  by_cases hd : d' = d
  · subst hd
    have hother : ∀ i', i' ≠ i → (s.readers i').pc.releasing d' = none := by
      intro i' hi
      by_contra hne
      obtain ⟨p, hp⟩ := Option.ne_none_iff_exists'.1 hne
      have := ho.unique _ _ _ (ho.owns_of_serving hs hserv)
        (ho.owns_of_serving hs (ReaderPc.serving_of_releasing hp))
      cases this; exact hi rfl
    have hnone : ∀ i', (((s.setStored d' l).setReader i .done).readers i').pc.releasing d' =
        none := by
      intro i'
      by_cases hi : i' = i
      · subst hi; simp [ReaderPc.releasing]
      · rw [setReader_readers, Function.update_of_ne hi]; exact hother i' hi
    refine ⟨fun _ i' count' next' hc => (by rw [hnone] at hc; cases hc), fun hu _ => ?_⟩
    obtain ⟨-, k, hle, hfr, hk⟩ := h.releasing (hsteady hu) i count next (by
      rw [hpc]; simp [ReaderPc.releasing])
    rw [hst rfl (hsteady hu)]
    refine ⟨k + count, hle, ?_, ?_⟩
    · have := hfr.drop count
      rw [List.drop_drop] at this
      show Frames (Function.update s.way d' _ d').storedData ((s.link.frames d').drop _)
      rw [Function.update_self]
      exact this
    · show (Function.update s.way d' _ d').handledTotalPkgLen.toNat = _
      rw [Function.update_self]
      exact hk
  · refine h.keep hsteady ?_ ?_ rfl fun i' => ?_
    · simp [setStored, Session.setReader, Ne.symm hd]
    · simp [setStored, Session.setReader, Ne.symm hd]
    · by_cases hi : i' = i
      · subst hi; simp [hpc, ReaderPc.releasing, hd]
      · rw [setReader_readers, Function.update_of_ne hi]; rfl

/-- On an aligned queue the handled packets are whole ones. -/
theorem clearHandled (h : Align d s) (hu : s.Steady) {i count : ℕ} {next : Int32} {w : PeerWrite}
    (hpc : (s.readers i).pc = .release d count next w) :
    clearHandledPacket (s.way d).storedData count next = some ((s.way d).storedData.drop count) := by
  obtain ⟨rfl, k, hle, hfr, -⟩ := h.releasing hu i count next (by
    rw [hpc]; simp [ReaderPc.releasing])
  have := hfr.length
  rw [List.length_drop] at this
  simp [clearHandledPacket, show count ≤ (s.way d).storedData.length by omega]

theorem clearReleased (h : Align d s) (hs : Shape s) (ho : OneReader s) {i count : ℕ} {d' : Dir}
    {next : Int32} {w : PeerWrite} (hpc : (s.readers i).pc = .release d' count next w) :
    Align d (s.clearReleased i d' count next) := by
  refine clearReleased_ind (fun stored hk => ?_) fun hn => ?_
  · have h₁ := h.released_done hs ho hpc (l := stored) fun hd hu => by
      subst hd
      rw [h.clearHandled hu hpc] at hk
      exact (Option.some_inj.1 hk).symm
    rw [← readHead_setReader _ i .done]
    exact h₁.readHead (by simp [ReaderPc.IsFlush]) (by simp [ReaderPc.releasing])
  · have h₁ := (h.released_done hs ho hpc (l := (s.way d').storedData) ?_).same
      (x := { (s.setStored d' (s.way d').storedData).setReader i .done with undefined := true })
      rfl rfl rfl rfl rfl rfl
    · have heq : s.setStored d' (s.way d').storedData = s := by
        simp [setStored, setWay]
      rw [heq] at h₁
      rw [← readHead_setReader _ i .done]
      exact h₁.readHead (by simp [ReaderPc.IsFlush]) (by simp [ReaderPc.releasing])
    · intro hd hu
      subst hd
      rw [h.clearHandled hu hpc] at hn; cases hn

theorem spawning (h : Align d s) (hs : Shape s) (j conn : ℕ) : Align d (s.spawning j conn) := by
  exact h.keep Steady.of_spawning rfl rfl rfl fun i => by rw [hs.spawning_pc]

theorem superviseProcess (h : Align d s) (hs : Shape s) (j conn : ℕ) :
    Align d (s.superviseProcess j conn) := by
  obtain ⟨ds, n, hd⟩ := s.superviseProcess_detectors j conn
  rw [hd]
  refine ((h.spawning hs j conn).readHead (i := s.nReaders) ?_ ?_).same rfl rfl rfl rfl rfl rfl
  · simp [Session.spawning, ReaderPc.IsFlush]
  · simp [Session.spawning, ReaderPc.releasing]

/-- The payload of a frame is stored and counted on the connection. -/
theorem writeProcess (h : Align d s) {d' : Dir} {live : Bool} {bytes : List Byte}
    (hpc : (s.way d').relay = .readProcess live) (hb : bytes.length < 2 ^ 32) :
    Align d (s.writeProcess d' bytes) := by
  rw [writeProcess_eq]
  generalize hs' : ({ s with way := _, links := _, trace := _ } : Session) = s'
  have hsteady : s'.Steady → s.Steady := by
    subst hs'
    rw [← writeProcess_eq]
    exact Steady.of_writeProcess hpc
  have hframes : s.proxyProcessSocket = .connected → s'.link.frames d =
      s.link.frames d ++ if d' = d then [bytes] else [] := by
    intro hc
    subst hs'
    by_cases hd : d' = d
    · subst hd; simp [link, framed, hc]
    · simp [link, framed, hc, hd, Ne.symm hd]
  have hr : ∀ i, (s'.readers i).pc.releasing d = (s.readers i).pc.releasing d := by
    subst hs'; exact fun _ => rfl
  by_cases hd : d' = d
  · subst hd
    have hal : s.Steady → ∀ n, s.Aligned d' n → s'.Aligned d' n := by
      rintro hu n ⟨k, hle, hfr, hk⟩
      have hlf := hframes hu.1.1
      rw [if_pos rfl] at hlf
      refine ⟨k, by rw [hlf]; simp; omega, ?_, ?_⟩
      · rw [hlf, List.drop_append_of_le_length (by omega)]
        subst hs'
        simp only [Function.update_self]
        exact hfr.append hb
      · rw [hlf, List.take_append_of_le_length hle]
        subst hs'
        simpa only [Function.update_self] using hk
    constructor
    · intro hu i count next hc
      rw [hr] at hc
      obtain ⟨hn, ha⟩ := h.releasing (hsteady hu) i count next hc
      exact ⟨hn, hal (hsteady hu) count ha⟩
    · intro hu hall
      exact hal (hsteady hu) 0 (h.idle (hsteady hu) fun i => by rw [← hr]; exact hall i)
  · by_cases hc : s.proxyProcessSocket = .connected
    · refine h.keep hsteady ?_ ?_ (by rw [hframes hc, if_neg hd, List.append_nil]) hr
      · subst hs'; simp [Ne.symm hd]
      · subst hs'; simp [Ne.symm hd]
    · exact down fun hu => hc (hsteady hu).1.1

/-! ## The steps -/

theorem init (d : Dir) (c : Conf) : Align d (Session.init c) :=
  down (not_steady_of_connecting ((relayLoop_connecting _ .res).trans
    ((relayLoop_connecting _ .req).trans (connectProcess_connecting _ 0))))

theorem step (h : Align d s) (hs : Shape s) (ho : OneReader s) {e : Event}
    (hR : Realigned d s e) (hC : CutsBetween d s e) (hr : Rule s e s') : Align d s' := by
  cases hr with
  | @gotDirect d' live bytes hpc =>
    rw [writeDirect_eq]
    exact (h.setRelay (k := d') (by rw [hpc]; exact id) (w := { s.way d' with
      received := (s.way d').received ++ bytes
      relay := .writeDirect (s.asyncWrite d' bytes) }) rfl rfl).same rfl rfl rfl rfl rfl rfl
  | gotProcess hpc hp => exact h.writeProcess hpc (lt_of_le_of_lt hp.2.1 (UInt32.toNat_lt _))
  | @readEof d' =>
    rw [relayEof_eq]
    exact graceClose_setRelay (s := { s with eof := true, trace := _ })
      (hs.congr rfl rfl rfl rfl rfl rfl rfl rfl rfl) d' _
  | @readError d' => exact graceClose_setRelay hs d' _
  | @pushPeer t k d' w =>
    have h₁ : Align d (s.accept d' (w.rest.take k)) := by
      refine h.keep (Steady.of_setWay id) ?_ ?_ rfl fun _ => rfl
      all_goals by_cases hd : d = d' <;> simp [accept, hd]
    exact h₁.setPeerWrite _ t
  | @pushLink t k w hw =>
    have h₁ : Align d (s.sendLink w k) :=
      h.same rfl rfl rfl (by simp [sendLink]) rfl rfl
    exact h₁.setLinkWrite (v := w) (by cases t <;> exact hw)
  | @pull i k r =>
    have h₁ : Align d (s.setLink { s.link with inbound := s.link.inbound.drop k }) :=
      h.same rfl rfl rfl (by simp) rfl rfl
    exact h₁.setLinkRead i _
  | issueWrite hw => exact h.setLinkWrite hw
  | @issueRead i r => exact (h.noteRead i).setLinkRead i _
  | @notified d' w hpc => exact h.setRelay (by rw [hpc]; exact id) rfl rfl
  | @notifyFailed d' w hpc =>
    exact (h.breakLink w).setRelay (by rw [breakLink_way, hpc]; exact id) rfl rfl
  | @wroteDirect d' w hpc => exact h.relayLoop hs (by rw [hpc]; exact id)
  | @wroteProcess d' w hpc => exact h.relayLoop hs (by rw [hpc]; exact id)
  | processFailed => exact relayFlush _ _ _
  | relayFlushed => exact relayReconnect _ _ _
  | @relayWriteFailed d' => exact graceClose_setRelay hs d' _
  | @gotHead i r hpc =>
    exact h.readBody _ (by rw [hpc]; exact id) (by rw [hpc]; rfl)
  | @gotHeadOnly i r hpc hf hb =>
    refine h.dispatch hs ho _ _ (by rw [hpc]; exact hf.1) (by rw [hpc]; exact id)
      (by rw [hpc]; rfl) fun hn ht hu ha => hC hu _ ?_ ha
    rw [hpc]; simp [ReaderPc.acting, hn, ht]
  | @gotBody i head r hpc hf =>
    refine h.dispatch hs ho _ _ (by rw [hpc]; exact hf.1) (by rw [hpc]; exact id)
      (by rw [hpc]; rfl) fun hn ht hu ha => hC hu _ ?_ ha
    rw [hpc]; simp [ReaderPc.acting, hn, ht]
  | @readFailed i r hr =>
    have hi := hs.of_linkRead hr
    refine readerFailed_ind (fun hc => down (not_steady_of_closed (hs.setReader _ hi) hc))
      fun _ => readerFlushServer _ _ hi
  | @wroteNew i d' conn head w hpc =>
    refine h.actOnHead hs ho conn (by rw [hpc]; trivial) (by rw [hpc]; exact id)
      (by rw [hpc]; rfl) fun hd hu ha => hC hu _ ?_ ha
    rw [hpc]; simp [ReaderPc.acting, hd]
  | released hpc => exact h.clearReleased hs ho hpc
  | @readerWriteFailed i d' w hpc =>
    refine graceClose_done hs (hs.reader_lt ?_)
    rcases hpc with ⟨_, _, hpc⟩ | ⟨_, _, hpc⟩ <;> simp [hpc]
  | @flushedServer i gen w hpc =>
    exact readerFlushClient _ _ (hs.reader_lt (by rw [hpc]; simp))
  | @flushServerFailed i gen w hpc =>
    have hi := hs.reader_lt (i := i) (by rw [hpc]; simp)
    exact readerFlushClient _ _
      (graceClose_ind (P := fun s' => i < s'.nReaders) (fun _ => hi) fun _ => hi)
  | flushedClient => exact readerReconnect _ _ _
  | flushClientFailed => exact readerReconnect _ _ _
  | @connected j hpc =>
    -- the reader of the new connection is not spawned yet
    have hnone : ∀ i, (s.readers i).pc.releasing d = none := by
      intro i
      by_contra hne
      obtain ⟨p, hp⟩ := Option.ne_none_iff_exists'.1 hne
      exact ho.connecting j _ _ hpc
        (ho.owns_of_serving hs (ReaderPc.serving_of_releasing hp)) rfl
    constructor
    · intro _ i count next hc
      change (s.readers i).pc.releasing d = _ at hc
      rw [hnone] at hc; cases hc
    · intro hu _
      obtain ⟨h0, hfr⟩ := hR hpc hu.1.1 hu.2
      refine ⟨0, Nat.zero_le _, ?_, ?_⟩
      · exact hfr
      · show (s.way d).handledTotalPkgLen.toNat = _
        rw [h0]; simp
  | connectFailed => exact h.same rfl rfl rfl rfl rfl rfl
  | retry =>
    refine connectLoop_ind (fun _ => h.same rfl rfl rfl rfl rfl rfl) fun ho' => down ?_
    rename_i j hpc
    exact not_steady_of_connecting (hs.connecting j (.inr hpc))
  | wroteTuple => exact h.superviseProcess hs _ _
  | @tupleFailed j conn w => exact (h.breakLink w).same rfl rfl rfl rfl rfl rfl
  | timedOut => exact down fun hu => by cases hu.1.1
  | rearm =>
    obtain ⟨ds, hd⟩ := s.detectLoop_detectors _ _
    rw [hd]
    exact h.same rfl rfl rfl rfl rfl rfl
  | @connect j hpc => exact down (not_steady_of_connecting (hs.connecting j (.inl ⟨_, hpc⟩)))
  | expire => exact h.same rfl rfl rfl rfl rfl rfl
  | @respond g r =>
    refine h.same rfl rfl rfl ?_ rfl rfl
    by_cases hg : s.conns = g <;> simp [link, hg]

end Align

end CppProxy
