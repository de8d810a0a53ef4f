/-
  cpp_proxy — what the end of a stream leaves behind.

  A relay that reads the end of its stream closes the session at once, whatever
  is stored for the other peer.

  * `KeepsConnectionAndPasses`: the process connection lasts, and the process passes whole
    payloads;
  * `OneConnection.orderly`, `OneConnection.leavesNothing`: such steps disturb no stream, and keep
    the counters and the queues aligned;
  * `Session.undelivered`: the bytes that a release has not written yet, and those
    stored behind them;
  * `delivered_iff_drained`: at the end of a stream everything is delivered exactly
    when nothing of it is undelivered.
-/
import CppProxy.OneConnection
import CppProxy.Moves

namespace CppProxy

open Session Runs Relay

/-- The process connection neither fails nor times out; the process passes whole
    payloads with their true totals, of less than `2 ^ 64` bytes. -/
def KeepsConnectionAndPasses (s : Session) (e : Event) : Prop :=
  KeepsConnection s e ∧ Truthful s e ∧ PassesOnly s e ∧ ∀ d, s.Short d

instance (s : Session) (e : Event) : Decidable (KeepsConnectionAndPasses s e) :=
  inferInstanceAs (Decidable (_ ∧ _ ∧ _ ∧ _))

/-! ## Such steps are orderly -/

namespace OneConnection

variable {s s' : Session}

/-- The reader waits for the process on an established connection. -/
theorem steady (h : OneConnection s) (hs : Shape s) {i : ℕ} (hi : (s.readers i).pc ≠ .done) :
    s.Steady := by
  obtain ⟨-, hdone⟩ := h.reader_eq hs hi
  refine ⟨⟨h.up ?_, (h.late ?_).2⟩, h.noFlush⟩
  · rw [hdone]; simp [ConnectorPc.IsDown]
  · rw [hdone]; simp [ConnectorPc.IsConnecting]

/-- A direction without a release is written by no one, or has nothing stored. -/
theorem canWrite (h : OneConnection s) {d : Dir}
    (hrel : ∀ i < s.nReaders, ¬ (s.readers i).pc.Writing d) :
    s.CanWrite d := by
  by_cases hp : (s.way d).relay.InProcess
  · refine .inr ⟨fun hw => ?_, hrel⟩
    cases hpc : (s.way d).relay <;> rw [hpc] at hp hw
    all_goals first | exact hp.elim | exact hw.elim
  · exact .inl (h.direct d hp).1

/-- The head that the reader has read comes without new data. -/
theorem noNewData (h : OneConnection s) (hc : Counted s) {i : ℕ} {r : LinkRead}
    (hpc : (s.readers i).pc = .readHead r) (hf : r.Finished) :
    (ResponseHead.ofBytes r.got).newDataLen = 0 := by
  obtain ⟨pending, hsuf, haw, -⟩ := hc.answers.reader i
    (hc.one.owns_of_serving hc.shape (by rw [hpc]; exact hf.1))
  rw [hpc] at haw
  obtain ⟨resp, rest, rfl, hg, -⟩ := head_of_encode haw.2 (hf.2.trans haw.1)
  rw [hg, ResponseHead.ofBytes_bytes]
  exact h.passing resp (hsuf.subset (by simp))

/-- The head that the reader has read cuts the queue, which can be written. -/
theorem canHandle (h : OneConnection s) (hc : Counted s) (hS : ∀ d, s.Short d) {i : ℕ} {r : LinkRead}
    (hpc : (s.readers i).pc = .readHead r) (hf : r.Finished)
    (hr : Rule s (.complete (.reader i)) s') : s.CanHandle (ResponseHead.ofBytes r.got) := by
  have hs := hc.shape
  have hne : (s.readers i).pc ≠ .done := by rw [hpc]; simp
  have hlen := h.noNewData hc hpc hf
  refine ⟨hlen, fun d ht hact => ⟨h.canWrite fun i' hi' hw => ?_, ?_⟩⟩
  · have hne' : (s.readers i').pc ≠ .done := fun hd => by rw [hd] at hw; exact hw.elim
    have hii : i' = i := (h.reader_eq hs hne').1.trans (h.reader_eq hs hne).1.symm
    rw [hii, hpc] at hw
    exact hw
  · have hcut := hc.answers.cutsBetween hc.align hs hc.one hS d hr (h.steady hs hne)
      (ResponseHead.ofBytes r.got) (by rw [hpc]; simp [ReaderPc.acting, hlen, ht]) hact
    exact hcut.2.inside

/-- **While the connection is kept, no stream is disturbed.** -/
theorem orderly (h : OneConnection s) (hc : Counted s) (ho : s.hasClosed = false) {e : Event}
    (hC : KeepsConnection s e) (hS : ∀ d, s.Short d) (hr : Rule s e s') : Orderly s e := by
  have hs := hc.shape
  cases e with
  | read d r =>
    cases r with
    | data bytes =>
      intro _
      simp only [OrderlyRead]
      split
      · rename_i live hpc
        have hnil := (h.direct d (by rw [hpc]; exact id)).1
        refine .inr ⟨⟨by rw [hpc]; exact id, fun i _ hw => h.writing d i hw hnil⟩, hnil⟩
      · intro i hi hf
        refine h.noFlush.2 i hi ?_
        cases hpc : (s.readers i).pc <;> rw [hpc] at hf
        all_goals first | exact hf.elim | trivial
      · trivial
    | eof => trivial
    | error => trivial
  | fail t =>
    cases t with
    | relay d =>
      intro _
      simp only [OrderlyRelayFail]
      split
      · rename_i w hpc
        have := hC ho
        rw [linkWrite, hpc] at this; cases this
      · trivial
    | reader i =>
      intro _
      simp only [OrderlyReaderFail]
      split
      · rename_i r hpc
        have := hC ho
        rw [linkRead, hpc] at this; cases this
      · trivial
    | connector => trivial
    | detector => trivial
  | complete t =>
    cases t with
    | reader i =>
      intro _
      simp only [OrderlyReader]
      split
      · rename_i r hpc
        refine h.canHandle hc hS hpc ?_ hr
        cases hr <;> simp_all
      · rename_i gen w hpc
        exact absurd (by rw [hpc]; trivial)
          (h.noFlush.2 i (hs.reader_lt (by rw [hpc]; simp)))
      · trivial
    | _ => trivial
  | _ => trivial

/-- **The connection comes up with nothing left over.** -/
theorem leavesNothing (h : OneConnection s) (hs : Shape s) {e : Event} (hS : ∀ d, s.Short d)
    (hr : Rule s e s') : LeavesNothing s e := by
  refine ⟨?_, fun d => ?_, hS⟩
  · cases hr with
    | @connect j hpc =>
      obtain rfl := h.connector_eq hs (j := j) (by rw [hpc]; simp)
      have hzero : s.nReaders = 0 := by
        have := h.readers
        rwa [hpc, if_neg (by simp)] at this
      refine ⟨fun i hi => by omega, fun j hj => ?_⟩
      rw [h.one] at hj
      obtain rfl : j = 0 := by omega
      rw [hpc]
      exact id
    | _ => trivial
  · cases e with
    | complete t =>
      cases t with
      | connector j =>
        intro hpc _ _
        obtain rfl := h.connector_eq hs (j := j) (by rw [hpc]; simp)
        obtain ⟨hb, hzero⟩ := h.early (.inl ⟨_, hpc⟩)
        have hn : ¬ (s.way d).relay.InProcess := by
          intro hp
          have := (h.inProcess d hp).1
          rw [hb] at this; cases this
        obtain ⟨hst, hfr⟩ := h.direct d hn
        exact ⟨hzero d, by rw [hst, hfr]; exact ⟨by simp, rfl⟩⟩
      | _ => trivial
    | _ => trivial

end OneConnection

/-! ## Runs -/

/-- Both streams are intact; while the session is open it has one connection, and
    the counters and the queues are aligned. -/
structure IntactAndCounted (s : Session) : Prop where
  shape : Shape s
  streams : Streams s
  oneConnection : s.hasClosed = false → OneConnection s
  counted : s.hasClosed = false → Counted s

namespace IntactAndCounted

variable {s s' : Session}

theorem init (c : Conf) : IntactAndCounted (Session.init c) :=
  ⟨Shape.init c, Streams.init c, fun _ => OneConnection.init c, fun _ => Counted.init c⟩

/-- In a closed session every step is orderly. -/
theorem orderly_of_closed (hc : s.hasClosed = true) : ∀ e, Orderly s e
  | .read _ (.data _) | .fail (.relay _) | .complete (.reader _) | .fail (.reader _) =>
    fun ho => by rw [hc] at ho; cases ho
  | .read _ .eof | .read _ .error | .fail (.connector _) | .fail (.detector _)
  | .complete (.relay _) | .complete (.connector _) | .complete (.detector _)
  | .push _ _ | .pull _ _ | .issue _ | .connect _ | .expire _ | .respond _ _ => trivial

theorem step (h : IntactAndCounted s) {e : Event}
    (hG : s.hasClosed = false → KeepsConnectionAndPasses s e) (hr : Rule s e s') : IntactAndCounted s' := by
  have hopen : s'.hasClosed = false → s.hasClosed = false := open_before_of_rule hr
  have hord : Orderly s e := by
    cases hc : s.hasClosed with
    | false =>
      obtain ⟨hC, -, -, hS⟩ := hG hc
      exact (h.oneConnection hc).orderly (h.counted hc) hc hC hS hr
    | true => exact orderly_of_closed hc e
  refine ⟨h.shape.step hr, h.streams.step h.shape hord hr, fun ho => ?_, fun ho => ?_⟩
  · obtain ⟨hC, -, hP, -⟩ := hG (hopen ho)
    exact (h.oneConnection (hopen ho)).step h.shape (hopen ho) hC hP hr ho
  · obtain ⟨-, hT, -, hS⟩ := hG (hopen ho)
    exact (h.counted (hopen ho)).step hT ((h.oneConnection (hopen ho)).leavesNothing h.shape hS hr) hr

end IntactAndCounted

/-! ## The end of a stream -/

/-- What a reader that releases packets of a direction has not written yet, and
    what it leaves in the queue. -/
def ReaderPc.undelivered (d : Dir) (stored : List Packet) : ReaderPc → Option (List Byte)
  | release d' count next w =>
    if d' = d then some (w.rest ++ (clearHandledPacket stored count next).elim [] storedBytes)
    else none
  | _ => none

namespace Session

variable (s : Session)

/-- The bytes of a direction that are still to be written: what is left of a
    release, and what is stored. -/
def undelivered (d : Dir) : List Byte :=
  ((List.range s.nReaders).findSome? fun i =>
    (s.readers i).pc.undelivered d (s.way d).storedData).getD (storedBytes (s.way d).storedData)

/-- Nothing of a direction is left to be written. -/
def Drained (d : Dir) : Prop := s.undelivered d = []

/-- Whenever an open session reads the end of a stream, and so closes, everything
    that was read of it is delivered. -/
def DeliversAtEof : Prop := s.hasClosed = false → ∀ d s', s.step (.read d .eof) = some s' →
  (s.way d).accepted = (s.way d).received

instance (d : Dir) : Decidable (s.Drained d) := inferInstanceAs (Decidable (_ = _))

end Session

/-- The one reader writes for a direction only while it releases packets. -/
theorem OneConnection.reader_writer {s : Session} (h : OneConnection s) (hs : Shape s) (d : Dir) :
    ((s.readers 0).pc.writer d = none ∧ ∀ stored, (s.readers 0).pc.undelivered d stored = none) ∨
      ∃ count next w, (s.readers 0).pc = .release d count next w := by
  have hf : ∀ {pc}, (s.readers 0).pc = pc → pc ≠ .done → ¬ pc.IsFlush := fun hpc hd => by
    rw [← hpc] at hd ⊢
    exact h.noFlush.2 0 (hs.reader_lt hd)
  cases hpc : (s.readers 0).pc with
  | release d' count next w =>
    by_cases hd : d' = d
    · subst hd; exact .inr ⟨count, next, w, rfl⟩
    · exact .inl ⟨by simp [ReaderPc.writer, hd], fun _ => by simp [ReaderPc.undelivered, hd]⟩
  | flushServer => exact absurd trivial (hf hpc (by simp))
  | flushClient => exact absurd trivial (hf hpc (by simp))
  | _ => exact .inl ⟨rfl, fun _ => rfl⟩

namespace IntactAndCounted

variable {s : Session}

/-- Only the one reader can write beside a relay that does not. -/
theorem reader_of_writer (h : IntactAndCounted s) (ho : s.hasClosed = false) {d : Dir}
    (hrelay : (s.way d).relay.writer = none) {t : Tid} {u : Relay.Writer Byte (List Packet)}
    (hu : s.writer d t = some u) : t = .reader 0 := by
  cases t with
  | relay d' =>
    simp only [Session.writer, Option.ite_none_right_eq_some] at hu
    obtain ⟨rfl, hu⟩ := hu
    rw [hrelay] at hu; cases hu
  | reader i =>
    have hi : (s.readers i).pc ≠ .done := by
      intro hd
      rw [Session.writer, hd] at hu; cases hu
    rw [((h.oneConnection ho).reader_eq h.shape hi).1]
  | connector => cases hu
  | detector => cases hu

/-- **A stream of which a relay reads more** was delivered, but for what is
    undelivered. -/
theorem received_eq (h : IntactAndCounted s) (ho : s.hasClosed = false) {d : Dir}
    (hrelay : (s.way d).relay.writer = none) :
    (s.way d).received = (s.way d).accepted ++ s.undelivered d := by
  have hflow := h.streams.stream ho d
  have hone := h.oneConnection ho
  rcases hone.reader_writer h.shape d with ⟨hnone, hun⟩ | ⟨count, next, w, hpc⟩
  · -- nobody writes: the stream is what was accepted and what is stored
    obtain ⟨l, hl, hrec⟩ := hflow.quiet fun t u hu => by
      rw [h.reader_of_writer ho hrelay hu, Session.writer, hnone] at hu
      cases hu
    have hstored : s.undelivered d = storedBytes (s.way d).storedData := by
      have hn := hone.readers
      split at hn <;> simp [Session.undelivered, hn, List.range_succ, hun]
    rw [hrec, hstored, hl.2]
  · have hu : s.writer d (.reader 0) =
        some ⟨w.rest, fun stored => clearHandledPacket stored count next⟩ := by
      simp [Session.writer, hpc, ReaderPc.writer]
    have hrest : s.undelivered d = w.rest ++
        (clearHandledPacket (s.way d).storedData count next).elim [] storedBytes := by
      have hn : s.nReaders = 1 := by
        rw [hone.readers, if_pos (hone.reader_eq h.shape (by rw [hpc]; simp)).2]
      simp [Session.undelivered, hn, List.range_succ, hpc, ReaderPc.undelivered]
    by_cases hid : Relay.Writer.Idle (⟨w.rest, fun stored => clearHandledPacket stored count next⟩ :
        Relay.Writer Byte (List Packet))
    · -- the release is done and takes nothing off the queue
      obtain ⟨l, hl, hrec⟩ := hflow.quiet fun t u hu' => by
        rw [h.reader_of_writer ho hrelay hu', hu] at hu'
        cases hu'
        exact hid
      have hr : w.rest = [] := hid.1
      have hc : clearHandledPacket (s.way d).storedData count next = some (s.way d).storedData :=
        hid.2 _
      rw [hrec, hrest, hr, hc, ← hl.2]
      rfl
    · obtain ⟨kept, l, hc, hl, hrec⟩ := hflow.busy _ _ hu hid
      have hc : clearHandledPacket (s.way d).storedData count next = some kept := hc
      rw [hrec, hrest, hc, ← hl.2]
      rfl

end IntactAndCounted

/-- **At the end of a stream everything is delivered exactly when it is drained**, while
    the process connection lasts and the process passes whole payloads. -/
theorem delivered_iff_drained {c : Conf} {s s' : Session} {d : Dir}
    (h : Reach Session.step KeepsConnectionAndPasses (Session.init c) s) (ho : s.hasClosed = false)
    (hst : s.step (.read d .eof) = some s') :
    (s.way d).accepted = (s.way d).received ↔ s.Drained d := by
  have hp : IntactAndCounted s := h.inv (IntactAndCounted.init c) fun _ _ _ hs hG he =>
    hs.step (fun _ => hG) (rule_of_step he)
  have hrelay : (s.way d).relay.writer = none := by
    cases rule_of_step hst with
    | readEof hpc => rcases hpc with hpc | hpc <;> rw [hpc] <;> rfl
  rw [hp.received_eq ho hrelay, Session.Drained]
  exact ⟨fun he => List.append_cancel_left (he.symm.trans (List.append_nil _).symm),
    fun he => by rw [he, List.append_nil]⟩

/-- The stream ends when the reader has written the passed packet, and has not taken it
    off the queue. -/
theorem delivered_written : ∃ s s' : Session, s.step (.read .req .eof) = some s' ∧
    (s.way .req).storedData ≠ [] ∧ (s.way .req).accepted = (s.way .req).received := by
  obtain ⟨s, hs, hp⟩ := exists_runIf Session.step KeepsConnectionAndPasses
    (Session.init (localConf true))
    (firstUp ++ [.read .req (.data [2]), .push (.relay .req) 6, .complete (.relay .req),
      .respond 1 (.pass 0 1), .pull 0 16, .complete (.reader 0), .push (.reader 0) 1])
    (fun s => (s.step (.read .req .eof)).isSome && !s.hasClosed &&
      decide ((s.way .req).storedData ≠ []) && decide (s.Drained .req)) (by decide +kernel)
  simp only [Bool.and_eq_true, Bool.not_eq_true', decide_eq_true_eq,
    Option.isSome_iff_exists] at hp
  obtain ⟨⟨⟨⟨s', hst⟩, ho⟩, hne⟩, hd⟩ := hp
  exact ⟨s, s', hst, hne, (delivered_iff_drained hs ho hst).2 hd⟩

/-- The process has passed the stored byte; the stream ends before its response is read,
    and the byte is lost. -/
theorem not_deliversAtEof : ¬ ∀ (c : Conf) (s : Session),
    Reach Session.step KeepsConnectionAndPasses (Session.init c) s → s.DeliversAtEof := by
  intro h
  obtain ⟨s, hs, hp⟩ := exists_runIf Session.step KeepsConnectionAndPasses
    (Session.init (localConf true))
    (firstUp ++ [.read .req (.data [2]), .push (.relay .req) 6, .complete (.relay .req),
      .respond 1 (.pass 0 1)])
    (fun s => (s.step (.read .req .eof)).isSome && !s.hasClosed &&
      (s.way .req).accepted == [1] && (s.way .req).received == [1, 2]) (by decide +kernel)
  simp only [Bool.and_eq_true, Bool.not_eq_true', beq_iff_eq, Option.isSome_iff_exists] at hp
  obtain ⟨⟨⟨⟨s', hst⟩, ho⟩, ha⟩, hr⟩ := hp
  have he := h _ s hs ho .req s' hst
  rw [ha, hr] at he
  cases he

end CppProxy
