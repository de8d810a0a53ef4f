/-
  cpp_proxy — the two byte streams.

  `Orderly` says when a step does not disturb the writes to a peer: no write to
  a peer starts beside another one, the direct path does not overtake stored
  packets, a queue that is being flushed does not grow, and the totals of the
  process cut the queue inside a packet.

  * `writer`: the coroutines of a session as the writers of a relayed stream;
  * `Streams`: in an open session both directions are relayed streams;
  * `streamsIntact_of_orderly`: in every orderly run each peer has accepted a
    prefix of what the other one sent.
-/
import CppProxy.Lib.Relay
import CppProxy.Shape
import CppProxy.Totals

namespace CppProxy

open Session Runs Relay

/-! ## The writers -/

/-- The writer to a peer that a relay is. -/
def RelayPc.writer : RelayPc → Option (Relay.Writer Byte (List Packet))
  | writeDirect w => some ⟨w.rest, some⟩
  | flush _ w => some ⟨w.rest, fun _ => some []⟩
  | _ => none

/-- The writer to the receiver of direction `d` that a reader is. -/
def ReaderPc.writer (d : Dir) : ReaderPc → Option (Relay.Writer Byte (List Packet))
  | release d' count next w =>
    if d' = d then some ⟨w.rest, fun stored => clearHandledPacket stored count next⟩ else none
  | flushServer _ w => if d = .req then some ⟨w.rest, fun _ => some []⟩ else none
  | flushClient _ w => if d = .res then some ⟨w.rest, fun _ => some []⟩ else none
  | _ => none

/-- The writer to the receiver of direction `d` that a coroutine is. -/
def Session.writer (s : Session) (d : Dir) : Tid → Option (Relay.Writer Byte (List Packet))
  | .relay d' => if d' = d then (s.way d).relay.writer else none
  | .reader i => (s.readers i).pc.writer d
  | _ => none

/-- A relay is in a write to its peer that is not done. -/
def RelayPc.Writing : RelayPc → Prop
  | writeDirect w => w.rest ≠ []
  | flush _ _ => True
  | _ => False

/-- A reader is in a write to the receiver of direction `d` that is not done. -/
def ReaderPc.Writing (d : Dir) : ReaderPc → Prop
  | release d' count next w => d' = d ∧ (w.rest ≠ [] ∨ count ≠ 0 ∨ next ≠ 0)
  | flushServer _ _ => d = .req
  | flushClient _ _ => d = .res
  | _ => False

/-- A reader that flushes the queue of direction `d`. -/
def ReaderPc.Flushing (d : Dir) : ReaderPc → Prop
  | flushServer _ _ => d = .req
  | flushClient _ _ => d = .res
  | _ => False

/-- A reader that handles no new data. -/
def ReaderPc.Plain : ReaderPc → Prop
  | readBody _ _ | writeNew _ _ _ _ => False
  | _ => True

instance : ∀ pc : RelayPc, Decidable pc.Writing
  | .writeDirect _ => inferInstanceAs (Decidable (_ ≠ _))
  | .flush _ _ => inferInstanceAs (Decidable True)
  | .notify _ | .readDirect _ | .readProcess _ | .writeProcess _ | .done =>
    inferInstanceAs (Decidable False)

instance (d : Dir) : ∀ pc : ReaderPc, Decidable (pc.Writing d)
  | .release _ _ _ _ => inferInstanceAs (Decidable (_ ∧ _))
  | .flushServer _ _ | .flushClient _ _ => inferInstanceAs (Decidable (_ = _))
  | .readHead _ | .readBody _ _ | .writeNew _ _ _ _ | .done => inferInstanceAs (Decidable False)

instance (d : Dir) : ∀ pc : ReaderPc, Decidable (pc.Flushing d)
  | .flushServer _ _ | .flushClient _ _ => inferInstanceAs (Decidable (_ = _))
  | .readHead _ | .readBody _ _ | .writeNew _ _ _ _ | .release _ _ _ _ | .done =>
    inferInstanceAs (Decidable False)

namespace Session

variable (s : Session)

/-- No write to the receiver of direction `d` is in progress. -/
def Free (d : Dir) : Prop :=
  ¬ (s.way d).relay.Writing ∧ ∀ i < s.nReaders, ¬ (s.readers i).pc.Writing d

/-- What is stored for direction `d` can be written. -/
def CanWrite (d : Dir) : Prop := (s.way d).storedData = [] ∨ s.Free d

/-- No reader flushes the queue of direction `d`. -/
def CanStore (d : Dir) : Prop := ∀ i < s.nReaders, ¬ (s.readers i).pc.Flushing d

/-- A head without new data, whose total cuts a queue that can be written. -/
def CanHandle (head : ResponseHead) : Prop :=
  head.newDataLen = 0 ∧ ∀ d : Dir, DataType.ofCode head.type = some d.dataType →
    head.act ≠ Action.block.code → s.CanWrite d ∧
      CutInside head.handledTotalPkgLen (s.way d).handledTotalPkgLen (s.way d).storedData

instance (d : Dir) : Decidable (s.Free d) := inferInstanceAs (Decidable (_ ∧ _))
instance (d : Dir) : Decidable (s.CanWrite d) := inferInstanceAs (Decidable (_ ∨ _))
instance (d : Dir) : Decidable (s.CanStore d) :=
  inferInstanceAs (Decidable (∀ i < s.nReaders, _))
instance (head : ResponseHead) : Decidable (s.CanHandle head) :=
  inferInstanceAs (Decidable (_ ∧ _))

/-- The relay of direction `d` reads `bytes`. -/
def OrderlyRead (d : Dir) (bytes : List Byte) : Prop :=
  match (s.way d).relay with
  | .readDirect _ => bytes = [] ∨ s.Free d ∧ (s.way d).storedData = []
  | .readProcess _ => s.CanStore d
  | _ => True

/-- A write to the process fails in the relay of direction `d`. -/
def OrderlyRelayFail (d : Dir) : Prop :=
  match (s.way d).relay with
  | .writeProcess _ => s.CanWrite d
  | _ => True

/-- Reader `i` has completed a read, or the flush to the server. -/
def OrderlyReader (i : ℕ) : Prop :=
  match (s.readers i).pc with
  | .readHead r => s.CanHandle (ResponseHead.ofBytes r.got)
  | .flushServer _ _ => s.CanWrite .res
  | _ => True

/-- A read from the process fails in reader `i`. -/
def OrderlyReaderFail (i : ℕ) : Prop :=
  match (s.readers i).pc with
  | .readHead _ => s.CanWrite .req ∧ ((s.way .req).storedData = [] → s.CanWrite .res)
  | _ => True

instance (d : Dir) (bytes : List Byte) : Decidable (s.OrderlyRead d bytes) := by
  unfold OrderlyRead; split <;> infer_instance
instance (d : Dir) : Decidable (s.OrderlyRelayFail d) := by
  unfold OrderlyRelayFail; split <;> infer_instance
instance (i : ℕ) : Decidable (s.OrderlyReader i) := by
  unfold OrderlyReader; split <;> infer_instance
instance (i : ℕ) : Decidable (s.OrderlyReaderFail i) := by
  unfold OrderlyReaderFail; split <;> infer_instance

end Session

/-- The step does not disturb a stream of the open session `s`. -/
def Orderly (s : Session) : Event → Prop
  | .read d (.data bytes) => s.hasClosed = false → s.OrderlyRead d bytes
  | .fail (.relay d) => s.hasClosed = false → s.OrderlyRelayFail d
  | .complete (.reader i) => s.hasClosed = false → s.OrderlyReader i
  | .fail (.reader i) => s.hasClosed = false → s.OrderlyReaderFail i
  | _ => True

instance (s : Session) : ∀ e, Decidable (Orderly s e)
  | .read _ (.data _) | .fail (.relay _) | .complete (.reader _) | .fail (.reader _) =>
    inferInstanceAs (Decidable (_ → _))
  | .read _ .eof | .read _ .error | .fail (.connector _) | .fail (.detector _)
  | .complete (.relay _) | .complete (.connector _) | .complete (.detector _)
  | .push _ _ | .pull _ _ | .issue _ | .connect _ | .expire _ | .respond _ _ =>
    inferInstanceAs (Decidable True)

/-- Each peer has accepted a prefix of what the other one sent. -/
def Session.StreamsIntact (s : Session) : Prop :=
  ∀ d, (s.way d).accepted <+: (s.way d).received

/-! ## The invariant -/

/-- The counter of direction `d` is assigned. -/
def Session.setHandled (s : Session) (d : Dir) (n : UInt64) : Session :=
  s.setWay d { s.way d with handledTotalPkgLen := n }

/-- The packets of a queue lie in their blocks and hold `bytes`. -/
def Holds (stored : List Packet) (bytes : List Byte) : Prop :=
  (∀ p ∈ stored, p.Ok) ∧ storedBytes stored = bytes

/-- A direction of a session is a relayed stream. -/
def Session.Stream (s : Session) (d : Dir) : Prop :=
  Flow Holds (s.way d).received (s.way d).accepted (s.way d).storedData (s.writer d)

/-- While the session is open, both directions are relayed streams and no reader writes
    new data. -/
structure Streams (s : Session) : Prop where
  intact : s.StreamsIntact
  plain : s.hasClosed = false → ∀ i, (s.readers i).pc.Plain
  stream : s.hasClosed = false → ∀ d, s.Stream d

/-- A relay that is not writing does nothing as a writer. -/
theorem RelayPc.idle_of_not_writing {pc : RelayPc} (h : ¬ pc.Writing) :
    ∀ u, pc.writer = some u → u.Idle := by
  intro u hu
  cases pc with
  | writeDirect w => cases hu; exact ⟨not_not.1 h, fun _ => rfl⟩
  | flush => exact absurd trivial h
  | _ => cases hu

theorem ReaderPc.idle_of_not_writing {d : Dir} {pc : ReaderPc} (h : ¬ pc.Writing d) :
    ∀ u, pc.writer d = some u → u.Idle := by
  intro u hu
  cases pc with
  | release d' count next w =>
    simp only [writer] at hu
    split at hu
    · rename_i hd
      cases hu
      simp only [Writing, hd, true_and, not_or, not_not] at h
      obtain ⟨hr, rfl, rfl⟩ := h
      exact ⟨hr, fun q => by simp [clearHandledPacket]⟩
    · cases hu
  | flushServer => simp only [writer] at hu; split at hu <;> [exact absurd ‹_› h; cases hu]
  | flushClient => simp only [writer] at hu; split at hu <;> [exact absurd ‹_› h; cases hu]
  | _ => cases hu

theorem Session.Free.idle {s : Session} {d : Dir} (h : s.Free d) (hs : Shape s) :
    ∀ t u, s.writer d t = some u → u.Idle := by
  intro t u hu
  cases t with
  | relay d' =>
    simp only [Session.writer] at hu
    split at hu
    · exact RelayPc.idle_of_not_writing h.1 u hu
    · cases hu
  | reader i =>
    by_cases hi : i < s.nReaders
    · exact ReaderPc.idle_of_not_writing (h.2 i hi) u hu
    · simp [Session.writer, hs.readers i (by omega), ReaderPc.writer] at hu
  | connector => cases hu
  | detector => cases hu

/-- A relay is done with the queue `stored`: it has written everything and made
    its change, or does not write. -/
def RelayPc.Over (stored : List Packet) (pc : RelayPc) : Prop :=
  ∀ u, pc.writer = some u → u.rest = [] ∧ u.clear stored = some stored

/-- A reader is done with the queue `stored` of direction `d`. -/
def ReaderPc.Over (d : Dir) (stored : List Packet) (pc : ReaderPc) : Prop :=
  ∀ u, pc.writer d = some u → u.rest = [] ∧ u.clear stored = some stored

theorem RelayPc.over_of_none {stored : List Packet} {pc : RelayPc} (h : pc.writer = none) :
    pc.Over stored := by
  intro u hu; rw [h] at hu; cases hu

theorem ReaderPc.over_of_none {d : Dir} {stored : List Packet} {pc : ReaderPc}
    (h : pc.writer d = none) : pc.Over d stored := by
  intro u hu; rw [h] at hu; cases hu

section

variable {s s' : Session} {d : Dir}

theorem writer_of_readers (hr : s'.readers = s.readers) {t : Tid} (ht : t ≠ .relay d) :
    s'.writer d t = s.writer d t := by
  cases t with
  | relay d' =>
    have : d' ≠ d := by rintro rfl; exact ht rfl
    simp [Session.writer, this]
  | reader i => simp [Session.writer, hr]
  | connector => rfl
  | detector => rfl

theorem writer_of_relay {x : Session} {i : ℕ} (hw : (x.way d).relay = (s.way d).relay)
    (hr : ∀ i', i' ≠ i → x.readers i' = s.readers i') {t : Tid} (ht : t ≠ .reader i) :
    x.writer d t = s.writer d t := by
  cases t with
  | relay d' => simp [Session.writer, hw]
  | reader i' =>
    have : i' ≠ i := by rintro rfl; exact ht rfl
    simp [Session.writer, hr i' this]
  | connector => rfl
  | detector => rfl

theorem Session.Stream.congr (h : s.Stream d) (hR : (s'.way d).received = (s.way d).received)
    (hA : (s'.way d).accepted = (s.way d).accepted)
    (hS : (s'.way d).storedData = (s.way d).storedData)
    (hp : (s'.way d).relay = (s.way d).relay) (hr : s'.readers = s.readers) : s'.Stream d := by
  have hw : s'.writer d = s.writer d := by
    ext t
    cases t <;> simp [Session.writer, hp, hr]
  unfold Session.Stream at h ⊢
  rwa [hR, hA, hS, hw]

/-- The relay is done, and goes on without writing. -/
theorem Session.Stream.relay_over (h : s.Stream d)
    (hR : (s'.way d).received = (s.way d).received)
    (hA : (s'.way d).accepted = (s.way d).accepted)
    (hS : (s'.way d).storedData = (s.way d).storedData) (hr : s'.readers = s.readers)
    (ho : (s.way d).relay.Over (s.way d).storedData) (hn : ¬ (s'.way d).relay.Writing) :
    s'.Stream d := by
  unfold Session.Stream at h ⊢
  rw [hR, hA, hS]
  refine h.finish (i := .relay d) ?_ (fun t ht => writer_of_readers hr ht) ?_
  · cases hw : (s.way d).relay.writer with
    | none => exact .inl ⟨by simp [Session.writer, hw], rfl⟩
    | some u => exact .inr ⟨u, by simp [Session.writer, hw], ho u hw⟩
  · intro u hu
    exact RelayPc.idle_of_not_writing hn u (by simpa [Session.writer] using hu)

/-- A reader is done, and goes on without writing. -/
theorem Session.Stream.reader_over (h : s.Stream d) {i : ℕ} {pc : ReaderPc}
    (ho : (s.readers i).pc.Over d (s.way d).storedData) (hn : ¬ pc.Writing d) :
    (s.setReader i pc).Stream d := by
  refine h.finish (i := .reader i) ?_
    (fun t ht => writer_of_relay (s := s) (x := s.setReader i pc) rfl (fun i' hi => by simp [hi]) ht) ?_
  · cases hw : (s.readers i).pc.writer d with
    | none => exact .inl ⟨hw, rfl⟩
    | some u => exact .inr ⟨u, hw, ho u hw⟩
  · intro u hu
    exact ReaderPc.idle_of_not_writing hn u (by simpa [Session.writer] using hu)

/-- With no write in progress, the relay flushes the queue. -/
theorem Session.Stream.relay_flush (h : s.Stream d) (hs : Shape s) (hf : s.Free d) {g : ℕ}
    {w : PeerWrite} (hw : w.rest = storedBytes (s.way d).storedData)
    (hR : (s'.way d).received = (s.way d).received)
    (hA : (s'.way d).accepted = (s.way d).accepted)
    (hS : (s'.way d).storedData = (s.way d).storedData)
    (hp : (s'.way d).relay = .flush g w) (hr : s'.readers = s.readers) : s'.Stream d := by
  unfold Session.Stream at h ⊢
  rw [hR, hA, hS, ← List.append_nil (s.way d).received]
  refine h.start (i := .relay d) (hf.idle hs) (fun t ht => writer_of_readers hr ht) ?_
  rintro l ⟨-, rfl⟩
  exact ⟨_, [], [], by simp [Session.writer, hp, RelayPc.writer]; rfl, rfl, ⟨by simp, rfl⟩, by simp [hw]⟩

/-- With no write in progress, a reader starts to write what is at the front of
    the queue. -/
theorem Session.Stream.reader_start (h : s.Stream d) (hs : Shape s) (hf : s.Free d) {i : ℕ}
    {pc : ReaderPc} {u : Relay.Writer Byte (List Packet)} (hu : pc.writer d = some u)
    (hnew : ∀ l, Holds (s.way d).storedData l → ∃ kept l', u.clear (s.way d).storedData = some kept ∧
      Holds kept l' ∧ l = u.rest ++ l') : (s.setReader i pc).Stream d := by
  have := Flow.start (m := []) (i := Tid.reader i) (x := (s.setReader i pc).writer d) h
    (hf.idle hs)
    (fun t ht => writer_of_relay (s := s) (x := s.setReader i pc) rfl (fun i' hi => by simp [hi]) ht)
    fun l hl => by
      obtain ⟨kept, l', hc, hl', rfl⟩ := hnew l hl
      exact ⟨u, kept, l', by simp [Session.writer, hu], hc, hl', by simp⟩
  rwa [List.append_nil] at this

end

theorem RelayPc.writer_setPeerWrite (pc : RelayPc) (w : PeerWrite) :
    (pc.setPeerWrite w).writer = pc.writer.map fun u => { u with rest := w.rest } := by
  cases pc <;> rfl

theorem ReaderPc.writer_setPeerWrite (d : Dir) (pc : ReaderPc) (w : PeerWrite) :
    (pc.setPeerWrite w).writer d = (pc.writer d).map fun u => { u with rest := w.rest } := by
  cases pc <;> simp only [setPeerWrite, writer] <;> first | rfl | (split <;> rfl)

theorem RelayPc.writer_of_peerWrite {pc : RelayPc} {w : PeerWrite} (h : pc.peerWrite = some w) :
    ∃ u, pc.writer = some u ∧ u.rest = w.rest := by
  cases pc <;> cases h <;> exact ⟨_, rfl, rfl⟩

theorem ReaderPc.writer_of_peerWrite {pc : ReaderPc} {d : Dir} {w : PeerWrite} (hp : pc.Plain)
    (h : pc.peerWrite = some (d, w)) :
    (∃ u, pc.writer d = some u ∧ u.rest = w.rest) ∧ ∀ d', d' ≠ d → pc.writer d' = none := by
  cases pc <;> cases h
  · exact hp.elim
  · exact ⟨⟨_, if_pos rfl, rfl⟩, fun d' hd => if_neg hd.symm⟩
  · exact ⟨⟨⟨w.rest, fun _ => some []⟩, by simp [writer], rfl⟩, fun d' hd => if_neg hd⟩
  · exact ⟨⟨⟨w.rest, fun _ => some []⟩, by simp [writer], rfl⟩, fun d' hd => if_neg hd⟩

theorem clearHandledPacket_append {stored kept : List Packet} {count : ℕ} {next : Int32}
    (h : clearHandledPacket stored count next = some kept) (appended : List Packet) :
    clearHandledPacket (stored ++ appended) count next = some (kept ++ appended) := by
  obtain ⟨hle, hkept⟩ := clearHandledPacket_eq_some.1 h
  have hdrop : (stored ++ appended).drop count = stored.drop count ++ appended :=
    List.drop_append_of_le_length hle
  rw [clearHandledPacket_eq_some, hdrop, List.length_append]
  refine ⟨by omega, ?_⟩
  rcases hkept with ⟨h0, rfl⟩ | ⟨pkg, rest, h0, hd, rfl⟩
  · exact .inl ⟨h0, rfl⟩
  · rw [hd]
    exact .inr ⟨pkg, rest ++ appended, h0, rfl, rfl⟩

theorem Holds.append {stored : List Packet} {bytes data : List Byte} (h : Holds stored bytes)
    (hd : data.length < 2 ^ 32) : Holds (stored ++ [Packet.ofData data]) (bytes ++ data) := by
  obtain ⟨hok, rfl⟩ := h
  refine ⟨fun p hp => ?_, ?_⟩
  · rcases List.mem_append.1 hp with hp | hp
    · exact hok p hp
    · rw [List.mem_singleton.1 hp]; exact Packet.ofData_ok hd
  · simp [storedBytes, Packet.ofData_bytes hd]

namespace Streams

variable {s s' : Session}

/-! ## The functions -/

theorem closed (hc : s'.hasClosed = true) (hi : s'.StreamsIntact) : Streams s' where
  intact := hi
  plain h := by rw [hc] at h; cases h
  stream h := by rw [hc] at h; cases h

theorem congr (h : Streams s) (hR : ∀ d, (s'.way d).received = (s.way d).received)
    (hA : ∀ d, (s'.way d).accepted = (s.way d).accepted)
    (hS : ∀ d, (s'.way d).storedData = (s.way d).storedData)
    (hp : ∀ d, (s'.way d).relay = (s.way d).relay) (hr : s'.readers = s.readers)
    (hc : s'.hasClosed = s.hasClosed) : Streams s' where
  intact d := by rw [hR, hA]; exact h.intact d
  plain ho := by rw [hr]; exact h.plain (hc ▸ ho)
  stream ho d := (h.stream (hc ▸ ho) d).congr (hR d) (hA d) (hS d) (hp d) hr

/-- Nothing that `Streams` reads changes. -/
theorem same {x : Session} (h : Streams s) (hw : x.way = s.way) (hr : x.readers = s.readers)
    (hc : x.hasClosed = s.hasClosed) : Streams x :=
  h.congr (fun _ => by rw [hw]) (fun _ => by rw [hw]) (fun _ => by rw [hw]) (fun _ => by rw [hw])
    hr hc

theorem emit (h : Streams s) (a : Act) : Streams (s.emit a) := h.same rfl rfl rfl

theorem bypass (h : Streams s) (b : Bool) : Streams { s with bypass := b } := h.same rfl rfl rfl

theorem cancelTimer (h : Streams s) : Streams s.cancelTimer := h.same rfl rfl rfl

theorem graceClose (h : Streams s) : Streams s.graceClose :=
  closed (graceClose_hasClosed s)
    (graceClose_ind (P := Session.StreamsIntact) (fun _ => h.intact) fun _ => h.intact)

/-- The relay of a direction is done, and goes on without writing. -/
theorem setRelay (h : Streams s) (d : Dir) {w : Way} (hR : w.received = (s.way d).received)
    (hA : w.accepted = (s.way d).accepted) (hS : w.storedData = (s.way d).storedData)
    (ho : s.hasClosed = false →
      (s.way d).relay.Over (s.way d).storedData ∧ ¬ w.relay.Writing) :
    Streams (s.setWay d w) where
  intact d' := by
    by_cases hd : d' = d
    · subst hd; simpa [hR, hA] using h.intact d'
    · simpa [hd] using h.intact d'
  plain := h.plain
  stream hc d' := by
    by_cases hd : d' = d
    · subst hd
      exact (h.stream hc d').relay_over (by simp [hR]) (by simp [hA]) (by simp [hS]) rfl
        (ho hc).1 (by simpa using (ho hc).2)
    · refine (h.stream hc d').congr ?_ ?_ ?_ ?_ rfl <;> simp [hd]

theorem setReader (h : Streams s) {i : ℕ} {pc : ReaderPc}
    (ho : s.hasClosed = false → pc.Plain ∧ ∀ d,
      (s.readers i).pc.Over d (s.way d).storedData ∧ ¬ pc.Writing d) :
    Streams (s.setReader i pc) where
  intact := h.intact
  plain hc i' := by
    by_cases hi : i' = i
    · subst hi; simpa using (ho hc).1
    · simpa [hi] using h.plain hc i'
  stream hc d := (h.stream hc d).reader_over ((ho hc).2 d).1 ((ho hc).2 d).2

theorem graceClose_setRelay (h : Streams s) (d : Dir) (pc : RelayPc) :
    Streams (s.graceClose.setRelay d pc) :=
  h.graceClose.setRelay d rfl rfl rfl fun hc => by rw [graceClose_hasClosed] at hc; cases hc

theorem graceClose_setReader (h : Streams s) (i : ℕ) (pc : ReaderPc) :
    Streams (s.graceClose.setReader i pc) :=
  h.graceClose.setReader fun hc => by rw [graceClose_hasClosed] at hc; cases hc

theorem connectProcess (h : Streams s) (gen : ℕ) : Streams (s.connectProcess gen) :=
  connectProcess_ind (fun _ => h) fun _ =>
    h.congr (fun _ => rfl) (fun _ => rfl) (fun _ => rfl) (fun _ => rfl) rfl rfl

/-- What `connect_process` does not change. -/
theorem connectProcess_frame (s : Session) (gen : ℕ) :
    (s.connectProcess gen).readers = s.readers ∧ ∀ d,
      ((s.connectProcess gen).way d).relay = (s.way d).relay ∧
        ((s.connectProcess gen).way d).storedData = (s.way d).storedData :=
  connectProcess_ind (P := fun s' => s'.readers = s.readers ∧ ∀ d,
      (s'.way d).relay = (s.way d).relay ∧ (s'.way d).storedData = (s.way d).storedData)
    (fun _ => ⟨rfl, fun _ => ⟨rfl, rfl⟩⟩) fun _ => ⟨rfl, fun _ => ⟨rfl, rfl⟩⟩

theorem relayLoop (h : Streams s) {d : Dir}
    (ho : s.hasClosed = false → (s.way d).relay.Over (s.way d).storedData) :
    Streams (s.relayLoop d) :=
  relayLoop_ind (fun _ => h.graceClose_setRelay d _)
    (fun _ _ => h.setRelay d rfl rfl rfl fun hc => ⟨ho hc, fun h => h⟩)
    (fun _ _ _ _ => h.setRelay d rfl rfl rfl fun hc => ⟨ho hc, fun h => h⟩)
    fun _ _ _ => h.setRelay d rfl rfl rfl fun hc => ⟨ho hc, fun h => h⟩

theorem relayReconnect (h : Streams s) {d : Dir} (gen : ℕ)
    (ho : s.hasClosed = false → (s.way d).relay.Over (s.way d).storedData) :
    Streams (s.relayReconnect d gen) := by
  obtain ⟨-, hw⟩ := connectProcess_frame s gen
  refine (h.connectProcess gen).relayLoop fun hc => ?_
  rw [(hw d).1, (hw d).2]
  exact ho (connectProcess_ind (P := fun s' => s'.hasClosed = false → s.hasClosed = false)
    (fun _ => id) (fun _ => id) hc)

theorem readerReconnect (h : Streams s) {i : ℕ} (gen : ℕ)
    (ho : s.hasClosed = false → ∀ d, (s.readers i).pc.Over d (s.way d).storedData) :
    Streams (s.readerReconnect i gen) := by
  obtain ⟨hr, hw⟩ := connectProcess_frame s gen
  refine (h.connectProcess gen).setReader fun hc => ⟨trivial, fun d => ⟨?_, fun h => h⟩⟩
  rw [hr, (hw d).2]
  exact ho (connectProcess_ind (P := fun s' => s'.hasClosed = false → s.hasClosed = false)
    (fun _ => id) (fun _ => id) hc) d

/-- The session with another counter, which no stream depends on. -/
theorem setHandled (h : Streams s) (d : Dir) (n : UInt64) : Streams (s.setHandled d n) := by
  refine h.congr ?_ ?_ ?_ ?_ rfl rfl <;>
    · intro d'
      by_cases hd : d' = d <;> simp [Session.setHandled, hd]

@[simp] theorem setHandled_stored (s : Session) (d d' : Dir) (n : UInt64) :
    ((s.setHandled d n).way d').storedData = (s.way d').storedData := by
  by_cases hd : d' = d <;> simp [Session.setHandled, hd]

theorem setHandled_free {d d' : Dir} {n : UInt64} : (s.setHandled d n).Free d' ↔ s.Free d' := by
  have : ((s.setHandled d n).way d').relay = (s.way d').relay := by
    by_cases hd : d' = d <;> simp [Session.setHandled, hd]
  unfold Free
  rw [this]
  rfl

/-- What may be stored is written, or there is nothing stored. -/
theorem canWrite_free {d : Dir} (h : s.CanWrite d) (hne : (s.way d).storedData ≠ []) : s.Free d :=
  h.resolve_left hne

/-- The relay of direction `d` flushes its queue. -/
theorem setRelay_flush (h : Streams s) (hs : Shape s) (d : Dir) (gen : ℕ)
    (hf : s.hasClosed = false → s.Free d) :
    Streams (s.setRelay d (.flush gen (s.asyncWrite d (storedBytes (s.way d).storedData)))) where
  intact d' := by
    by_cases hd : d' = d
    · subst hd; simpa using h.intact d'
    · simpa [hd] using h.intact d'
  plain := h.plain
  stream hc d' := by
    by_cases hd : d' = d
    · subst hd
      exact (h.stream hc d').relay_flush hs (hf hc) (g := gen)
        (w := s.asyncWrite d' (storedBytes (s.way d').storedData)) rfl (by simp) (by simp)
        (by simp) (by simp) rfl
    · refine (h.stream hc d').congr ?_ ?_ ?_ ?_ rfl <;> simp [hd]

theorem relayFlush (h : Streams s) (hs : Shape s) {d : Dir} (gen : ℕ)
    (ho : s.hasClosed = false → (s.way d).relay.writer = none ∧ s.CanWrite d) :
    Streams (s.relayFlush d gen) :=
  relayFlush_ind
    (fun _ => (h.bypass true).relayReconnect gen fun hc => RelayPc.over_of_none (ho hc).1)
    fun hne => ((h.bypass true).emit _).setRelay_flush ((hs.bypass true).emit _) d gen
      fun hc => canWrite_free (ho hc).2 hne

/-- A reader flushes the queue of direction `d`. -/
theorem setReader_flush (h : Streams s) (hs : Shape s) {i : ℕ} {d : Dir} {pc : ReaderPc}
    (hu : pc.writer d = some ⟨storedBytes (s.way d).storedData, fun _ => some []⟩)
    (hp : pc.Plain) (hn : ∀ d', d' ≠ d → ¬ pc.Writing d')
    (ho : s.hasClosed = false →
      (∀ d, (s.readers i).pc.Over d (s.way d).storedData) ∧ s.Free d) :
    Streams (s.setReader i pc) where
  intact := h.intact
  plain hc i' := by
    by_cases hi : i' = i
    · subst hi; simpa using hp
    · simpa [hi] using h.plain hc i'
  stream hc d' := by
    by_cases hd : d' = d
    · subst hd
      refine (h.stream hc d').reader_start hs (ho hc).2 hu ?_
      rintro l ⟨-, rfl⟩
      exact ⟨[], [], rfl, ⟨by simp, rfl⟩, by simp⟩
    · exact (h.stream hc d').reader_over ((ho hc).1 d') (hn d' hd)

theorem readerFlushClient (h : Streams s) (hs : Shape s) {i : ℕ} (gen : ℕ)
    (ho : s.hasClosed = false →
      (∀ d, (s.readers i).pc.Over d (s.way d).storedData) ∧ s.CanWrite .res) :
    Streams (s.readerFlushClient i gen) :=
  readerFlushClient_ind
    (fun _ => (h.bypass true).readerReconnect gen fun hc => (ho hc).1)
    fun hne => ((h.bypass true).emit _).setReader_flush (d := .res)
      (((hs.bypass true).emit _)) (by simp [ReaderPc.writer, asyncWrite]) trivial
      (fun d' hd => hd) fun hc => ⟨(ho hc).1, canWrite_free (ho hc).2 hne⟩

theorem readerFlushServer (h : Streams s) (hs : Shape s) {i : ℕ} (gen : ℕ)
    (ho : s.hasClosed = false → (∀ d, (s.readers i).pc.Over d (s.way d).storedData) ∧
      s.CanWrite .req ∧ ((s.way .req).storedData = [] → s.CanWrite .res)) :
    Streams (s.readerFlushServer i gen) :=
  readerFlushServer_ind
    (fun he => (h.bypass true).readerFlushClient (hs.bypass true) gen
      fun hc => ⟨(ho hc).1, (ho hc).2.2 he⟩)
    fun hne => ((h.bypass true).emit _).setReader_flush (d := .req)
      (((hs.bypass true).emit _)) (by simp [ReaderPc.writer, asyncWrite]) trivial
      (fun d' hd => hd) fun hc => ⟨(ho hc).1, canWrite_free (ho hc).2.1 hne⟩

/-- A coroutine has flushed the queue of direction `d`. -/
theorem clearFlushed (h : Streams s) {d : Dir} {w : PeerWrite} {t : Tid}
    {u : Relay.Writer Byte (List Packet)} (ht : s.writer d t = some u)
    (hu : ∀ stored, u.clear stored = some []) : Streams (s.clearFlushed d w) := by
  refine ⟨fun d' => ?_, h.plain, fun hc d' => ?_⟩
  · by_cases hd : d' = d
    · subst hd; simpa [Session.clearFlushed, setStored] using h.intact d'
    · simpa [Session.clearFlushed, setStored, hd] using h.intact d'
  · by_cases hd : d' = d
    · subst hd
      have := Flow.cleared (h.stream hc d') ht (hu _) (hu _)
      have hw : (s.clearFlushed d' w).writer d' = s.writer d' := by
        ext t
        cases t with
        | relay d'' => simp [Session.writer, Session.clearFlushed, setStored]
        | _ => rfl
      unfold Session.Stream
      rw [hw]
      simpa [Session.clearFlushed, setStored] using this
    · refine (h.stream hc d').congr ?_ ?_ ?_ ?_ rfl <;>
        simp [Session.clearFlushed, setStored, hd]

theorem breakLink (h : Streams s) (w : LinkWrite) : Streams (s.breakLink w) :=
  breakLink_ind (fun _ => h.same rfl rfl rfl) fun _ => h

theorem noteRead (h : Streams s) (i : ℕ) : Streams (s.noteRead i) :=
  noteRead_ind (fun _ => h.same rfl rfl rfl) fun _ => h

theorem readHead (h : Streams s) {i : ℕ}
    (ho : s.hasClosed = false → ∀ d, (s.readers i).pc.Over d (s.way d).storedData) :
    Streams (s.readHead i) := by
  refine (h.noteRead i).setReader fun hc => ⟨trivial, fun d => ⟨?_, fun h => h⟩⟩
  simp only [noteRead_readers, noteRead_way]
  exact ho (by simpa using hc) d

/-- A reader starts to release the packets that a total covers. -/
theorem actOnHead (h : Streams s) (hs : Shape s) {i : ℕ} {d : Dir} (conn : ℕ)
    {head : ResponseHead} (ho : s.hasClosed = false →
      (∀ d, (s.readers i).pc.writer d = none) ∧ (head.act ≠ Action.block.code →
        s.CanWrite d ∧ CutInside head.handledTotalPkgLen (s.way d).handledTotalPkgLen
          (s.way d).storedData)) : Streams (s.actOnHead i d conn head) := by
  refine actOnHead_ind (fun _ => h.graceClose_setReader i _) fun hb => ?_
  generalize hr : prepareTransferPacket head (s.way d).storedData (s.way d).handledTotalPkgLen = r
  refine Streams.same (s := (s.setHandled d r.handledTotalPkgLen).setReader i
    (.release d r.handledPkgCount r.nextPkgUsedSize (s.asyncWrite d r.bytes)))
    ⟨(h.setHandled d _).intact, fun hc i' => ?_, fun hc d' => ?_⟩ rfl rfl rfl
  · by_cases hi : i' = i
    · subst hi; simp [ReaderPc.Plain]
    · rw [setReader_readers, Function.update_of_ne hi]
      exact h.plain hc i'
  · have hst := (h.setHandled d r.handledTotalPkgLen).stream hc d'
    have hover : ∀ stored, (s.readers i).pc.Over d' stored := fun _ =>
      ReaderPc.over_of_none ((ho hc).1 d')
    by_cases hd : d' = d
    · subst hd
      obtain ⟨hcan, hcut⟩ := (ho hc).2 hb
      rcases hcan with he | hf
      · -- there is nothing to release
        rw [he] at hr; subst hr
        exact hst.reader_over (hover _) (by simp [ReaderPc.Writing, prepareTransferPacket,
          asyncWrite, Prepared.bytes])
      · obtain ⟨kept, hk⟩ := transfer_split head hcut
        rw [hr] at hk
        refine hst.reader_start (hs.setWay d' _) (setHandled_free.2 hf) (by simp [ReaderPc.writer]; rfl) ?_
        simp only [setHandled_stored]
        rintro l ⟨hok, rfl⟩
        exact ⟨kept, storedBytes kept, by simpa using hk.cleared [], ⟨hk.ok hok, rfl⟩,
          (hk.bytes hok).symm⟩
    · exact hst.reader_over (hover _) fun hw => hd hw.1.symm

theorem dispatch (h : Streams s) (hs : Shape s) {i : ℕ} (conn : ℕ) {head : ResponseHead}
    (buf : List Byte) (ho : s.hasClosed = false →
      (∀ d, (s.readers i).pc.writer d = none) ∧ s.CanHandle head) :
    Streams (s.dispatch i conn head buf) := by
  have hover : s.hasClosed = false → ∀ d, (s.readers i).pc.Over d (s.way d).storedData :=
    fun hc d => ReaderPc.over_of_none ((ho hc).1 d)
  refine dispatch_ind (fun d hd => innerProxy_ind (fun hn => ?_) fun _ => ?_)
    ((h.emit _).cancelTimer.readHead hover)
    ((h.emit _).readHead hover)
  · exact ((h.emit _).emit _).setReader fun hc => absurd (ho hc).2.1 hn
  · exact (h.emit _).actOnHead (hs.emit _) conn fun hc => ⟨(ho hc).1, (ho hc).2.2 d hd⟩

/-! ## The steps -/

theorem init (c : Conf) : Streams (Session.init c) := by
  have h₀ : Streams { connBufSize := c.connBufSize, responseBypass := c.responseBypass,
                      fourTuple := c.fourTuple } :=
    { intact := fun _ => List.prefix_rfl
      plain := fun _ _ => trivial
      stream := fun _ d => ⟨by intro i; cases i <;> simp [Session.writer, RelayPc.writer,
        ReaderPc.writer], fun _ => ⟨[], ⟨by simp, rfl⟩, rfl⟩, by intro i; cases i <;> simp [
        Session.writer, RelayPc.writer, ReaderPc.writer]⟩ }
  have h₁ := (h₀.connectProcess 0).relayLoop (d := .req) fun _ => RelayPc.over_of_none ?_
  have h₂ := h₁.relayLoop (d := .res) fun _ => RelayPc.over_of_none ?_
  · exact h₂
  · rfl
  · rfl

/-- The relay writes what it has read to the peer. -/
theorem writeDirect (h : Streams s) (hs : Shape s) {d : Dir} {live : Bool} {bytes : List Byte}
    (hpc : (s.way d).relay = .readDirect live)
    (hC : s.hasClosed = false → bytes = [] ∨ s.Free d ∧ (s.way d).storedData = []) :
    Streams (s.writeDirect d bytes) := by
  rw [writeDirect_eq]
  refine ⟨fun d' => ?_, h.plain, fun hc d' => ?_⟩
  · by_cases hd : d' = d
    · subst hd; simpa using (h.intact d').trans (List.prefix_append _ bytes)
    · simpa [hd] using h.intact d'
  · by_cases hd : d' = d
    · subst hd
      have hst := h.stream hc d'
      rcases hC hc with rfl | ⟨hf, he⟩
      · exact hst.relay_over (by simp) (by simp) (by simp) rfl
          (RelayPc.over_of_none (by rw [hpc]; rfl)) (by simp [RelayPc.Writing, asyncWrite])
      · unfold Session.Stream at hst ⊢
        simp only [Function.update_self]
        refine hst.start (i := .relay d') (hf.idle hs)
          (fun t ht => writer_of_readers (by rfl) ht) ?_
        rintro l ⟨-, rfl⟩
        refine ⟨⟨bytes, some⟩, [], [], by simp [Session.writer, RelayPc.writer, asyncWrite],
          by rw [he], ⟨by simp, rfl⟩, by simp [he, storedBytes]⟩
    · refine (h.stream hc d').congr ?_ ?_ ?_ ?_ rfl <;> simp [hd]

/-- The relay stores what it has read. -/
theorem writeProcess (h : Streams s) (hs : Shape s) {d : Dir} {live : Bool} {bytes : List Byte}
    (hpc : (s.way d).relay = .readProcess live) (hb : bytes.length < 2 ^ 32)
    (hC : s.hasClosed = false → s.CanStore d) : Streams (s.writeProcess d bytes) := by
  rw [writeProcess_eq]
  refine ⟨fun d' => ?_, h.plain, fun hc d' => ?_⟩
  · by_cases hd : d' = d
    · subst hd; simpa using (h.intact d').trans (List.prefix_append _ bytes)
    · simpa [hd] using h.intact d'
  · by_cases hd : d' = d
    · subst hd
      have hst := h.stream hc d'
      have happ := Flow.append (m := bytes) (b := (s.way d').storedData ++
        [Packet.ofData bytes]) hst (fun l hl => hl.append hb) ?_
      · unfold Session.Stream
        simp only [Function.update_self]
        refine happ.finish (i := .relay d') (.inl ⟨?_, rfl⟩)
          (fun t ht => writer_of_readers (by rfl) ht) ?_
        · simp [Session.writer, hpc, RelayPc.writer]
        · simp [Session.writer, RelayPc.writer]
      · -- the only writers here are releases: they leave the new packet in the queue
        intro t u kept hu hn hk
        refine ⟨kept ++ [Packet.ofData bytes], ?_, fun l hl => hl.append hb⟩
        cases t with
        | relay d'' =>
          simp only [Session.writer, hpc, RelayPc.writer] at hu
          split at hu <;> cases hu
        | reader i =>
          have hi : i < s.nReaders := hs.reader_lt fun hd => by
            simp [Session.writer, hd, ReaderPc.writer] at hu
          have hfl := hC hc i hi
          simp only [Session.writer] at hu
          cases hp : (s.readers i).pc with
          | release d'' count next w =>
            rw [hp] at hu
            simp only [ReaderPc.writer] at hu
            split at hu
            · cases hu; exact clearHandledPacket_append hk _
            · cases hu
          | flushServer =>
            rw [hp] at hu hfl
            simp only [ReaderPc.writer] at hu
            split at hu
            · exact absurd ‹_› hfl
            · cases hu
          | flushClient =>
            rw [hp] at hu hfl
            simp only [ReaderPc.writer] at hu
            split at hu
            · exact absurd ‹_› hfl
            · cases hu
          | _ => rw [hp] at hu; cases hu
        | connector => cases hu
        | detector => cases hu
    · refine (h.stream hc d').congr ?_ ?_ ?_ ?_ rfl <;> simp [hd]

theorem setLinkWrite (h : Streams s) (w : LinkWrite) {v : LinkWrite} {t : Tid}
    (ht : s.linkWrite t = some v) : Streams (s.setLinkWrite w t) := by
  cases t with
  | relay d =>
    refine h.setRelay d rfl rfl rfl fun _ => ?_
    simp only [linkWrite] at ht
    cases hpc : (s.way d).relay <;> rw [hpc] at ht <;> cases ht <;>
      exact ⟨RelayPc.over_of_none rfl, id⟩
  | connector j => exact h.same rfl rfl rfl
  | reader i => exact h
  | detector k => exact h

theorem setLinkRead (h : Streams s) {i : ℕ} (r : LinkRead) {v : LinkRead}
    (hr : s.linkRead i = some v) : Streams (s.setLinkRead i r) := by
  refine h.setReader fun hc => ?_
  have hp := h.plain hc i
  simp only [linkRead] at hr
  cases hpc : (s.readers i).pc with
  | readHead => exact ⟨trivial, fun d => ⟨ReaderPc.over_of_none rfl, id⟩⟩
  | readBody => rw [hpc] at hp; exact hp.elim
  | _ => rw [hpc] at hr; cases hr

/-- A reader has released packets, and reads the next response. -/
theorem clearReleased (h : Streams s) {i count : ℕ} {d : Dir} {next : Int32} {w : PeerWrite}
    (hpc : (s.readers i).pc = .release d count next w) (hw : w.rest = []) :
    Streams (s.clearReleased i d count next) := by
  have hu : s.writer d (.reader i) =
      some ⟨w.rest, fun stored => clearHandledPacket stored count next⟩ := by
    simp [Session.writer, hpc, ReaderPc.writer]
  refine clearReleased_ind (fun kept hk => ?_) fun hn => ?_
  · refine Streams.same (s := (s.setStored d kept).setReader i (.readHead
      ((s.setStored d kept).asyncReadProcess responseHeadLen))) ⟨?_, fun hc i' => ?_,
        fun hc d' => ?_⟩ (by simp [Session.readHead, Session.setReader])
          (by simp [Session.readHead]) (by simp [Session.readHead, Session.setReader])
    · intro d'
      by_cases hd : d' = d
      · subst hd; simpa [setStored, Session.setReader] using h.intact d'
      · simpa [setStored, Session.setReader, hd] using h.intact d'
    · by_cases hi : i' = i
      · subst hi; simp [ReaderPc.Plain]
      · rw [setReader_readers, Function.update_of_ne hi]
        exact h.plain hc i'
    · by_cases hd : d' = d
      · subst hd
        have := (h.stream hc d').finish (.inr ⟨_, hu, hw, hk⟩)
          (fun t ht => writer_of_relay (x := (s.setStored d' kept).setReader i (.readHead
            ((s.setStored d' kept).asyncReadProcess responseHeadLen))) (by
              simp [setStored, Session.setReader]) (fun i' hi => by simp [setStored, hi]; rfl) ht)
          (by simp [Session.writer, ReaderPc.writer])
        simpa [Session.Stream, setStored, Session.setReader] using this
      · refine Session.Stream.reader_over (s := s.setStored d kept) ?_ ?_ fun hw => hw
        · refine (h.stream hc d').congr ?_ ?_ ?_ ?_ rfl <;> simp [setStored, hd]
        · refine ReaderPc.over_of_none ?_
          show (s.readers i).pc.writer d' = none
          simp [hpc, ReaderPc.writer, Ne.symm hd]
  · -- a writer can always make its change
    refine Streams.readHead (h.same (x := { s with undefined := true }) rfl rfl rfl) fun hc => ?_
    obtain ⟨kept, hk⟩ := (h.stream hc d).clearable hu
    cases hn.symm.trans hk

theorem spawning (h : Streams s) (hs : Shape s) (j conn : ℕ) : Streams (s.spawning j conn) := by
  have hpc := hs.spawning_pc j conn
  refine ⟨h.intact, fun hc i => ?_, fun hc d => ?_⟩
  · rw [hpc]; exact h.plain hc i
  · have hw : (s.spawning j conn).writer d = s.writer d := by
      funext t
      cases t with
      | reader i => exact congrArg (ReaderPc.writer d) (hpc i)
      | _ => rfl
    have := h.stream hc d
    unfold Session.Stream at this ⊢
    rw [hw]; exact this

theorem superviseProcess (h : Streams s) (hs : Shape s) (j conn : ℕ) :
    Streams (s.superviseProcess j conn) := by
  obtain ⟨ds, n, hd⟩ := s.superviseProcess_detectors j conn
  rw [hd]
  refine ((h.spawning hs j conn).readHead (i := s.nReaders) fun _ d =>
    ReaderPc.over_of_none ?_).same rfl rfl rfl
  simp [Session.spawning, ReaderPc.writer]

/-- A peer accepts a part of the write `u` of coroutine `t`. -/
theorem pushed (h : Streams s) (hc : s.hasClosed = false) {t : Tid} {d : Dir}
    {u : Relay.Writer Byte (List Packet)} {k : ℕ} (hu : s.writer d t = some u) (h0 : 0 < k)
    (hk : k ≤ u.rest.length) (hu' : s'.writer d t = some { u with rest := u.rest.drop k })
    (hne : ∀ d' t', (d', t') ≠ (d, t) → s'.writer d' t' = s.writer d' t')
    (hR : ∀ d', (s'.way d').received = (s.way d').received)
    (hS : ∀ d', (s'.way d').storedData = (s.way d').storedData)
    (hA : ∀ d', (s'.way d').accepted =
      if d' = d then (s.way d').accepted ++ u.rest.take k else (s.way d').accepted)
    (hp : ∀ i, (s'.readers i).pc.Plain) : Streams s' := by
  have hstream : ∀ d', s'.Stream d' := by
    intro d'
    have hst := h.stream hc d'
    unfold Session.Stream at hst ⊢
    rw [hR, hS, hA]
    by_cases hd : d' = d
    · subst hd
      rw [if_pos rfl]
      exact hst.push hu h0 hk (fun t' ht' => hne d' t' (by simpa using ht')) hu'
    · rw [if_neg hd, show s'.writer d' = s.writer d' from
        funext fun t' => hne d' t' (by simp [hd])]
      exact hst
  exact ⟨fun d' => (hstream d').accepted_isPrefix, fun _ => hp, fun _ => hstream⟩

theorem pushPeer (h : Streams s) (hs : Shape s) {t : Tid} {d : Dir} {w : PeerWrite} {k : ℕ}
    (hw : s.peerWrite t = some (d, w)) (ho : s.dstOpen d = true) (h0 : 0 < k)
    (hk : k ≤ w.rest.length) :
    Streams ((s.accept d (w.rest.take k)).setPeerWrite { w with rest := w.rest.drop k } t) := by
  have hc : s.hasClosed = false := by
    have := hs.dst d
    rw [ho] at this
    simpa using this.symm
  cases t with
  | relay d₀ =>
    simp only [peerWrite, Option.map_eq_some_iff, Prod.mk.injEq] at hw
    obtain ⟨w, hw, rfl, rfl⟩ := hw
    obtain ⟨u, hu, hur⟩ := RelayPc.writer_of_peerWrite hw
    refine h.pushed hc (t := .relay d₀) (d := d₀) (u := u) (k := k) (by simpa [Session.writer] using hu) h0
      (by rwa [hur]) ?_ ?_ ?_ ?_ ?_ (h.plain hc)
    · simp [Session.writer, Session.setPeerWrite, accept, RelayPc.writer_setPeerWrite, hu, hur]
    · intro d' t' hne
      cases t' with
      | relay d'' =>
        simp only [Session.writer, Session.setPeerWrite]
        split
        · subst d''
          have hd : d' ≠ d₀ := by rintro rfl; exact hne rfl
          simp [accept, hd]
        · rfl
      | _ => rfl
    all_goals
      intro d'
      by_cases hd : d' = d₀ <;> simp [Session.setPeerWrite, accept, hd, hur]
  | reader i =>
    obtain ⟨⟨u, hu, hur⟩, hother⟩ := ReaderPc.writer_of_peerWrite (h.plain hc i) hw
    refine h.pushed hc (t := .reader i) (u := u) (k := k) hu h0 (by rwa [hur]) ?_ ?_ ?_ ?_ ?_ ?_
    · show (((s.accept d _).setReader i _).readers i).pc.writer d = _
      rw [setReader_readers, Function.update_self]
      show (ReaderPc.setPeerWrite _ (s.readers i).pc).writer d = _
      rw [ReaderPc.writer_setPeerWrite, hu, hur]
      rfl
    · intro d' t' hne
      cases t' with
      | relay d'' =>
        simp only [Session.writer, Session.setPeerWrite]
        split
        · subst d''
          by_cases hd : d' = d <;> simp [accept, Session.setReader, hd]
        · rfl
      | reader i' =>
        show (((s.accept d _).setReader i _).readers i').pc.writer d' = (s.readers i').pc.writer d'
        by_cases hi : i' = i
        · subst hi
          have hd : d' ≠ d := by rintro rfl; exact hne rfl
          rw [setReader_readers, Function.update_self]
          show (ReaderPc.setPeerWrite _ (s.readers i').pc).writer d' = _
          rw [ReaderPc.writer_setPeerWrite, hother d' hd]
          rfl
        · rw [setReader_readers, Function.update_of_ne hi]; rfl
      | _ => rfl
    · intro d'
      by_cases hd : d' = d <;> simp [Session.setPeerWrite, Session.setReader, accept, hd]
    · intro d'
      by_cases hd : d' = d <;> simp [Session.setPeerWrite, Session.setReader, accept, hd]
    · intro d'
      by_cases hd : d' = d <;> simp [Session.setPeerWrite, Session.setReader, accept, hd, hur]
    · intro i'
      by_cases hi : i' = i
      · subst hi
        have := h.plain hc i'
        simp only [Session.setPeerWrite, setReader_readers, Function.update_self]
        show (ReaderPc.setPeerWrite _ (s.readers i').pc).Plain
        cases hpc : (s.readers i').pc <;> rw [hpc] at this <;> exact this
      · simp only [Session.setPeerWrite, setReader_readers, Function.update_of_ne hi]
        exact h.plain hc i'
  | connector => cases hw
  | detector => cases hw

theorem step (h : Streams s) (hs : Shape s) {e : Event} (hC : Orderly s e) (hr : Rule s e s') :
    Streams s' := by
  cases hr with
  | @gotDirect d live bytes hpc =>
    exact h.writeDirect hs hpc fun hc => by simpa [OrderlyRead, hpc] using hC hc
  | @gotProcess d live bytes hpc hr =>
    refine h.writeProcess hs hpc ?_ fun hc => by simpa [OrderlyRead, hpc] using hC hc
    have := hr.2.1
    exact lt_of_le_of_lt this (UInt32.toNat_lt _)
  | @readEof d =>
    rw [relayEof_eq]
    exact (h.same (x := { s with eof := true, trace := _ }) rfl rfl rfl).graceClose_setRelay d _
  | @readError d => exact h.graceClose_setRelay d _
  | pushPeer hw hl ho h0 hk => exact h.pushPeer hs hw ho h0 hk
  | @pushLink t k w hw =>
    have h₁ : Streams (s.sendLink w k) :=
      h.same rfl rfl rfl
    exact h₁.setLinkWrite _ (v := w) (by cases t <;> exact hw)
  | @pull i k r hr =>
    have h₁ : Streams (s.setLink { s.link with inbound := s.link.inbound.drop k }) :=
      h.same rfl rfl rfl
    exact h₁.setLinkRead _ (v := r) hr
  | issueWrite hw => exact h.setLinkWrite _ hw
  | @issueRead i r hr =>
    exact (h.noteRead i).setLinkRead _ (v := r) (by simpa [linkRead] using hr)
  | @notified d w hpc =>
    exact h.setRelay d rfl rfl rfl fun _ => ⟨RelayPc.over_of_none (by rw [hpc]; rfl), id⟩
  | @notifyFailed d w hpc =>
    exact (h.breakLink w).setRelay d rfl rfl rfl fun _ =>
      ⟨RelayPc.over_of_none (by rw [breakLink_way, hpc]; rfl), id⟩
  | @wroteDirect d w hpc hf =>
    refine h.relayLoop fun _ u hu => ?_
    rw [hpc] at hu; cases hu
    exact ⟨hf.2, rfl⟩
  | @wroteProcess d w hpc =>
    exact h.relayLoop fun _ => RelayPc.over_of_none (by rw [hpc]; rfl)
  | @processFailed d w hpc hf =>
    refine (h.breakLink w).relayFlush (hs.breakLink w) _ fun hc => ?_
    have ho : s.CanWrite d := by simpa [OrderlyRelayFail, hpc] using hC (by simpa using hc)
    refine ⟨by rw [breakLink_way, hpc]; rfl, ?_⟩
    simpa [CanWrite, Free] using ho
  | @relayFlushed d gen w hpc hf =>
    have h₁ : Streams (s.clearFlushed d w) := h.clearFlushed (t := .relay d)
      (by simp [Session.writer, hpc, RelayPc.writer]; rfl) fun _ => rfl
    refine h₁.relayReconnect gen fun _ u hu => ?_
    simp only [Session.clearFlushed, setStored, setWay_way, emit_way, Function.update_self, hpc] at hu
    cases hu
    exact ⟨hf.2, by simp [Session.clearFlushed, setStored]⟩
  | @relayWriteFailed d => exact h.graceClose_setRelay d _
  | @gotHead i r hpc hf hb =>
    refine (h.noteRead i).setReader fun hc => ?_
    have ho : s.CanHandle (ResponseHead.ofBytes r.got) := by
      simpa [OrderlyReader, hpc] using hC (by simpa using hc)
    exact absurd ho.1 hb
  | @gotHeadOnly i r hpc hf =>
    refine h.dispatch hs _ _ fun hc => ⟨fun d => by rw [hpc]; rfl, ?_⟩
    simpa [OrderlyReader, hpc] using hC hc
  | @gotBody i head r hpc =>
    refine h.dispatch hs _ _ fun hc => ?_
    have := h.plain hc i
    rw [hpc] at this; exact this.elim
  | @readFailed i r hr hf =>
    refine readerFailed_ind (fun hc => h.setReader fun ho => ?_)
      fun hc => h.readerFlushServer hs _ fun _ => ?_
    · rw [hc] at ho; cases ho
    · have hp := h.plain hc i
      have ho : s.OrderlyReaderFail i := hC hc
      simp only [linkRead] at hr
      cases hpc : (s.readers i).pc with
      | readHead => exact ⟨fun d => ReaderPc.over_of_none rfl, by simpa [OrderlyReaderFail, hpc] using ho⟩
      | readBody => rw [hpc] at hp; exact hp.elim
      | _ => rw [hpc] at hr; cases hr
  | @wroteNew i d conn head w hpc =>
    refine h.actOnHead hs _ fun hc => ?_
    have := h.plain hc i
    rw [hpc] at this; exact this.elim
  | released hpc hf => exact h.clearReleased hpc hf.2
  | @readerWriteFailed i => exact h.graceClose_setReader i _
  | @flushedServer i gen w hpc hf =>
    have h₁ : Streams (s.clearFlushed .req w) := h.clearFlushed (t := .reader i)
      (by simp [Session.writer, hpc, ReaderPc.writer]; rfl) fun _ => rfl
    refine h₁.readerFlushClient ((hs.clearFlushed .req w)) gen fun hc => ⟨fun d u hu => ?_, ?_⟩
    · change (s.readers i).pc.writer d = some u at hu
      simp only [hpc, ReaderPc.writer] at hu
      split at hu
      · cases hu; subst d
        exact ⟨hf.2, by simp [Session.clearFlushed, setStored]⟩
      · cases hu
    · have ho : s.CanWrite .res := by simpa [OrderlyReader, hpc] using hC hc
      exact ho
  | @flushServerFailed i gen w hpc =>
    exact h.graceClose.readerFlushClient hs.graceClose gen fun hc => by simp at hc
  | @flushedClient i gen w hpc hf =>
    have h₁ : Streams (s.clearFlushed .res w) := h.clearFlushed (t := .reader i)
      (by simp [Session.writer, hpc, ReaderPc.writer]; rfl) fun _ => rfl
    refine h₁.readerReconnect gen fun hc d u hu => ?_
    change (s.readers i).pc.writer d = some u at hu
    simp only [hpc, ReaderPc.writer] at hu
    split at hu
    · cases hu; subst d
      exact ⟨hf.2, by simp [Session.clearFlushed, setStored]⟩
    · cases hu
  | @flushClientFailed i gen w hpc =>
    exact h.graceClose.readerReconnect gen fun hc => by simp at hc
  | connected => exact h.same rfl rfl rfl
  | connectFailed => exact h.same rfl rfl rfl
  | retry => exact connectLoop_ind (fun _ => h.same rfl rfl rfl) fun _ => h.same rfl rfl rfl
  | wroteTuple => exact h.superviseProcess hs _ _
  | @tupleFailed j conn w =>
    exact (h.breakLink w).same (x := (s.breakLink w).setConnector j .done) rfl rfl rfl
  | timedOut => exact h.same rfl rfl rfl
  | rearm =>
    obtain ⟨ds, hd⟩ := s.detectLoop_detectors _ _
    rw [hd]
    exact h.same rfl rfl rfl
  | connect => exact h.same rfl rfl rfl
  | expire => exact h.same rfl rfl rfl
  | respond => exact h.same rfl rfl rfl

end Streams

/-- **The streams are intact in every orderly run.** -/
theorem streamsIntact_of_orderly {c : Conf} {s : Session}
    (h : Reach Session.step Orderly (Session.init c) s) : s.StreamsIntact := by
  have hi : Shape s ∧ Streams s :=
    h.inv (I := fun s => Shape s ∧ Streams s) ⟨Shape.init c, Streams.init c⟩
      fun _ _ _ hs hC he =>
        ⟨hs.1.step (rule_of_step he), hs.2.step hs.1 hC (rule_of_step he)⟩
  exact hi.2.intact

/-- The process takes one byte of the client and fails before it answers: the
    stored byte is flushed, and the next ones go past the process. -/
theorem streamsIntact_flushed :
    ∃ s : Session, (s.way .req).accepted = [1, 2, 3] ∧ s.StreamsIntact := by
  obtain ⟨s, hs, hp⟩ := exists_runIf Session.step Orderly
    (Session.init (localConf true))
    ([.connect 0, .complete (.connector 0), .read .req (.data [1]), .push (.relay .req) 1,
      .complete (.relay .req), .push (.connector 0) 89, .complete (.connector 0),
      .read .req (.data [2]), .push (.relay .req) 6, .complete (.relay .req), .fail (.reader 0),
      .push (.reader 0) 1, .complete (.reader 0), .read .req (.data [3]), .fail (.relay .req),
      .push (.relay .req) 1])
    (fun s => (s.way .req).accepted == [1, 2, 3]) (by decide +kernel)
  exact ⟨s, by simpa using hp, streamsIntact_of_orderly hs⟩

/-- The reader flushes a queue while the relay, whose write failed too, flushes it
    again: the server gets the second byte twice. -/
theorem not_streamsIntact : ¬ ∀ (c : Conf) (s : Session),
    Reach Session.step (fun s e => Truthful s e ∧ PassesOnly s e) (Session.init c) s →
      s.StreamsIntact := by
  intro h
  obtain ⟨s, hs, hp⟩ := exists_runIf Session.step
    (fun s e => Truthful s e ∧ PassesOnly s e) (Session.init (localConf true))
    ([.connect 0, .complete (.connector 0), .read .req (.data [1]), .push (.relay .req) 1,
      .complete (.relay .req), .push (.connector 0) 89, .complete (.connector 0),
      .read .req (.data [2]), .push (.relay .req) 6, .complete (.relay .req), .fail (.reader 0),
      .read .req (.data [3]), .fail (.relay .req), .push (.reader 0) 1, .push (.relay .req) 2])
    (fun s => !decide ((s.way .req).accepted <+: (s.way .req).received)) (by decide +kernel)
  simp [h _ s hs .req] at hp

end CppProxy
