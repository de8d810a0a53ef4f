/-
  cpp_proxy — cumulative acknowledgements (session.hpp).

  `prepare_transfer_packet` adds the packets that end within the total to the
  counter of the direction.  What it selects of the next packet is written and
  then taken off that packet, but it is not added to the counter, so the next
  total releases as many bytes too many.

  * `transfer`: one call of `inner_proxy_2client_or_2server` on a pass response;
  * `Acked.Exact`: every response releases the stream up to its total, and the
    queue keeps the rest;
  * `Releasable`: once a total ended inside a packet, every later one
    acknowledges all bytes queued, and no sum of a total and a length wraps;
  * `exact_iff_releasable`: these sequences are released exactly, and no others.
-/
import CppProxy.Lib.Related
import CppProxy.Frame
import CppProxy.Totals

namespace CppProxy

/-! ## One response -/

/-- `inner_proxy_2client_or_2server` on a pass response, when its writes succeed
    and `appended` is stored meanwhile: the bytes it writes from the queue, the
    queue it leaves and the counter.  `none` when it pops an empty deque. -/
def transfer (head : ResponseHead) (stored : List Packet) (handledTotalPkgLen : UInt64)
    (appended : List Packet) : Option (List Byte × List Packet × UInt64) :=
  let r := prepareTransferPacket head stored handledTotalPkgLen
  (clearHandledPacket (stored ++ appended) r.handledPkgCount r.nextPkgUsedSize).map
    fun kept => (r.bytes, kept, r.handledTotalPkgLen)

/-- The coroutine computes `transfer`: `actOnHead` starts the write and moves the
    counter, and `clearReleased` leaves the queue. -/
theorem transfer_session {s s' : Session} {i conn : ℕ} {d : Dir} {head : ResponseHead}
    {appended kept : List Packet} {bytes : List Byte} {handled : UInt64}
    (hpass : head.act ≠ Action.block.code)
    (hs' : (s'.way d).storedData = (s.way d).storedData ++ appended)
    (h : transfer head (s.way d).storedData (s.way d).handledTotalPkgLen appended =
      some (bytes, kept, handled)) :
    ∃ count next w, w = s.asyncWrite d bytes ∧
      (((s.actOnHead i d conn head).readers i).pc = .release d count next w) ∧
      ((s.actOnHead i d conn head).way d).handledTotalPkgLen = handled ∧
      ((s'.clearReleased i d count next).way d).storedData = kept := by
  simp only [transfer, Option.map_eq_some_iff, Prod.mk.injEq] at h
  obtain ⟨kept', hk, rfl, rfl, rfl⟩ := h
  let r := prepareTransferPacket head (s.way d).storedData (s.way d).handledTotalPkgLen
  refine ⟨r.handledPkgCount, r.nextPkgUsedSize, _, rfl, ?_, ?_, ?_⟩
  · simp [r, Session.actOnHead, hpass, Session.setReader, Session.asyncWrite]
  · simp [Session.actOnHead, hpass, Session.setReader, Session.emit, Session.setWay]
  · rw [← hs'] at hk
    simp only [Session.clearReleased, r, hk]
    simp [Session.readHead, Session.setReader, Session.setStored, Session.setWay]

/-- How far a response moves a queue of whole packets. -/
structure Advance (total handled : UInt64) (stored : List Packet) (r : Prepared) : Prop where
  le : r.handledTotalPkgLen ≤ total
  counter : r.handledTotalPkgLen.toNat = handled.toNat + storedLen (stored.take r.handledPkgCount)
  next : 0 ≤ r.nextPkgUsedSize.toInt
  reach : (r.handledTotalPkgLen.toNat : ℤ) + r.nextPkgUsedSize.toInt =
    min total.toNat (handled.toNat + storedLen stored)
  inside : r.nextPkgUsedSize ≠ 0 →
    total.toNat < handled.toNat + storedLen (stored.take (r.handledPkgCount + 1))
  bytes : (handled.toNat : ℤ) + r.bytes.length =
    r.handledTotalPkgLen.toNat + r.nextPkgUsedSize.toInt

/-- The packets that begin at or before the total end below `2 ^ 64`. -/
def NoWrap (total handled : ℕ) (stored : List Packet) : Prop :=
  ∀ m, handled + storedLen (stored.take m) ≤ total →
    handled + storedLen (stored.take (m + 1)) < 2 ^ 64

theorem NoWrap.front {total handled : ℕ} {p : Packet} {stored : List Packet}
    (h : NoWrap total handled (p :: stored)) (hle : handled ≤ total) :
    handled + p.len.toNat < 2 ^ 64 := by
  simpa using h 0 (by simpa using hle)

theorem NoWrap.tail {total handled : ℕ} {p : Packet} {stored : List Packet}
    (h : NoWrap total handled (p :: stored)) : NoWrap total (handled + p.len.toNat) stored := by
  intro m hm
  have := h (m + 1)
  simp only [List.take_succ_cons, storedLen_cons] at this
  omega

/-- The bytes of a packet and of what is selected behind it. -/
theorem Prepared.bytes_cons (r : Prepared) (p : Packet) : Prepared.bytes { r with
    writeBuffers := ⟨p.buf, p.len.toUInt64, p.bufKeeper⟩ :: r.writeBuffers
    handledPkgCount := r.handledPkgCount + 1 } = p.bytes ++ r.bytes := by
  simp [Prepared.bytes, ConstBuffer.bytes, Packet.bytes]

/-- The first `next` bytes of a packet, as a buffer. -/
theorem Packet.Ok.cut_length {p : Packet} (h : p.Ok) {next : Int32} (h0 : 0 ≤ next.toInt)
    (hle : next.toInt ≤ p.len.toNat) :
    ((ConstBuffer.bytes ⟨p.buf, toSize next, p.bufKeeper⟩).length : ℤ) = next.toInt := by
  have hs := toSize_nonneg h0
  have := h.2
  simp only [ConstBuffer.bytes, List.length_take, List.length_drop]
  omega

/-- **A response moves the counter and the cut up to the total.** -/
theorem advance (head : ResponseHead) {stored : List Packet} {handled : UInt64}
    (hok : ∀ p ∈ stored, p.Ok) (hlen : ∀ p ∈ stored, p.len.toNat < 2 ^ 31)
    (hle : handled ≤ head.handledTotalPkgLen)
    (hfit : NoWrap head.handledTotalPkgLen.toNat handled.toNat stored) :
    Advance head.handledTotalPkgLen handled stored (prepareTransferPacket head stored handled) := by
  induction stored generalizing handled with
  | nil =>
    rw [UInt64.le_iff_toNat_le] at hle
    refine ⟨UInt64.le_iff_toNat_le.2 hle, rfl, le_rfl, ?_, fun h => absurd rfl h, rfl⟩
    simp only [prepareTransferPacket, storedLen_nil, Int32.toInt_zero]
    omega
  | cons p stored ih =>
    rw [UInt64.le_iff_toNat_le] at hle
    have hp := hlen p (by simp)
    have hT := head.handledTotalPkgLen.toNat_lt
    have hadd := toNat_add_len (hfit.front hle)
    simp only [prepareTransferPacket, gt_iff_lt, UInt64.lt_iff_toNat_lt, hadd]
    split
    · rename_i hcut
      have hsub : (head.handledTotalPkgLen - handled).toNat =
          head.handledTotalPkgLen.toNat - handled.toNat := by
        rw [UInt64.toNat_sub]; omega
      have hnext : (toInt (head.handledTotalPkgLen - handled)).toInt =
          (head.handledTotalPkgLen.toNat - handled.toNat : ℕ) := by
        rw [toInt_small (by omega), hsub, Nat.mod_eq_of_lt (by omega)]
      have hreach : (handled.toNat : ℤ) + (toInt (head.handledTotalPkgLen - handled)).toInt =
          min head.handledTotalPkgLen.toNat (handled.toNat + storedLen (p :: stored)) := by
        rw [hnext, storedLen_cons]; omega
      split
      · rename_i h0
        exact ⟨UInt64.le_iff_toNat_le.2 hle, rfl, by simp [hnext], hreach,
          fun hn => absurd h0 hn, by simp [h0, Prepared.bytes]⟩
      · refine ⟨UInt64.le_iff_toNat_le.2 hle, rfl, by simp [hnext], hreach,
          fun _ => by simpa using hcut, ?_⟩
        rw [Prepared.bytes, List.flatMap_singleton,
          (hok p (by simp)).cut_length (by omega) (by omega)]
    · rename_i hcut
      have ha := ih (fun q hq => hok q (by simp [hq])) (fun q hq => hlen q (by simp [hq]))
        (UInt64.le_iff_toNat_le.2 (by omega)) (hadd ▸ hfit.tail)
      refine ⟨ha.le, ?_, ha.next, ?_, fun hn => ?_, ?_⟩
      · rw [ha.counter, List.take_succ_cons, storedLen_cons, hadd, Nat.add_assoc]
      · rw [ha.reach, storedLen_cons, hadd, Nat.add_assoc]
      · have := ha.inside hn
        simp only [List.take_succ_cons, storedLen_cons]
        omega
      · have := ha.bytes
        rw [Prepared.bytes_cons, List.length_append, (hok p (by simp)).length]
        simp only [hadd] at this ⊢
        omega

/-- A sum that wraps around releases bytes beyond the total. -/
theorem overshoots (head : ResponseHead) {stored : List Packet} {handled : UInt64}
    (hok : ∀ p ∈ stored, p.Ok) (hle : handled ≤ head.handledTotalPkgLen)
    (hfit : ¬ NoWrap head.handledTotalPkgLen.toNat handled.toNat stored) :
    head.handledTotalPkgLen.toNat <
      handled.toNat + (prepareTransferPacket head stored handled).bytes.length := by
  induction stored generalizing handled with
  | nil =>
    refine absurd (fun m _ => ?_) hfit
    simpa using handled.toNat_lt
  | cons p stored ih =>
    rw [UInt64.le_iff_toNat_le] at hle
    have hp := p.len.toNat_lt
    have hc := handled.toNat_lt
    have hT := head.handledTotalPkgLen.toNat_lt
    have hpb := (hok p (by simp)).length
    have hadd : (handled + p.len.toUInt64).toNat = (handled.toNat + p.len.toNat) % 2 ^ 64 := by
      simp
    simp only [prepareTransferPacket, gt_iff_lt, UInt64.lt_iff_toNat_lt, hadd]
    by_cases hw : 2 ^ 64 ≤ handled.toNat + p.len.toNat
    · -- the sum wraps to a value below the counter, so the packet is taken whole
      rw [if_neg (by omega), Prepared.bytes_cons, List.length_append, hpb]
      omega
    · rw [Nat.mod_eq_of_lt (by omega)] at hadd ⊢
      split
      · -- nothing behind this packet begins at or before the total
        rename_i hcut
        refine absurd (fun m hm => ?_) hfit
        cases m with
        | zero => simp; omega
        | succ m => simp only [List.take_succ_cons, storedLen_cons] at hm; omega
      · have : head.handledTotalPkgLen.toNat < (handled + p.len.toUInt64).toNat +
            (prepareTransferPacket head stored (handled + p.len.toUInt64)).bytes.length :=
          ih (fun q hq => hok q (by simp [hq])) (UInt64.le_iff_toNat_le.2 (by omega))
            (fun h => by
            refine hfit fun m hm => ?_
            cases m with
            | zero => simp; omega
            | succ m =>
              have := h m
              simp only [List.take_succ_cons, storedLen_cons] at hm ⊢
              omega)
        rw [Prepared.bytes_cons, List.length_append, hpb]
        omega

/-! ## Sequences of responses -/

/-- A queue on one connection of the process, with all that was stored in it and
    all that was written from it since the connection began. -/
structure Acked where
  queued : List (List Byte)
  stored : List Packet
  handledTotalPkgLen : UInt64
  released : List Byte
deriving DecidableEq

/-- A payload is stored, or a response is handled while others are stored. -/
inductive AckOp
  | store (data : List Byte)
  | respond (head : ResponseHead) (appended : List (List Byte))

/-- `connect_process` leaves the queue and zeroes the counter. -/
def Acked.start (stored : List Packet) : Acked := ⟨stored.map Packet.bytes, stored, 0, []⟩

/-- The queue and the counter after one operation; `none` where it is undefined. -/
def Acked.exec (s : Acked) : AckOp → Option Acked
  | .store data => some { s with
      queued := s.queued ++ [data]
      stored := s.stored ++ [Packet.ofData data] }
  | .respond head appended =>
    (transfer head s.stored s.handledTotalPkgLen (appended.map Packet.ofData)).map
      fun (bytes, kept, handled) =>
        ⟨s.queued ++ appended, kept, handled, s.released ++ bytes⟩

/-- The bytes up to the total were released, and the queue holds the rest. -/
def Acked.ReleasedTo (s : Acked) (total : ℕ) : Prop :=
  s.released = s.queued.flatten.take total ∧ storedBytes s.stored = s.queued.flatten.drop total

instance (s : Acked) (total : ℕ) : Decidable (s.ReleasedTo total) :=
  inferInstanceAs (Decidable (_ ∧ _))

/-- Every response releases exactly what it acknowledges. -/
def Acked.Exact : Acked → List AckOp → Prop
  | _, [] => True
  | s, .store data :: ops => ∃ s', s.exec (.store data) = some s' ∧ s'.Exact ops
  | s, .respond head appended :: ops => ∃ s', s.exec (.respond head appended) = some s' ∧
      s'.ReleasedTo head.handledTotalPkgLen.toNat ∧ s'.Exact ops

/-- What one read stores fits the block it is read into. -/
def FitsBlock (data : List Byte) : Prop := data.length ≤ defaultBlockSize.toNat

instance (data : List Byte) : Decidable (FitsBlock data) := inferInstanceAs (Decidable (_ ≤ _))

/-- The responses are pass responses, and their totals do not decrease and do not
    exceed the bytes queued so far. -/
def Acknowledges : List (List Byte) → UInt64 → List AckOp → Prop
  | _, _, [] => True
  | queued, last, .store data :: ops => FitsBlock data ∧ Acknowledges (queued ++ [data]) last ops
  | queued, last, .respond head appended :: ops =>
    head.act = Action.pass.code ∧ last ≤ head.handledTotalPkgLen ∧
      head.handledTotalPkgLen.toNat ≤ queued.flatten.length ∧
      (∀ data ∈ appended, FitsBlock data) ∧
      Acknowledges (queued ++ appended) head.handledTotalPkgLen ops

/-- The total ends a payload. -/
def EndsPayload (queued : List (List Byte)) (total : ℕ) : Prop :=
  ∃ m ≤ queued.length, total = (queued.take m).flatten.length

/-- The payloads that begin at or before the total end below `2 ^ 64`. -/
def EndBelow (queued : List (List Byte)) (total : ℕ) : Prop :=
  ∀ m, (queued.take m).flatten.length ≤ total → (queued.take (m + 1)).flatten.length < 2 ^ 64

/-- No payload that begins at or before a total ends beyond `2 ^ 64`, and once a
    total ended inside a payload (`cut`), every later one acknowledges all bytes
    queued so far. -/
def Releasable : List (List Byte) → Prop → List AckOp → Prop
  | _, _, [] => True
  | queued, cut, .store data :: ops => Releasable (queued ++ [data]) cut ops
  | queued, cut, .respond head appended :: ops =>
    (EndBelow queued head.handledTotalPkgLen.toNat ∧
      (cut → head.handledTotalPkgLen.toNat = queued.flatten.length)) ∧
    Releasable (queued ++ appended)
      (cut ∨ ¬ EndsPayload queued head.handledTotalPkgLen.toNat) ops

theorem FitsBlock.lt {data : List Byte} (h : FitsBlock data) : data.length < 2 ^ 31 := by
  have : defaultBlockSize.toNat = 2097152 := rfl
  simp only [FitsBlock] at h
  omega

/-- What every response keeps: the released bytes and the queue are the stream. -/
structure Acked.Kept (s : Acked) : Prop where
  ok : ∀ p ∈ s.stored, p.Ok
  small : ∀ p ∈ s.stored, p.len.toNat < 2 ^ 31
  bytes : s.released ++ storedBytes s.stored = s.queued.flatten

theorem storedBytes_append (stored stored' : List Packet) :
    storedBytes (stored ++ stored') = storedBytes stored ++ storedBytes stored' := by
  simp [storedBytes]

theorem storedBytes_length {stored : List Packet} (h : ∀ p ∈ stored, p.Ok) :
    (storedBytes stored).length = storedLen stored := by
  have hf : Frames stored (stored.map Packet.bytes) := ⟨h, rfl⟩
  rw [hf.storedLen, hf.storedBytes]

theorem ofData_kept {appended : List (List Byte)} (h : ∀ data ∈ appended, FitsBlock data) :
    (∀ p ∈ appended.map Packet.ofData, p.Ok ∧ p.len.toNat < 2 ^ 31) ∧
      (appended.map Packet.ofData).map Packet.bytes = appended := by
  refine ⟨fun p hp => ?_, ?_⟩
  · obtain ⟨data, hd, rfl⟩ := List.mem_map.1 hp
    have hlt := (h data hd).lt
    refine ⟨Packet.ofData_ok (by omega), ?_⟩
    simp only [Packet.ofData, UInt32.toNat_ofNat']
    omega
  · rw [List.map_map]
    conv_rhs => rw [← List.map_id appended]
    refine List.map_congr_left fun data hd => ?_
    have hlt := (h data hd).lt
    exact Packet.ofData_bytes (by omega)

/-- Payloads are stored behind the queue. -/
theorem Acked.Kept.append {s : Acked} (h : s.Kept) {appended : List (List Byte)}
    (ha : ∀ data ∈ appended, FitsBlock data) :
    Acked.Kept { s with
      queued := s.queued ++ appended
      stored := s.stored ++ appended.map Packet.ofData } := by
  obtain ⟨hp, hb⟩ := ofData_kept ha
  refine ⟨fun p hm => ?_, fun p hm => ?_, ?_⟩
  · rcases List.mem_append.1 hm with hm | hm
    · exact h.ok p hm
    · exact (hp p hm).1
  · rcases List.mem_append.1 hm with hm | hm
    · exact h.small p hm
    · exact (hp p hm).2
  · rw [storedBytes_append, ← List.append_assoc, h.bytes, List.flatten_append]
    congr 1
    rw [storedBytes, List.flatMap_def, hb]

/-- A response never reaches undefined behaviour and keeps the stream. -/
theorem Acked.Kept.respond {s : Acked} (h : s.Kept) {head : ResponseHead}
    (hle : s.handledTotalPkgLen ≤ head.handledTotalPkgLen) {r : Prepared}
    (hr : prepareTransferPacket head s.stored s.handledTotalPkgLen = r) :
    ∃ kept, Split s.stored r kept ∧
      Acked.Kept ⟨s.queued, kept, r.handledTotalPkgLen, s.released ++ r.bytes⟩ := by
  obtain ⟨kept, hk⟩ := transfer_split head (cutInside_of_le h.small hle)
  rw [hr] at hk
  refine ⟨kept, hk, hk.ok h.ok, fun p hp => ?_, ?_⟩
  · have hsh := hk.shrinks []
    simp only [List.append_nil] at hsh
    obtain ⟨q, hq, hqp⟩ := hsh.exists_right hp
    have := h.small q (List.mem_of_mem_drop hq)
    have := UInt32.le_iff_toNat_le.1 hqp.2.2.1
    omega
  · rw [List.append_assoc, hk.bytes h.ok, h.bytes]

/-! ## The counter behind the queue -/

/-- `cut`: some total ended inside a payload.  Until then the counter is the
    number of bytes released and the queue holds whole payloads; afterwards the
    counter stays behind. -/
structure Acked.Lag (s : Acked) (last : UInt64) (cut : Prop) : Prop extends s.Kept where
  le : s.handledTotalPkgLen ≤ last
  lag : s.handledTotalPkgLen.toNat ≤ s.released.length
  behind : cut → s.handledTotalPkgLen.toNat ≠ s.released.length
  whole : ¬ cut → s.handledTotalPkgLen.toNat = s.released.length ∧
    ∃ k ≤ s.queued.length, s.stored.map Packet.bytes = s.queued.drop k

theorem Acked.Lag.start {stored : List Packet} (hok : ∀ p ∈ stored, p.Ok)
    (hs : ∀ p ∈ stored, p.len ≤ defaultBlockSize) : (Acked.start stored).Lag 0 False where
  ok := hok
  small p hp := by
    have := UInt32.le_iff_toNat_le.1 (hs p hp)
    have : defaultBlockSize.toNat = 2097152 := rfl
    omega
  bytes := by simp [Acked.start, storedBytes, List.flatMap_def]
  le := UInt64.le_refl _
  lag := by simp [Acked.start]
  behind := False.elim
  whole _ := ⟨by simp [Acked.start], 0, Nat.zero_le _, rfl⟩

/-- Payloads are stored behind the queue. -/
theorem Acked.Lag.append {s : Acked} {last : UInt64} {cut : Prop} (h : s.Lag last cut)
    {appended : List (List Byte)} (ha : ∀ data ∈ appended, FitsBlock data) :
    Acked.Lag { s with
      queued := s.queued ++ appended
      stored := s.stored ++ appended.map Packet.ofData } last cut where
  toKept := h.toKept.append ha
  le := h.le
  lag := h.lag
  behind := h.behind
  whole hc := by
    obtain ⟨he, k, hk, hw⟩ := h.whole hc
    refine ⟨he, k, by simp; omega, ?_⟩
    rw [List.map_append, hw, (ofData_kept ha).2, List.drop_append_of_le_length hk]

theorem length_take_mono (queued : List (List Byte)) {m k : ℕ} (h : m ≤ k) :
    (queued.take m).flatten.length ≤ (queued.take k).flatten.length := by
  obtain ⟨j, rfl⟩ := Nat.exists_eq_add_of_le h
  rw [List.take_add, List.flatten_append, List.length_append]
  omega

theorem endBelow_of_lt {queued : List (List Byte)} (h : queued.flatten.length < 2 ^ 64)
    (total : ℕ) : EndBelow queued total := by
  intro m _
  have := length_take_mono queued (le_max_left (m + 1) queued.length)
  rw [List.take_of_length_le (le_max_right _ _)] at this
  omega

theorem storedLen_take_le (stored : List Packet) (m : ℕ) :
    storedLen (stored.take m) ≤ storedLen stored := by
  conv_rhs => rw [← List.take_append_drop m stored, storedLen_append]
  omega

section Respond

variable {s : Acked} {last : UInt64} {cut : Prop}

theorem Acked.Kept.length (h : s.Kept) :
    s.released.length + storedLen s.stored = s.queued.flatten.length := by
  rw [← h.bytes, List.length_append, storedBytes_length h.ok]

/-- Whole payloads are left: the released bytes are those before them. -/
theorem Acked.Kept.released_take (h : s.Kept) {k : ℕ}
    (hw : s.stored.map Packet.bytes = s.queued.drop k) :
    s.released = (s.queued.take k).flatten := by
  have hb := h.bytes
  rw [storedBytes, List.flatMap_def, hw] at hb
  conv_rhs at hb => rw [← List.take_append_drop k s.queued, List.flatten_append]
  exact List.append_cancel_right hb

theorem Acked.Kept.take_length (h : s.Kept) {k : ℕ}
    (hw : s.stored.map Packet.bytes = s.queued.drop k) (m : ℕ) :
    s.released.length + storedLen (s.stored.take m) = (s.queued.take (k + m)).flatten.length := by
  have hf : Frames (s.stored.take m) ((s.queued.drop k).take m) :=
    Frames.take ⟨h.ok, hw⟩ m
  rw [hf.storedLen, h.released_take hw, List.take_add, List.flatten_append, List.length_append]

/-- With whole payloads in the queue no sum wraps exactly when the payloads that
    begin at or before the total end below `2 ^ 64`. -/
theorem Acked.Lag.noWrap_iff (h : s.Lag last cut) (hc : ¬ cut) (total : ℕ) :
    NoWrap total s.handledTotalPkgLen.toNat s.stored ↔ EndBelow s.queued total := by
  obtain ⟨he, k, hk, hw⟩ := h.whole hc
  constructor
  · intro hn m hm
    rcases Nat.lt_or_ge m k with hlt | hge
    · have := s.handledTotalPkgLen.toNat_lt
      have hle := h.take_length hw 0
      have := length_take_mono s.queued (show m + 1 ≤ k by omega)
      simp only [List.take_zero, storedLen_nil, Nat.add_zero] at hle
      omega
    · obtain ⟨j, rfl⟩ := Nat.exists_eq_add_of_le hge
      rw [← h.take_length hw j, ← he] at hm
      rw [Nat.add_assoc, ← h.take_length hw (j + 1), ← he]
      exact hn j hm
  · intro hn m hm
    rw [he, h.take_length hw m] at hm
    rw [he, h.take_length hw (m + 1), ← Nat.add_assoc]
    exact hn _ hm

/-- What the bytes released come to. -/
theorem Acked.Kept.releasedTo_iff (h : s.Kept) {total : ℕ} (ht : total ≤ s.queued.flatten.length) :
    s.ReleasedTo total ↔ s.released.length = total := by
  constructor
  · intro hr
    rw [hr.1, List.length_take]
    omega
  · intro hr
    subst hr
    constructor
    · rw [← h.bytes, List.take_left']
      rfl
    · rw [← h.bytes, List.drop_left']
      rfl

/-- **A response releases what it acknowledges** unless the counter is behind and
    bytes are left in the queue, or a sum wraps. -/
theorem Acked.Lag.respond (h : s.Lag last cut) {head : ResponseHead}
    (hle : last ≤ head.handledTotalPkgLen)
    (hq : head.handledTotalPkgLen.toNat ≤ s.queued.flatten.length) {r : Prepared}
    (hr : prepareTransferPacket head s.stored s.handledTotalPkgLen = r) :
    s.released.length + r.bytes.length = head.handledTotalPkgLen.toNat ↔
      EndBelow s.queued head.handledTotalPkgLen.toNat ∧
        (cut → head.handledTotalPkgLen.toNat = s.queued.flatten.length) := by
  have hcle := UInt64.le_trans h.le hle
  have hT := head.handledTotalPkgLen.toNat_lt
  have hlag := h.lag
  have hlen := h.toKept.length
  -- without wrapping, the response releases up to the total and the lag
  have hreach : NoWrap head.handledTotalPkgLen.toNat s.handledTotalPkgLen.toNat s.stored →
      s.handledTotalPkgLen.toNat + r.bytes.length =
        min head.handledTotalPkgLen.toNat (s.handledTotalPkgLen.toNat + storedLen s.stored) :=
    fun hn => by
      have ha := advance head h.ok h.small hcle hn
      rw [hr] at ha
      have := ha.bytes
      have := ha.reach
      omega
  have hover : ¬ NoWrap head.handledTotalPkgLen.toNat s.handledTotalPkgLen.toNat s.stored →
      head.handledTotalPkgLen.toNat < s.handledTotalPkgLen.toNat + r.bytes.length :=
    fun hn => hr ▸ overshoots head h.ok hcle hn
  by_cases hc : cut
  · have hb := h.behind hc
    constructor
    · intro hrel
      have hn : NoWrap head.handledTotalPkgLen.toNat s.handledTotalPkgLen.toNat s.stored := by
        by_contra hn
        have := hover hn
        omega
      have := hreach hn
      have hend : head.handledTotalPkgLen.toNat = s.queued.flatten.length := by omega
      exact ⟨endBelow_of_lt (by omega) _, fun _ => hend⟩
    · rintro ⟨-, hend⟩
      have hend := hend hc
      have hn : NoWrap head.handledTotalPkgLen.toNat s.handledTotalPkgLen.toNat s.stored := by
        intro m _
        have := storedLen_take_le s.stored (m + 1)
        omega
      have := hreach hn
      omega
  · obtain ⟨he, -⟩ := h.whole hc
    constructor
    · intro hrel
      refine ⟨(h.noWrap_iff hc _).1 ?_, fun hc' => absurd hc' hc⟩
      by_contra hn
      have := hover hn
      omega
    · rintro ⟨hn, -⟩
      have := hreach ((h.noWrap_iff hc _).2 hn)
      omega

/-- What `clear_handled_packet` leaves when no packet was cut. -/
theorem Split.whole {stored kept : List Packet} {r : Prepared} (h : Split stored r kept)
    (hn : r.nextPkgUsedSize = 0) :
    r.handledPkgCount ≤ stored.length ∧ kept = stored.drop r.handledPkgCount := by
  have hc := h.cleared []
  rw [List.append_nil, List.append_nil] at hc
  obtain ⟨hle, ⟨-, hk⟩ | ⟨pkg, rest, h0, -, -⟩⟩ := clearHandledPacket_eq_some.1 hc
  · exact ⟨hle, hk⟩
  · exact absurd hn h0

/-- The counter after a response that released what it acknowledges: it falls
    behind exactly when the total ends inside a payload. -/
theorem Acked.Lag.next (h : s.Lag last cut) {head : ResponseHead}
    (hle : last ≤ head.handledTotalPkgLen) {r : Prepared} {kept : List Packet}
    (hr : prepareTransferPacket head s.stored s.handledTotalPkgLen = r)
    (hk : Split s.stored r kept)
    (hkept : Acked.Kept ⟨s.queued, kept, r.handledTotalPkgLen, s.released ++ r.bytes⟩)
    (hrel : s.released.length + r.bytes.length = head.handledTotalPkgLen.toNat) :
    Acked.Lag ⟨s.queued, kept, r.handledTotalPkgLen, s.released ++ r.bytes⟩
      head.handledTotalPkgLen (cut ∨ ¬ EndsPayload s.queued head.handledTotalPkgLen.toNat) := by
  have hlag := h.lag
  have ha : Advance head.handledTotalPkgLen s.handledTotalPkgLen s.stored r := by
    by_cases hn : NoWrap head.handledTotalPkgLen.toNat s.handledTotalPkgLen.toNat s.stored
    · exact hr ▸ advance head h.ok h.small (UInt64.le_trans h.le hle) hn
    · have := overshoots head h.ok (UInt64.le_trans h.le hle) hn
      rw [hr] at this
      omega
  have hb := ha.bytes
  have hnext := ha.next
  refine ⟨hkept, ha.le, ?_, fun hc => ?_, fun hc => ?_⟩
  · simp only [List.length_append]
    omega
  · simp only [List.length_append]
    rcases Classical.em cut with hcut | hcut
    · have := h.behind hcut
      omega
    · -- the total is inside a packet, so bytes of it were released
      obtain ⟨he, k, hkl, hw⟩ := h.whole hcut
      intro heq
      have h0 : r.nextPkgUsedSize = 0 := Int32.toInt_inj.1 (by rw [Int32.toInt_zero]; omega)
      obtain ⟨hcount, hkq⟩ := hk.whole h0
      have hl : s.stored.length = s.queued.length - k := by
        simpa using congrArg List.length hw
      refine (hc.resolve_left hcut) ⟨k + r.handledPkgCount, by omega, ?_⟩
      rw [← hrel, ← List.length_append]
      exact congrArg List.length
        (hkept.released_take (by rw [hkq, List.map_drop, hw, List.drop_drop]))
  · obtain ⟨hcut, hend⟩ := not_or.1 hc
    obtain ⟨he, k, hkl, hw⟩ := h.whole hcut
    have h0 : r.nextPkgUsedSize = 0 := by
      by_contra h0
      obtain ⟨m, -, hm⟩ := not_not.1 hend
      have hin := ha.inside h0
      have hcounter := ha.counter
      rw [he, h.toKept.take_length hw] at hin hcounter
      have hpos : r.nextPkgUsedSize.toInt ≠ 0 := fun hz => h0 (Int32.toInt_inj.1 hz)
      rcases Nat.lt_or_ge (k + r.handledPkgCount) m with hlt | hge
      · have := length_take_mono s.queued (show k + (r.handledPkgCount + 1) ≤ m by omega)
        omega
      · have := length_take_mono s.queued hge
        omega
    obtain ⟨hcount, hkq⟩ := hk.whole h0
    have hl : s.stored.length = s.queued.length - k := by
      simpa using congrArg List.length hw
    refine ⟨?_, k + r.handledPkgCount, by simp only []; omega, ?_⟩
    · simp only [List.length_append]
      rw [h0, Int32.toInt_zero] at hb
      omega
    · rw [hkq, List.map_drop, hw, List.drop_drop]

/-- One response, with the payloads stored while it writes. -/
theorem Acked.Lag.exec (h : s.Lag last cut) {head : ResponseHead}
    (hle : last ≤ head.handledTotalPkgLen)
    (hq : head.handledTotalPkgLen.toNat ≤ s.queued.flatten.length)
    {appended : List (List Byte)} (ha : ∀ data ∈ appended, FitsBlock data) :
    ∃ s', s.exec (.respond head appended) = some s' ∧ s'.queued = s.queued ++ appended ∧
      (s'.ReleasedTo head.handledTotalPkgLen.toNat ↔
        EndBelow s.queued head.handledTotalPkgLen.toNat ∧
          (cut → head.handledTotalPkgLen.toNat = s.queued.flatten.length)) ∧
      (s'.ReleasedTo head.handledTotalPkgLen.toNat →
        s'.Lag head.handledTotalPkgLen
          (cut ∨ ¬ EndsPayload s.queued head.handledTotalPkgLen.toNat)) := by
  generalize hr : prepareTransferPacket head s.stored s.handledTotalPkgLen = r
  obtain ⟨kept, hk, hkept⟩ := h.toKept.respond (UInt64.le_trans h.le hle) hr
  have hall := hkept.append ha
  refine ⟨⟨s.queued ++ appended, kept ++ appended.map Packet.ofData, r.handledTotalPkgLen,
    s.released ++ r.bytes⟩, ?_, rfl, ?_, fun hrel => ?_⟩
  · simp [Acked.exec, transfer, hr, hk.cleared]
  · rw [hall.releasedTo_iff (by simp only [List.flatten_append, List.length_append]; omega),
      List.length_append]
    exact h.respond hle hq hr
  · rw [hall.releasedTo_iff (by simp only [List.flatten_append, List.length_append]; omega),
      List.length_append] at hrel
    exact (h.next hle hr hk hkept hrel).append ha

end Respond

theorem Acked.Lag.exact_iff {ops : List AckOp} {s : Acked} {last : UInt64} {cut : Prop}
    (h : s.Lag last cut) (hv : Acknowledges s.queued last ops) :
    s.Exact ops ↔ Releasable s.queued cut ops := by
  induction ops generalizing s last cut with
  | nil => exact Iff.rfl
  | cons op ops ih =>
    cases op with
    | store data =>
      obtain ⟨hd, hv⟩ := hv
      have hall : ∀ x ∈ [data], FitsBlock x := by simpa using hd
      have hs := h.append hall
      constructor
      · rintro ⟨s', he, hx⟩
        obtain rfl := Option.some.inj he
        exact (ih hs hv).1 hx
      · intro hx
        exact ⟨_, rfl, (ih hs hv).2 hx⟩
    | respond head appended =>
      obtain ⟨-, hle, hq, ha, hv⟩ := hv
      obtain ⟨s', he, hq', hiff, hnext⟩ := h.exec hle hq ha
      rw [← hq'] at hv
      constructor
      · rintro ⟨s'', he', hrel, hx⟩
        obtain rfl := Option.some.inj (he.symm.trans he')
        refine ⟨hiff.1 hrel, ?_⟩
        rw [← hq']
        exact (ih (hnext hrel) hv).1 hx
      · rintro ⟨hc, hx⟩
        rw [← hq'] at hx
        have hrel := hiff.2 hc
        exact ⟨s', he, hrel, (ih (hnext hrel) hv).2 hx⟩

/-- **Cumulative acknowledgements** are released exactly if and only if no total
    that follows one inside a payload leaves bytes in the queue, and no payload
    that begins at or before a total ends beyond `2 ^ 64`. -/
theorem exact_iff_releasable {stored : List Packet} {ops : List AckOp}
    (hok : ∀ p ∈ stored, p.Ok) (hs : ∀ p ∈ stored, p.len ≤ defaultBlockSize)
    (hv : Acknowledges (stored.map Packet.bytes) 0 ops) :
    (Acked.start stored).Exact ops ↔ Releasable (stored.map Packet.bytes) False ops :=
  (Acked.Lag.start hok hs).exact_iff hv

/-- A total inside the second payload, then one of all bytes queued. -/
theorem exact_cut_all : (Acked.start [Packet.ofData [1, 2]]).Exact
    [.store [3, 4], .respond { type := 0, act := 0, handledTotalPkgLen := 3 } [],
      .respond { type := 0, act := 0, handledTotalPkgLen := 4 } [[5]]] := by
  refine (exact_iff_releasable (by simp [Packet.ofData_ok]) (by decide) ?_).2 ?_
  · exact ⟨by decide, rfl, by decide, by decide, by simp, rfl, by decide, by decide, by decide,
      trivial⟩
  · exact ⟨⟨endBelow_of_lt (by decide) _, False.elim⟩, ⟨endBelow_of_lt (by decide) _, fun _ => rfl⟩,
      trivial⟩

/-- The packet `[1, 2, 3]` is acknowledged byte by byte: the second response
    releases the second and the third byte. -/
theorem not_exact : ¬ ∀ (stored : List Packet) (ops : List AckOp), (∀ p ∈ stored, p.Ok) →
    (∀ p ∈ stored, p.len ≤ defaultBlockSize) →
    Acknowledges (stored.map Packet.bytes) 0 ops → (Acked.start stored).Exact ops := by
  intro h
  obtain ⟨s, hs, -, s', hs', hrel, -⟩ := h [Packet.ofData [1, 2, 3]]
    [.respond { type := 0, act := 0, handledTotalPkgLen := 1 } [],
      .respond { type := 0, act := 0, handledTotalPkgLen := 2 } []]
    (by simp [Packet.ofData_ok]) (by decide)
    ⟨rfl, by decide, by decide, by simp, rfl, by decide, by decide, by simp, trivial⟩
  obtain rfl := Option.some.inj hs
  obtain rfl := Option.some.inj hs'
  exact absurd hrel (by decide)

end CppProxy
