/-
  cpp_proxy — stored packets (session.hpp, data_block.hpp).

  While the process inspects a payload, the proxy keeps it as a packet in
  `data_from_client_to_server_` or `data_from_server_to_client_`.  A response
  carries the running total of the bytes the process has handled:
  `prepare_transfer_packet` selects the buffers up to that total and
  `clear_handled_packet` removes them once they are written.

  * `prepareTransferPacket`, `clearHandledPacket`: the two functions, in the
    machine's own 64-bit, 32-bit and `int` arithmetic;
  * `CutInside`: the packet the total ends in, if any, is long enough for the
    `int` that says how much of it was handled;
  * `transfer_split`: then the buffers followed by what is left in the queue
    are the queue.
-/
import Mathlib.Data.List.Forall2
import Mathlib.Tactic.Linarith
import CppProxy.LocalTcp

namespace CppProxy

/-! ## Blocks and packets -/

/-- `struct data_block`: the bookkeeping of one block of receive memory. -/
structure DataBlock where
  usedSize : UInt32
  capacity : UInt32
deriving DecidableEq, Repr

/-- `default_block_size`. -/
def defaultBlockSize : UInt32 := 1024 * 1024 * 2

/-- `std::make_shared<data_block>(default_block_size)`. -/
def DataBlock.fresh : DataBlock := ⟨0, defaultBlockSize⟩

/-- `get_available`. -/
def DataBlock.getAvailable (b : DataBlock) : UInt32 := b.capacity - b.usedSize

/-- `update_available`. -/
def DataBlock.updateAvailable (b : DataBlock) (usedSize : UInt32) : DataBlock :=
  { b with usedSize := b.usedSize + usedSize }

/-- `struct packet`: `len` bytes at position `buf` of the memory that
    `bufKeeper` keeps alive. -/
structure Packet where
  buf : ℤ
  len : UInt32
  bufKeeper : List Byte
deriving DecidableEq, Repr

/-- The packet of a payload that has just been read. -/
def Packet.ofData (data : List Byte) : Packet := ⟨0, UInt32.ofNat data.length, data⟩

/-- The bytes of a packet. -/
def Packet.bytes (p : Packet) : List Byte := (p.bufKeeper.drop p.buf.toNat).take p.len.toNat

/-- A packet lies inside the memory it keeps. -/
def Packet.Ok (p : Packet) : Prop := 0 ≤ p.buf ∧ p.buf.toNat + p.len.toNat ≤ p.bufKeeper.length

theorem Packet.ofData_bytes {data : List Byte} (h : data.length < 2 ^ 32) :
    (Packet.ofData data).bytes = data := by
  simp only [ofData, bytes, Int.toNat_zero, List.drop_zero, UInt32.toNat_ofNat']
  rw [Nat.mod_eq_of_lt h, List.take_length]

theorem Packet.ofData_ok {data : List Byte} (h : data.length < 2 ^ 32) : (Packet.ofData data).Ok := by
  refine ⟨le_rfl, ?_⟩
  simp only [ofData, Int.toNat_zero, UInt32.toNat_ofNat']
  rw [Nat.mod_eq_of_lt h]; omega

/-- The bytes stored in a queue. -/
def storedBytes (stored : List Packet) : List Byte := stored.flatMap Packet.bytes

/-- `asio::const_buffer`: `size` bytes at position `data`. -/
structure ConstBuffer where
  data : ℤ
  size : UInt64
  keeper : List Byte
deriving DecidableEq, Repr

/-- The bytes of a buffer. -/
def ConstBuffer.bytes (b : ConstBuffer) : List Byte :=
  (b.keeper.drop b.data.toNat).take b.size.toNat

/-- A buffer lies inside a packet. -/
def ConstBuffer.Inside (b : ConstBuffer) (p : Packet) : Prop :=
  b.keeper = p.bufKeeper ∧ p.buf ≤ b.data ∧
    b.data + (b.size.toNat : ℤ) ≤ p.buf + (p.len.toNat : ℤ)

instance (b : ConstBuffer) (p : Packet) : Decidable (b.Inside p) :=
  inferInstanceAs (Decidable (_ ∧ _ ∧ _))

/-! ## Machine integers -/

/-- The cast of a `uint64_t` to `int`. -/
def toInt (n : UInt64) : Int32 := n.toUInt32.toInt32

/-- The conversion of an `int` to `size_t`. -/
def toSize (n : Int32) : UInt64 := n.toInt64.toUInt64

theorem toInt_small {n : UInt64} (h : n.toNat % 2 ^ 32 < 2 ^ 31) :
    (toInt n).toInt = (n.toNat % 2 ^ 32 : ℕ) := by
  show n.toUInt32.toBitVec.toInt = _
  rw [BitVec.toInt_eq_toNat_of_lt] <;> simp
  omega

theorem toInt_big {n : UInt64} (h : 2 ^ 31 ≤ n.toNat % 2 ^ 32) : (toInt n).toInt < 0 := by
  show n.toUInt32.toBitVec.toInt < 0
  rw [BitVec.toInt_eq_toNat_cond]
  simp
  omega

theorem toInt_eq_zero {n : UInt64} : toInt n = 0 ↔ n.toNat % 2 ^ 32 = 0 := by
  rw [← Int32.toInt_inj]
  rcases Nat.lt_or_ge (n.toNat % 2 ^ 32) (2 ^ 31) with h | h
  · rw [toInt_small h, Int32.toInt_zero]; omega
  · have := toInt_big h
    rw [Int32.toInt_zero]; omega

theorem toUInt32_nonneg {n : Int32} (h : 0 ≤ n.toInt) : (n.toUInt32.toNat : ℤ) = n.toInt := by
  show ((n.toBitVec).toNat : ℤ) = n.toBitVec.toInt
  change 0 ≤ n.toBitVec.toInt at h
  have := BitVec.toInt_eq_toNat_cond n.toBitVec
  split at this <;> omega

theorem toUInt32_of_toInt {n : Int32} {k : ℕ} (h : n.toInt = k) : n.toUInt32 = UInt32.ofNat k := by
  have hn := toUInt32_nonneg (n := n) (by omega)
  have hlt := n.toUInt32.toNat_lt
  rw [← UInt32.toNat_inj, UInt32.toNat_ofNat']
  omega

theorem toSize_nonneg {n : Int32} (h : 0 ≤ n.toInt) : ((toSize n).toNat : ℤ) = n.toInt := by
  show ((n.toInt64.toBitVec).toNat : ℤ) = _
  rw [← Int32.toInt_toInt64] at h ⊢
  show _ = n.toInt64.toBitVec.toInt
  change 0 ≤ n.toInt64.toBitVec.toInt at h
  have := BitVec.toInt_eq_toNat_cond n.toInt64.toBitVec
  split at this <;> omega

theorem toSize_neg {n : Int32} (h : n.toInt < 0) : 2 ^ 63 ≤ (toSize n).toNat := by
  show 2 ^ 63 ≤ (n.toInt64.toBitVec).toNat
  rw [← Int32.toInt_toInt64] at h
  change n.toInt64.toBitVec.toInt < 0 at h
  have := BitVec.toInt_eq_toNat_cond n.toInt64.toBitVec
  have := n.toInt64.toBitVec.isLt
  split at * <;> omega

/-! ## The two functions -/

/-- What `prepare_transfer_packet` returns, in its result and its reference
    parameters.  The count is an `int` in the source, which holds it for any queue of
    fewer than 2^31 packets (`toInt_handledPkgCount`). -/
structure Prepared where
  writeBuffers : List ConstBuffer
  handledTotalPkgLen : UInt64
  handledPkgCount : ℕ
  nextPkgUsedSize : Int32
deriving DecidableEq, Repr

/-- `prepare_transfer_packet`, entered with both counts zero. -/
def prepareTransferPacket (head : ResponseHead) : List Packet → UInt64 → Prepared
  | [], handled => ⟨[], handled, 0, 0⟩
  | pack :: stored, handled =>
    if handled + pack.len.toUInt64 > head.handledTotalPkgLen then
      let next := toInt (head.handledTotalPkgLen - handled)
      if next = 0 then ⟨[], handled, 0, next⟩
      else ⟨[⟨pack.buf, toSize next, pack.bufKeeper⟩], handled, 0, next⟩
    else
      let r := prepareTransferPacket head stored (handled + pack.len.toUInt64)
      { r with
        writeBuffers := ⟨pack.buf, pack.len.toUInt64, pack.bufKeeper⟩ :: r.writeBuffers
        handledPkgCount := r.handledPkgCount + 1 }

/-- No more packets are counted than there are. -/
theorem handledPkgCount_le (head : ResponseHead) (stored : List Packet) (handled : UInt64) :
    (prepareTransferPacket head stored handled).handledPkgCount ≤ stored.length := by
  induction stored generalizing handled with
  | nil => exact le_rfl
  | cons pack stored ih =>
    simp only [prepareTransferPacket]
    split
    · split <;> exact Nat.zero_le _
    · exact Nat.succ_le_succ (ih _)

/-- `handled_pkg_count` does not overflow while the queue has fewer than 2^31 packets. -/
theorem toInt_handledPkgCount (head : ResponseHead) {stored : List Packet} (handled : UInt64)
    (h : stored.length < 2 ^ 31) :
    (Int32.ofNat (prepareTransferPacket head stored handled).handledPkgCount).toInt =
      (prepareTransferPacket head stored handled).handledPkgCount :=
  Int32.toInt_ofNat_of_lt ((handledPkgCount_le head stored handled).trans_lt h)

/-- `clear_handled_packet`; `none` when it pops or reads the front of an empty
    deque, which is undefined. -/
def clearHandledPacket (stored : List Packet) (handledPkgCount : ℕ) (nextPkgUsedSize : Int32) :
    Option (List Packet) :=
  if handledPkgCount ≤ stored.length then
    if nextPkgUsedSize = 0 then some (stored.drop handledPkgCount)
    else match stored.drop handledPkgCount with
      | [] => none
      | pkg :: rest => some ({ pkg with
          buf := pkg.buf + nextPkgUsedSize.toInt
          len := pkg.len - nextPkgUsedSize.toUInt32 } :: rest)
  else none

/-- The bytes of the buffers that were selected. -/
def Prepared.bytes (p : Prepared) : List Byte := p.writeBuffers.flatMap ConstBuffer.bytes

/-! ## Where the total cuts the queue -/

/-- The first packet that ends beyond the total, if any, is cut inside: the
    low 32 bits of what is left of the total there fit an `int` and are at most
    the length of the packet. -/
def CutInside (total : UInt64) : UInt64 → List Packet → Prop
  | _, [] => True
  | handled, p :: stored =>
    if handled + p.len.toUInt64 > total then
      (total - handled).toNat % 2 ^ 32 < 2 ^ 31 ∧
        (total - handled).toNat % 2 ^ 32 ≤ p.len.toNat
    else CutInside total (handled + p.len.toUInt64) stored

instance decidableCutInside (total : UInt64) :
    ∀ (handled : UInt64) (stored : List Packet), Decidable (CutInside total handled stored)
  | _, [] => inferInstanceAs (Decidable True)
  | handled, p :: stored =>
    haveI := decidableCutInside total (handled + p.len.toUInt64) stored
    inferInstanceAs (Decidable (if handled + p.len.toUInt64 > total then
      (total - handled).toNat % 2 ^ 32 < 2 ^ 31 ∧
        (total - handled).toNat % 2 ^ 32 ≤ p.len.toNat
      else CutInside total (handled + p.len.toUInt64) stored))

/-- The lengths of the packets of a queue, added up. -/
def storedLen (stored : List Packet) : ℕ := (stored.map fun p => p.len.toNat).sum

@[simp] theorem storedLen_nil : storedLen [] = 0 := rfl

@[simp] theorem storedLen_cons (p : Packet) (stored : List Packet) :
    storedLen (p :: stored) = p.len.toNat + storedLen stored := by
  simp [storedLen]

theorem toNat_add_len {n : UInt64} {p : Packet}
    (h : n.toNat + p.len.toNat < 2 ^ 64) :
    (n + p.len.toUInt64).toNat = n.toNat + p.len.toNat := by
  simp only [UInt64.toNat_add, UInt32.toNat_toUInt64]
  omega

/-- With no packet of 2 GiB, a total that is not below the counter is always
    inside: a sum that wraps around ends below the counter. -/
theorem cutInside_of_le {total : UInt64} {stored : List Packet} {handled : UInt64}
    (hlen : ∀ p ∈ stored, p.len.toNat < 2 ^ 31) (hle : handled ≤ total) :
    CutInside total handled stored := by
  induction stored generalizing handled with
  | nil => trivial
  | cons p stored ih =>
    have hp := hlen p (by simp)
    have hadd : (handled + p.len.toUInt64).toNat = (handled.toNat + p.len.toNat) % 2 ^ 64 := by
      simp
    have hc := handled.toNat_lt
    rw [UInt64.le_iff_toNat_le] at hle
    simp only [CutInside, gt_iff_lt]
    split
    · rename_i h
      rw [UInt64.lt_iff_toNat_lt, hadd] at h
      have : (total - handled).toNat = total.toNat - handled.toNat := by
        rw [UInt64.toNat_sub]; omega
      omega
    · rename_i h
      rw [UInt64.lt_iff_toNat_lt] at h
      exact ih (fun q hq => hlen q (by simp [hq])) (UInt64.le_iff_toNat_le.2 (by omega))

/-- With no 64-bit overflow and no packet of 2 GiB, a total is inside exactly
    when the queue is empty, the total is not below the counter, or the low 32
    bits of the difference happen to fit the front packet. -/
theorem cutInside_iff {total handled : UInt64} {stored : List Packet}
    (hlt : handled.toNat + storedLen stored < 2 ^ 64) (hlen : ∀ p ∈ stored, p.len.toNat < 2 ^ 31) :
    CutInside total handled stored ↔ handled ≤ total ∨
      ∀ p ∈ stored.head?, (total - handled).toNat % 2 ^ 32 ≤ p.len.toNat := by
  by_cases hle : handled ≤ total
  · simp [hle, cutInside_of_le hlen]
  · cases stored with
    | nil => simp [CutInside]
    | cons p stored =>
      simp only [storedLen_cons] at hlt
      have hp := hlen p (by simp)
      have hcut : handled + p.len.toUInt64 > total := by
        rw [gt_iff_lt, UInt64.lt_iff_toNat_lt, toNat_add_len (by omega)]
        rw [UInt64.le_iff_toNat_le] at hle
        omega
      simp only [CutInside, hcut, if_true, hle, false_or, List.head?_cons, Option.mem_some_iff,
        forall_eq']
      exact ⟨fun h => h.2, fun h => ⟨by omega, h⟩⟩

/-! ## Releasing splits the queue -/

@[simp] theorem clearHandledPacket_succ (p : Packet) (stored : List Packet) (count : ℕ)
    (next : Int32) :
    clearHandledPacket (p :: stored) (count + 1) next = clearHandledPacket stored count next := by
  simp [clearHandledPacket]

/-- What `clear_handled_packet` takes off: whole packets, or also the front of the one
    behind them. -/
theorem clearHandledPacket_eq_some {stored kept : List Packet} {count : ℕ} {next : Int32} :
    clearHandledPacket stored count next = some kept ↔ count ≤ stored.length ∧
      (next = 0 ∧ kept = stored.drop count ∨ ∃ pkg rest, next ≠ 0 ∧
        stored.drop count = pkg :: rest ∧ kept = { pkg with
          buf := pkg.buf + next.toInt
          len := pkg.len - next.toUInt32 } :: rest) := by
  unfold clearHandledPacket
  constructor
  · intro h
    split at h
    case isFalse => cases h
    case isTrue hle =>
      refine ⟨hle, ?_⟩
      split at h
      · rename_i h0
        cases h
        exact .inl ⟨h0, rfl⟩
      · rename_i h0
        split at h
        · cases h
        · rename_i pkg rest hd
          cases h
          exact .inr ⟨pkg, rest, h0, hd, rfl⟩
  · rintro ⟨hle, ⟨rfl, rfl⟩ | ⟨pkg, rest, h0, hd, rfl⟩⟩
    · rw [if_pos hle, if_pos rfl]
    · rw [if_pos hle, if_neg h0, hd]

/-- A packet whose first `n` bytes were released. -/
def Packet.trim (p : Packet) (n : ℕ) : Packet :=
  { p with buf := p.buf + n, len := p.len - UInt32.ofNat n }

/-- The front of a packet that `clear_handled_packet` takes off. -/
theorem Packet.trim_eq (p : Packet) {next : Int32} {n : ℕ} (hn : next.toInt = n) :
    { p with buf := p.buf + next.toInt, len := p.len - next.toUInt32 } = p.trim n := by
  rw [trim, hn, toUInt32_of_toInt hn]

theorem Packet.trim_len {p : Packet} {n : ℕ} (h : n ≤ p.len.toNat) :
    (p.trim n).len.toNat = p.len.toNat - n := by
  have hp := p.len.toNat_lt
  simp only [trim, UInt32.toNat_sub, UInt32.toNat_ofNat']
  omega

theorem Packet.trim_bytes {p : Packet} {n : ℕ} (hp : p.Ok) (h : n ≤ p.len.toNat) :
    (p.bufKeeper.drop p.buf.toNat).take n ++ (p.trim n).bytes = p.bytes := by
  have hb : (p.trim n).buf.toNat = p.buf.toNat + n := by
    have := hp.1
    simp only [trim]; omega
  simp only [bytes, trim_len h, hb]
  simp only [trim, ← List.drop_drop]
  rw [← List.take_add]
  congr 1
  omega

theorem Packet.trim_ok {p : Packet} {n : ℕ} (hp : p.Ok) (h : n ≤ p.len.toNat) :
    (p.trim n).Ok := by
  obtain ⟨h0, h1⟩ := hp
  constructor
  · simp only [trim]; omega
  · rw [trim_len h]; simp only [trim]; omega

/-- A packet that a release left: its start may have moved forward, its end has
    not moved. -/
def Packet.Shrinks (p q : Packet) : Prop :=
  q.bufKeeper = p.bufKeeper ∧ p.buf ≤ q.buf ∧ q.len ≤ p.len ∧
    q.buf + (q.len.toNat : ℤ) = p.buf + (p.len.toNat : ℤ)

theorem Packet.shrinks_refl (p : Packet) : p.Shrinks p := ⟨rfl, le_rfl, UInt32.le_refl _, rfl⟩

theorem Packet.shrinks_trim {p : Packet} {n : ℕ} (h : n ≤ p.len.toNat) : p.Shrinks (p.trim n) := by
  have hl := trim_len h
  refine ⟨rfl, ?_, ?_, ?_⟩
  · simp only [trim]; omega
  · rw [UInt32.le_iff_toNat_le]; omega
  · rw [hl]; simp only [trim]; omega

/-- What `prepare_transfer_packet` selected and `clear_handled_packet` left of
    the queue `stored`, to which packets may have been appended in between. -/
structure Split (stored : List Packet) (r : Prepared) (kept : List Packet) : Prop where
  cleared : ∀ appended, clearHandledPacket (stored ++ appended) r.handledPkgCount
    r.nextPkgUsedSize = some (kept ++ appended)
  shrinks : ∀ appended, List.Forall₂ Packet.Shrinks
    ((stored ++ appended).drop r.handledPkgCount) (kept ++ appended)
  inside : List.Forall₂ ConstBuffer.Inside r.writeBuffers (stored.take r.writeBuffers.length)
  bytes : (∀ p ∈ stored, p.Ok) → r.bytes ++ storedBytes kept = storedBytes stored
  ok : (∀ p ∈ stored, p.Ok) → ∀ p ∈ kept, p.Ok

theorem split_nil {r : Prepared} (hb : r.writeBuffers = []) (hc : r.handledPkgCount = 0)
    (hn : r.nextPkgUsedSize = 0) (stored : List Packet) : Split stored r stored where
  cleared appended := by simp [clearHandledPacket, hc, hn]
  shrinks appended := by
    rw [hc, List.drop_zero]
    exact List.forall₂_same.2 fun p _ => p.shrinks_refl
  inside := by simp [hb]
  bytes _ := by simp [Prepared.bytes, hb]
  ok h := h

/-- The last packet is cut after `n` of its bytes. -/
theorem split_cut {r : Prepared} {p : Packet} {next : Int32} {n : ℕ}
    (hb : r.writeBuffers = [⟨p.buf, toSize next, p.bufKeeper⟩]) (hc : r.handledPkgCount = 0)
    (hr : r.nextPkgUsedSize = next) (h0 : next ≠ 0) (hn : next.toInt = n)
    (hle : n ≤ p.len.toNat) (stored : List Packet) :
    Split (p :: stored) r (p.trim n :: stored) := by
  have hs : (toSize next).toNat = n := by
    have := toSize_nonneg (n := next) (by omega)
    omega
  refine ⟨fun appended => ?_, fun appended => ?_, ?_, fun h => ?_, fun h q hq => ?_⟩
  · rw [hc, hr, clearHandledPacket_eq_some]
    exact ⟨Nat.zero_le _, .inr ⟨p, stored ++ appended, h0, rfl, by rw [p.trim_eq hn]; rfl⟩⟩
  · rw [hc, List.drop_zero]
    exact .cons (Packet.shrinks_trim hle) (List.forall₂_same.2 fun p _ => p.shrinks_refl)
  · simp only [hb, List.length_singleton, List.take_succ_cons, List.take_zero,
      List.forall₂_cons]
    refine ⟨⟨rfl, le_rfl, ?_⟩, .nil⟩
    simp only [hs]; omega
  · have hp := Packet.trim_bytes (h p (by simp)) hle
    simp only [Prepared.bytes, hb, List.flatMap_cons, List.flatMap_nil, List.append_nil,
      ConstBuffer.bytes, hs, storedBytes]
    rw [← List.append_assoc, hp]
  · rcases List.mem_cons.1 hq with rfl | hq
    · exact Packet.trim_ok (h p (by simp)) hle
    · exact h q (by simp [hq])

/-- One more packet is released whole. -/
theorem Split.cons {stored kept : List Packet} {r : Prepared} (h : Split stored r kept)
    (p : Packet) : Split (p :: stored)
      { r with
        writeBuffers := ⟨p.buf, p.len.toUInt64, p.bufKeeper⟩ :: r.writeBuffers
        handledPkgCount := r.handledPkgCount + 1 } kept where
  cleared appended := by simpa using h.cleared appended
  shrinks appended := by simpa using h.shrinks appended
  inside := by
    simp only [List.length_cons, List.take_succ_cons, List.forall₂_cons]
    exact ⟨⟨rfl, le_rfl, by simp⟩, h.inside⟩
  bytes hok := by
    have := h.bytes fun q hq => hok q (by simp [hq])
    simp only [Prepared.bytes, storedBytes, List.flatMap_cons, List.append_assoc] at this ⊢
    rw [this]
    simp [ConstBuffer.bytes, Packet.bytes]
  ok hok := h.ok fun q hq => hok q (by simp [hq])

/-- **Release splits the queue.** -/
theorem transfer_split (head : ResponseHead) {stored : List Packet} {handled : UInt64}
    (h : CutInside head.handledTotalPkgLen handled stored) :
    ∃ kept, Split stored (prepareTransferPacket head stored handled) kept := by
  induction stored generalizing handled with
  | nil => exact ⟨[], split_nil rfl rfl rfl []⟩
  | cons p stored ih =>
    simp only [CutInside] at h
    simp only [prepareTransferPacket]
    split at h
    · rename_i hcut
      rw [if_pos hcut]
      split
      · rename_i h0
        exact ⟨_, split_nil rfl rfl h0 _⟩
      · rename_i h0
        refine ⟨_, split_cut rfl rfl rfl h0 ?_ h.2 stored⟩
        exact toInt_small h.1
    · rename_i hcut
      rw [if_neg hcut]
      obtain ⟨kept, hk⟩ := ih h
      exact ⟨kept, hk.cons p⟩

end CppProxy
