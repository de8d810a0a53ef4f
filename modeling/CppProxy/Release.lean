/-
  cpp_proxy — one release step (session.hpp).

  `prepare_transfer_packet` and `clear_handled_packet` walk the same queue with
  different arithmetic: 64-bit sums, a cast to `int`, and a 32-bit subtraction.

  * `Queued`: the packets that `inner_client_or_server_2proxy_2process` stores,
    which are not empty and fit a block with their header;
  * `ReleaseStep`: the step splits the queue at the total;
  * `release_step`: so it does, for every total from the counter on.
-/
import CppProxy.Acks

namespace CppProxy

/-- A packet of a queue: it lies inside its memory, holds a byte at least and
    fits a block behind a header. -/
structure Packet.Queued (p : Packet) : Prop where
  ok : p.Ok
  pos : 0 < p.len
  fits : p.len ≤ defaultBlockSize - 5

theorem Packet.Queued.len_pos {p : Packet} (h : p.Queued) : 0 < p.len.toNat :=
  UInt32.lt_iff_toNat_lt.1 h.pos

theorem Packet.Queued.len_lt {p : Packet} (h : p.Queued) : p.len.toNat < 2 ^ 31 := by
  have hle := UInt32.le_iff_toNat_le.1 h.fits
  have hsize : (defaultBlockSize - 5).toNat = 2097147 := rfl
  omega

/-- What is left of a packet that is cut. -/
theorem Packet.Queued.trim {p : Packet} (h : p.Queued) {n : ℕ} (hn : n < p.len.toNat) :
    (p.trim n).Queued := by
  have hlen := Packet.trim_len hn.le
  refine ⟨Packet.trim_ok h.ok hn.le, ?_, ?_⟩
  · rw [UInt32.lt_iff_toNat_lt, hlen]
    simp only [UInt32.toNat_zero]
    omega
  · refine UInt32.le_trans ?_ h.fits
    rw [UInt32.le_iff_toNat_le, hlen]
    omega

/-- One release step splits the queue `stored` at the total: `r` is what was
    selected, and `kept` is the queue that is left. -/
structure ReleaseStep (total handled : UInt64) (stored : List Packet) (r : Prepared)
    (kept : List Packet) : Prop where
  /-- the buffers hold the first bytes of the queue, up to the total -/
  bytes : r.bytes =
    (storedBytes stored).take (min (total.toNat - handled.toNat) (storedBytes stored).length)
  /-- no more packets are popped than exist -/
  count : r.handledPkgCount ≤ stored.length
  /-- when all are popped, none is trimmed -/
  all : r.handledPkgCount = stored.length → r.nextPkgUsedSize = 0
  /-- the cast to `int` is exact, and less than the packet is trimmed -/
  trims : ∀ p ∈ stored[r.handledPkgCount]?,
    r.nextPkgUsedSize.toInt = (total.toNat : ℤ) - r.handledTotalPkgLen.toNat ∧
      0 ≤ r.nextPkgUsedSize.toInt ∧ r.nextPkgUsedSize.toInt < p.len.toNat
  /-- the queue that is left holds the other bytes -/
  clears : clearHandledPacket stored r.handledPkgCount r.nextPkgUsedSize = some kept
  rest : storedBytes kept =
    (storedBytes stored).drop (min (total.toNat - handled.toNat) (storedBytes stored).length)
  queued : ∀ p ∈ kept, p.Queued

section

variable {stored kept : List Packet} {r : Prepared} {total handled : UInt64}

/-- A packet of the queue ends within the queue. -/
theorem storedLen_take_succ {k : ℕ} {p : Packet} (hp : stored[k]? = some p) :
    storedLen (stored.take (k + 1)) = storedLen (stored.take k) + p.len.toNat := by
  rw [List.take_add_one, hp, storedLen_append]
  simp

/-- The packet that the step stops at: the total is inside it. -/
theorem Advance.trims (h : Advance total handled stored r) {p : Packet}
    (hp : stored[r.handledPkgCount]? = some p) (hpos : 0 < p.len.toNat) :
    r.nextPkgUsedSize.toInt = (total.toNat : ℤ) - r.handledTotalPkgLen.toNat ∧
      r.nextPkgUsedSize.toInt < p.len.toNat := by
  have hreach := h.reach
  have hcounter := h.counter
  have hend := storedLen_take_succ hp
  have hle := storedLen_take_le stored (r.handledPkgCount + 1)
  by_cases h0 : r.nextPkgUsedSize = 0
  · -- the counter is at the total, since the queue goes on
    rw [h0, Int32.toInt_zero] at hreach ⊢
    omega
  · have hin := h.inside h0
    omega

/-- The step took all packets. -/
theorem Advance.all (h : Advance total handled stored r)
    (hc : r.handledPkgCount = stored.length) : r.nextPkgUsedSize = 0 := by
  have hreach := h.reach
  have hcounter := h.counter
  have hnext := h.next
  rw [hc, List.take_length] at hcounter
  refine Int32.toInt_inj.1 ?_
  rw [Int32.toInt_zero]
  omega

/-- The queue that is left holds packets of the queue, and what is left of the
    one that was trimmed. -/
theorem queued_clear (hq : ∀ p ∈ stored, p.Queued) {next : Int32} {count : ℕ}
    (h0 : 0 ≤ next.toInt) (hlt : ∀ p ∈ stored[count]?, next.toInt < p.len.toNat)
    (hc : clearHandledPacket stored count next = some kept) : ∀ p ∈ kept, p.Queued := by
  obtain ⟨-, ⟨-, rfl⟩ | ⟨p, rest, -, hd, rfl⟩⟩ := clearHandledPacket_eq_some.1 hc
  · intro p hp
    exact hq p (List.mem_of_mem_drop hp)
  · have hp : stored[count]? = some p := by
      rw [← Nat.add_zero count, ← List.getElem?_drop, hd]
      rfl
    have hpm : p ∈ stored := List.mem_of_getElem? hp
    have hlt := hlt p hp
    obtain ⟨n, hn⟩ := Int.eq_ofNat_of_zero_le h0
    rw [p.trim_eq hn]
    intro q hqm
    rcases List.mem_cons.1 hqm with rfl | hqm
    · exact (hq p hpm).trim (by omega)
    · exact hq q (List.mem_of_mem_drop (hd ▸ List.mem_cons_of_mem _ hqm))

end

/-- **One release step splits the queue** at the total, when no sum of the
    counter and the lengths wraps around. -/
theorem release_step (head : ResponseHead) (stored : List Packet) (handled : UInt64)
    (hq : ∀ p ∈ stored, p.Queued) (hle : handled ≤ head.handledTotalPkgLen)
    (hn : NoWrap head.handledTotalPkgLen.toNat handled.toNat stored) :
    ∃ kept, ReleaseStep head.handledTotalPkgLen handled stored
      (prepareTransferPacket head stored handled) kept := by
  have hok : ∀ p ∈ stored, p.Ok := fun p hp => (hq p hp).ok
  have hlt : ∀ p ∈ stored, p.len.toNat < 2 ^ 31 := fun p hp => (hq p hp).len_lt
  have ha := advance head hok hlt hle hn
  obtain ⟨kept, hk⟩ := transfer_split head (cutInside_of_le hlt hle)
  generalize prepareTransferPacket head stored handled = r at ha hk
  have hclear : clearHandledPacket stored r.handledPkgCount r.nextPkgUsedSize = some kept := by
    simpa using hk.cleared []
  have htrims : ∀ p ∈ stored[r.handledPkgCount]?,
      r.nextPkgUsedSize.toInt = (head.handledTotalPkgLen.toNat : ℤ) - r.handledTotalPkgLen.toNat ∧
        r.nextPkgUsedSize.toInt < p.len.toNat :=
    fun p hp => ha.trims hp (hq p (List.mem_of_getElem? hp)).len_pos
  have hsplit := hk.bytes hok
  have hlen : r.bytes.length = min (head.handledTotalPkgLen.toNat - handled.toNat)
      (storedBytes stored).length := by
    have hbytes := ha.bytes
    have hreach := ha.reach
    rw [UInt64.le_iff_toNat_le] at hle
    rw [storedBytes_length hok]
    omega
  refine ⟨kept, ?_, ?_, ha.all, fun p hp => ?_, hclear, ?_, ?_⟩
  · rw [← hlen, ← hsplit, List.take_left]
  · exact (clearHandledPacket_eq_some.1 hclear).1
  · exact ⟨(htrims p hp).1, ha.next, (htrims p hp).2⟩
  · rw [← hlen, ← hsplit, List.drop_left]
  · exact queued_clear hq ha.next (fun p hp => (htrims p hp).2) hclear

/-- The total ends inside the second of three packets. -/
theorem release_step_inside : ∃ kept, ReleaseStep 4 1
    [Packet.ofData [1, 2], Packet.ofData [3, 4, 5], Packet.ofData [6]]
    (prepareTransferPacket { type := 0, act := 0, handledTotalPkgLen := 4 }
      [Packet.ofData [1, 2], Packet.ofData [3, 4, 5], Packet.ofData [6]] 1) kept := by
  refine release_step { type := 0, act := 0, handledTotalPkgLen := 4 } _ 1 ?_ (by decide)
    fun m _ => ?_
  · intro p hp
    simp only [List.mem_cons, List.not_mem_nil, or_false] at hp
    rcases hp with rfl | rfl | rfl <;> exact ⟨Packet.ofData_ok (by decide), by decide, by decide⟩
  · have hle := storedLen_take_le
      [Packet.ofData [1, 2], Packet.ofData [3, 4, 5], Packet.ofData [6]] (m + 1)
    have htotal : storedLen
      [Packet.ofData [1, 2], Packet.ofData [3, 4, 5], Packet.ofData [6]] = 6 := by decide
    have hone : (1 : UInt64).toNat = 1 := rfl
    omega

end CppProxy
