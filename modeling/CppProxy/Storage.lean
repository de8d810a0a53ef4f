/-
  cpp_proxy — the queue of a session and the memory of its packets.

  A session keeps with each stored packet the bytes that were received.  The code
  keeps a position in a block that later reads go on to fill.

  * `Memory.Holds`: the queue, the block and the counter of a session are those of
    the memory;
  * `Holds.startRead`, `Holds.store`, `Holds.select`, `Holds.released`,
    `Holds.flushed`, `Holds.reset`: the functions of the session do to its queue what
    they do to the memory.
-/
import CppProxy.Frame
import CppProxy.Memory
import CppProxy.Totals

namespace CppProxy

open Session

/-- The memory holds the bytes of a packet. -/
structure Memory.HoldsPacket (m : Memory) (p : MemPacket) (q : Packet) : Prop where
  len : p.len = q.len
  bytes : m.bytes p = q.bytes
  ok : q.Ok

/-- The memory holds the packets of a direction, in the block and with the counter of
    the relay. -/
structure Memory.Holds (m : Memory) (w : Way) : Prop where
  stored : List.Forall₂ m.HoldsPacket m.storedData w.storedData
  block : m.block.map (fun k => (m.blocks k).toDataBlock) = w.block
  counter : m.handledTotalPkgLen = w.handledTotalPkgLen

/-- What is selected depends on the lengths only. -/
theorem prepareTransferPacket_congr (head : ResponseHead) {ps qs : List Packet}
    (h : List.Forall₂ (fun p q => p.len = q.len) ps qs) : ∀ handled : UInt64,
    (prepareTransferPacket head ps handled).handledPkgCount =
      (prepareTransferPacket head qs handled).handledPkgCount ∧
    (prepareTransferPacket head ps handled).nextPkgUsedSize =
      (prepareTransferPacket head qs handled).nextPkgUsedSize ∧
    (prepareTransferPacket head ps handled).handledTotalPkgLen =
      (prepareTransferPacket head qs handled).handledTotalPkgLen := by
  induction h with
  | nil => exact fun _ => ⟨rfl, rfl, rfl⟩
  | @cons p q ps qs hpq _ ih =>
    intro handled
    simp only [prepareTransferPacket, hpq]
    split
    · split <;> exact ⟨rfl, rfl, rfl⟩
    · obtain ⟨h1, h2, h3⟩ := ih (handled + q.len.toUInt64)
      exact ⟨congrArg (· + 1) h1, h2, h3⟩

/-- The bytes of a packet behind the first `next`. -/
theorem Packet.bytes_cut {p : Packet} (hp : p.Ok) {next : Int32} (h0 : 0 ≤ next.toInt)
    (hle : next.toInt ≤ p.len.toNat) :
    Packet.bytes { p with buf := p.buf + next.toInt, len := p.len - next.toUInt32 } =
        p.bytes.drop next.toInt.toNat ∧
      Packet.Ok { p with buf := p.buf + next.toInt, len := p.len - next.toUInt32 } := by
  rw [p.trim_eq (Int.toNat_of_nonneg h0).symm]
  have hle' : next.toInt.toNat ≤ p.len.toNat := by omega
  have hlen : ((p.bufKeeper.drop p.buf.toNat).take next.toInt.toNat).length = next.toInt.toNat := by
    have := hp.2
    rw [List.length_take, List.length_drop]
    omega
  refine ⟨?_, p.trim_ok hp hle'⟩
  rw [← p.trim_bytes hp hle', List.drop_left' hlen]

namespace Memory.Holds

variable {m m' : Memory} {s : Session} {d : Dir} {type : DataType}

/-- The bytes of the packets stay. -/
theorem stored_congr {ps : List MemPacket} {qs : List Packet} (h : List.Forall₂ m.HoldsPacket ps qs)
    (hb : ∀ p ∈ ps, m'.bytes p = m.bytes p) : List.Forall₂ m'.HoldsPacket ps qs :=
  h.imp_mem fun p hp _ _ hpq => ⟨hpq.len, (hb p hp).trans hpq.bytes, hpq.ok⟩

/-- `inner_client_or_server_2proxy_2process` up to the read. -/
theorem startRead (h : m.Holds (s.way d)) (hm : m.Sound) :
    m.startRead.Holds ((s.innerClientOrServer2proxy2process d).way d) := by
  obtain ⟨fs, hfs, ht⟩ := hm.tails
  have hnew : ∀ {w : Way}, w.storedData = (s.way d).storedData → w.block = some .fresh →
      w.handledTotalPkgLen = (s.way d).handledTotalPkgLen →
      (m.makeBlock.asyncRead m.nBlocks).Holds w := by
    intro w hs hb hc
    refine ⟨hs ▸ stored_congr h.stored fun p hp => ?_, ?_, h.counter.trans hc.symm⟩
    · obtain ⟨f, hf, htf⟩ := ht.exists_left hp
      exact hm.bytes_makeBlock (hfs.subset hf) htf
    · show some (m.makeBlock.blocks m.nBlocks).toDataBlock = _
      rw [makeBlock_new, hb]
      rfl
  have hkeep : ∀ {k : ℕ} {w : Way}, m.block = some k → w.storedData = (s.way d).storedData →
      w.block = some (m.blocks k).toDataBlock →
      w.handledTotalPkgLen = (s.way d).handledTotalPkgLen → (m.asyncRead k).Holds w :=
    fun hk hs hb hc => ⟨hs ▸ stored_congr h.stored fun _ _ => rfl,
      by rw [hb, asyncRead, hk]; rfl, h.counter.trans hc.symm⟩
  unfold Session.innerClientOrServer2proxy2process Memory.startRead
  have hblock := h.block
  cases hk : m.block with
  | none =>
    rw [hk] at hblock
    dsimp only
    rw [← hblock]
    exact hnew (by simp [setWay]) (by simp [setWay]) (by simp [setWay])
  | some k =>
    rw [hk] at hblock
    dsimp only
    rw [← hblock]
    dsimp only [Option.map_some]
    split
    · exact hnew (by simp [setWay]) (by simp [setWay]) (by simp [setWay])
    · exact hkeep hk (by simp [setWay]) (by simp [setWay]) (by simp [setWay])

/-- A read is stored. -/
theorem store (h : m.Holds (s.way d)) (hm : m.Sound) {r : Reading} (hr : m.reading = some r)
    {data : List Byte} (hb : data.length ≤ (r.available - 5).toNat) :
    (m.store type r data).Holds ((s.writeProcess d data).way d) := by
  obtain ⟨k, hk, -, -, -, hlen, -⟩ := hm.fits hr hb
  obtain ⟨-, hblock, -, hstored, hframes⟩ := store_rest hk type r data
  obtain ⟨fs, hfs, ht⟩ := hm.tails
  have hsize : defaultBlockSize.toNat = 2097152 := rfl
  have hw : ((s.writeProcess d data).way d).storedData =
      (s.way d).storedData ++ [Packet.ofData data] ∧
      ((s.writeProcess d data).way d).block =
        (s.way d).block.map (fun b => b.updateAvailable (UInt32.ofNat data.length + 5)) ∧
      ((s.writeProcess d data).way d).handledTotalPkgLen = (s.way d).handledTotalPkgLen := by
    unfold Session.writeProcess
    dsimp only
    split <;> simp [setWay, setLink, emit]
  obtain ⟨hws, hwb, hwc⟩ := hw
  have hnew : m.store type r data |>.HoldsPacket ⟨r.dataPos + 5, UInt32.ofNat data.length, k⟩
      (Packet.ofData data) := by
    have hfit : data.length < 2 ^ 32 := by omega
    refine ⟨rfl, ?_, Packet.ofData_ok hfit⟩
    have htail : MemPacket.TailOf ⟨r.dataPos + 5, UInt32.ofNat data.length, k⟩
        ⟨k, r.dataPos, data⟩ := by
      refine ⟨rfl, le_rfl, ?_⟩
      simp only [FrameAt.size, frameHeadLen, UInt32.toNat_ofNat']
      omega
    have hlaid := (hm.toLaid.store type hr hb).1
    have hmem : (⟨k, r.dataPos, data⟩ : FrameAt) ∈ (m.store type r data).frames := by
      rw [hframes]
      simp
    have hsuf := hlaid.bytes_suffix hmem htail
    obtain ⟨-, -, -, hok, -⟩ := hlaid.view_ok hmem htail
    rw [Packet.ofData_bytes hfit]
    refine hsuf.eq_of_length ?_
    rw [Memory.bytes, hok.length]
    simp only [view, UInt32.toNat_ofNat']
    omega
  refine ⟨?_, ?_, ?_⟩
  · rw [hws, hstored]
    refine List.rel_append (stored_congr h.stored fun p hp => ?_) (.cons hnew .nil)
    obtain ⟨f, hf, htf⟩ := ht.exists_left hp
    exact hm.bytes_store hr hb (hfs.subset hf) htf
  · rw [hwb, hblock, ← h.block, hk, Option.map_some, Option.map_some, Option.map_some,
      store_new hk]
    rfl
  · rw [hwc, ← h.counter]
    simp only [Memory.store, hk]

/-- A release selects as much of the queue as of the memory. -/
theorem select (h : m.Holds (s.way d)) {i conn : ℕ} {head : ResponseHead}
    (hpass : head.act ≠ Action.block.code) :
    (m.select head).Holds ((s.actOnHead i d conn head).way d) ∧
      ∃ r w, (m.select head).releases = m.releases ++ [r] ∧
        ((s.actOnHead i d conn head).readers i).pc =
          .release d r.handledPkgCount r.nextPkgUsedSize w := by
  have hlens : List.Forall₂ (fun p q => p.len = q.len) (m.storedData.map m.view)
      (s.way d).storedData :=
    List.forall₂_map_left_iff.2 (h.stored.imp fun _ _ hpq => hpq.len)
  obtain ⟨hcount, hnext, hhandled⟩ :=
    prepareTransferPacket_congr head hlens m.handledTotalPkgLen
  rw [h.counter] at hcount hnext hhandled
  let r := prepareTransferPacket head (s.way d).storedData (s.way d).handledTotalPkgLen
  have hway : (s.actOnHead i d conn head).way d =
      { s.way d with handledTotalPkgLen := r.handledTotalPkgLen } := by
    rw [actOnHead, if_neg hpass]
    exact Function.update_self _ _ _
  have hpc : ((s.actOnHead i d conn head).readers i).pc =
      .release d r.handledPkgCount r.nextPkgUsedSize (s.asyncWrite d r.bytes) := by
    simp [r, actOnHead, hpass, setReader, asyncWrite]
  rw [hway]
  refine ⟨⟨stored_congr h.stored fun _ _ => rfl, h.block, ?_⟩, _, s.asyncWrite d r.bytes, rfl, ?_⟩
  · rw [← hhandled, ← h.counter]
    rfl
  · rw [hpc, ← hcount, ← hnext, ← h.counter]

/-- The packets are taken off the queue. -/
theorem clear {w : Way} (h : m.Holds w) (hm : m.Sound) {count : ℕ} {next : Int32}
    {kept : List MemPacket} (hc : clearPackets m.storedData count next = some kept)
    (hf : Fits m.storedData count next) :
    ∃ kept', clearHandledPacket w.storedData count next = some kept' ∧
      ({ m with storedData := kept } : Memory).Holds { w with storedData := kept' } := by
  have hd := List.forall₂_drop count h.stored
  obtain ⟨hle, hkept⟩ := clearPackets_eq_some.1 hc
  rw [h.stored.length_eq] at hle
  rcases hkept with ⟨h0, rfl⟩ | ⟨pkg, rest, h0, heq, rfl⟩
  · exact ⟨_, clearHandledPacket_eq_some.2 ⟨hle, .inl ⟨h0, rfl⟩⟩,
      stored_congr hd fun _ _ => rfl, h.block, h.counter⟩
  · rw [heq] at hd
    obtain ⟨q, qs, hpq, hrest, hq⟩ := List.forall₂_cons_left_iff.1 hd
    obtain ⟨hn, hlen⟩ := hf pkg (by rw [heq]; rfl)
    have hmem : pkg ∈ m.storedData := List.drop_subset count _ (heq ▸ List.mem_cons_self)
    have hok := (hm.views_ok _ (List.mem_map_of_mem hmem)).1
    obtain ⟨hbytes, -⟩ := Packet.bytes_cut (p := m.view pkg) hok hn hlen
    obtain ⟨hbytes', hok'⟩ := Packet.bytes_cut hpq.ok hn (hpq.len ▸ hlen)
    refine ⟨_, clearHandledPacket_eq_some.2 ⟨hle, .inr ⟨q, qs, h0, hq, rfl⟩⟩,
      .cons ⟨by rw [hpq.len], ?_, hok'⟩ (stored_congr hrest fun _ _ => rfl), h.block, h.counter⟩
    rw [hbytes', ← hpq.bytes]
    exact hbytes

/-- The write of a release is done. -/
theorem released (h : m.Holds (s.way d)) (hm : m.Sound) {i count : ℕ} {next : Int32}
    {kept : List MemPacket} (hc : clearPackets m.storedData count next = some kept)
    (hf : Fits m.storedData count next) :
    ({ m with storedData := kept } : Memory).Holds ((s.clearReleased i d count next).way d) := by
  obtain ⟨kept', hc', hk⟩ := h.clear hm hc hf
  have hway : (s.clearReleased i d count next).way d = { s.way d with storedData := kept' } := by
    simp only [Session.clearReleased, hc', readHead, noteRead]
    split <;> simp [setReader, setStored, setWay, setLink]
  rw [hway]
  exact hk

/-- A flush is done. -/
theorem flushed (h : m.Holds (s.way d)) (w : PeerWrite) :
    ({ m with storedData := [] } : Memory).Holds ((s.clearFlushed d w).way d) := by
  have hway : (s.clearFlushed d w).way d = { s.way d with storedData := [] } := by
    simp [Session.clearFlushed, setStored, setWay, emit]
  rw [hway]
  exact ⟨.nil, h.block, h.counter⟩

/-- `connect_process` starts over: the counter is zeroed, unless it is under way. -/
theorem reset (h : m.Holds (s.way d)) (gen : ℕ) :
    m.Holds ((s.connectProcess gen).way d) ∨
      ({ m with handledTotalPkgLen := 0 } : Memory).Holds ((s.connectProcess gen).way d) := by
  rw [connectProcess_eq]
  split
  · exact .inl h
  · exact .inr ⟨stored_congr h.stored fun _ _ => rfl, h.block, rfl⟩

end Memory.Holds

end CppProxy
