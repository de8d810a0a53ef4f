/-
  cpp_proxy — the memory of the stored packets (data_block.hpp, session.hpp).

  A relay reads a payload into its block, behind five bytes that it leaves for the
  head of the frame, and stores a packet that points at the payload.  A block with
  less than 69 bytes left is replaced, and lives on while a packet keeps it.  A
  release selects packets, writes them, and then takes off the queue what it had
  counted; a flush writes the queue and clears it.

  * `Memory`: the blocks, the queue and the operations of one direction;
  * `Memory.Intact`: no two ranges meet, and a packet holds what was received;
  * `Memory.ReleasesAlone`: nothing is taken off the queue while another release
    that selected packets awaits its write;
  * `intact_of_releasesAlone`: then the memory stays intact.
-/
import CppProxy.Lib.Ranges
import CppProxy.Lib.Related
import CppProxy.Lib.Runs
import CppProxy.Process
import CppProxy.Session

namespace CppProxy

open Runs Ranges

/-! ## Blocks and packets -/

/-- A `data_block` with its `buffer_`. -/
structure MemBlock extends DataBlock where
  buffer : ℕ → Byte

/-- `std::make_shared<data_block>(default_block_size)`. -/
def MemBlock.fresh : MemBlock := ⟨DataBlock.fresh, fun _ => 0⟩

/-- `bytes` were put behind the five bytes at `dataPos`: they are counted, and the head
    of their frame is written. -/
def MemBlock.store (b : MemBlock) (type : DataType) (dataPos : ℕ) (bytes : List Byte) : MemBlock where
  toDataBlock := b.updateAvailable (UInt32.ofNat bytes.length + 5)
  buffer := write (write b.buffer (dataPos + 5) bytes) dataPos
    (type.code :: Bytes.le 4 bytes.length)

/-- A `packet`: `buf` is a position in the block number `bufKeeper`. -/
structure MemPacket where
  buf : ℤ
  len : UInt32
  bufKeeper : ℕ
deriving DecidableEq, Repr

/-- A frame in a block: its head at `pos` and `data` behind it, as it was received. -/
structure FrameAt where
  block : ℕ
  pos : ℕ
  data : List Byte
deriving DecidableEq, Repr

/-- The bytes that a frame takes up in its block. -/
def FrameAt.size (f : FrameAt) : ℕ := frameHeadLen + f.data.length

/-- `async_read_some` in progress, with the local variables `data_pos` and
    `available`. -/
structure Reading where
  dataPos : ℕ
  available : UInt32
deriving DecidableEq, Repr

/-- A release that awaits its write, with what it writes. -/
structure Release where
  handledPkgCount : ℕ
  nextPkgUsedSize : Int32
  bytes : List Byte
deriving DecidableEq, Repr

/-- The release will take something off the queue. -/
def Release.Selects (r : Release) : Prop := r.handledPkgCount ≠ 0 ∨ r.nextPkgUsedSize ≠ 0

instance (r : Release) : Decidable r.Selects := inferInstanceAs (Decidable (_ ∨ _))

/-- The memory of one direction: all blocks, numbered in the order they were made,
    the variable `block` of the relay, the queue and its counter, and the operations
    in progress.  `frames` only records what was received, and `undefined` that a
    function did what has no meaning. -/
structure Memory where
  blocks : ℕ → MemBlock := fun _ => .fresh
  nBlocks : ℕ := 0
  block : Option ℕ := none
  reading : Option Reading := none
  storedData : List MemPacket := []
  handledTotalPkgLen : UInt64 := 0
  releases : List Release := []
  flushes : ℕ := 0
  undefined : Bool := false
  frames : List FrameAt := []

/-- A read starts or ends; a release selects up to the total of a head, or its write
    ends; a flush starts, or its write ends; `connect_process` zeroes the counter. -/
inductive MemEvent
  | startRead
  | readDone (bytes : List Byte)
  | readEof (bytes : List Byte)
  | readError
  | select (head : ResponseHead)
  | written (i : ℕ)
  | writeFailed (i : ℕ)
  | startFlush
  | flushed
  | flushFailed
  | reset
deriving DecidableEq, Repr

/-- `clear_handled_packet` on the queue; `none` when it pops or reads the front of an
    empty deque. -/
def clearPackets (stored : List MemPacket) (handledPkgCount : ℕ) (nextPkgUsedSize : Int32) :
    Option (List MemPacket) :=
  if handledPkgCount ≤ stored.length then
    if nextPkgUsedSize = 0 then some (stored.drop handledPkgCount)
    else match stored.drop handledPkgCount with
      | [] => none
      | pkg :: rest => some ({ pkg with
          buf := pkg.buf + nextPkgUsedSize.toInt
          len := pkg.len - nextPkgUsedSize.toUInt32 } :: rest)
  else none

namespace Memory

variable (m : Memory)

/-- A packet with the memory that it points into. -/
def view (p : MemPacket) : Packet :=
  ⟨p.buf, p.len, read (m.blocks p.bufKeeper).buffer 0 (m.blocks p.bufKeeper).capacity.toNat⟩

/-- `block` is a new one. -/
def makeBlock : Memory :=
  { m with
    blocks := Function.update m.blocks m.nBlocks .fresh
    nBlocks := m.nBlocks + 1
    block := some m.nBlocks }

/-- `async_read_some(asio::buffer(data_pos + 5, available - 5))`. -/
def asyncRead (k : ℕ) : Memory :=
  { m with reading := some ⟨(m.blocks k).usedSize.toNat, (m.blocks k).getAvailable⟩ }

/-- `inner_client_or_server_2proxy_2process` up to the read. -/
def startRead : Memory :=
  match m.block with
  | some k =>
    if (m.blocks k).getAvailable < 69 then m.makeBlock.asyncRead m.nBlocks else m.asyncRead k
  | none => m.makeBlock.asyncRead m.nBlocks

/-- The socket put `bytes` into the buffer of the read: the function stores them as a
    packet. -/
def store (type : DataType) (r : Reading) (bytes : List Byte) : Memory :=
  match m.block with
  | none => m
  | some k =>
    { m with
      blocks := Function.update m.blocks k ((m.blocks k).store type r.dataPos bytes)
      reading := none
      storedData := m.storedData ++ [⟨r.dataPos + 5, UInt32.ofNat bytes.length, k⟩]
      frames := m.frames ++ [⟨k, r.dataPos, bytes⟩] }

/-- `inner_proxy_2client_or_2server` on a pass head, up to the write. -/
def select (head : ResponseHead) : Memory :=
  let stored := m.storedData.map m.view
  let r := prepareTransferPacket head stored m.handledTotalPkgLen
  let inside := decide (CutInside head.handledTotalPkgLen m.handledTotalPkgLen stored)
  { m with
    undefined := m.undefined || !inside
    handledTotalPkgLen := r.handledTotalPkgLen
    releases := m.releases ++ [⟨r.handledPkgCount, r.nextPkgUsedSize, r.bytes⟩] }

/-- The write of a release is done. -/
def clearReleased (i : ℕ) (r : Release) : Memory :=
  let m := { m with releases := m.releases.eraseIdx i }
  match clearPackets m.storedData r.handledPkgCount r.nextPkgUsedSize with
  | some storedData => { m with storedData }
  | none => { m with undefined := true }

def step (type : DataType) : MemEvent → Option Memory
  | .startRead => if m.reading = none then some m.startRead else none
  | .readDone bytes =>
    match m.reading with
    | some r => if bytes.length ≤ (r.available - 5).toNat then some (m.store type r bytes) else none
    | none => none
  | .readEof bytes =>
    match m.reading with
    | some r =>
      if bytes = [] then some { m with reading := none }
      else if bytes.length ≤ (r.available - 5).toNat then some (m.store type r bytes)
      else none
    | none => none
  | .readError => if m.reading = none then none else some { m with reading := none }
  | .select head => some (m.select head)
  | .written i => m.releases[i]?.map fun r => m.clearReleased i r
  | .writeFailed i =>
    if i < m.releases.length then some { m with releases := m.releases.eraseIdx i } else none
  | .startFlush => if m.storedData = [] then none else some { m with flushes := m.flushes + 1 }
  | .flushed =>
    if m.flushes = 0 then none else some { m with flushes := m.flushes - 1, storedData := [] }
  | .flushFailed => if m.flushes = 0 then none else some { m with flushes := m.flushes - 1 }
  | .reset => some { m with handledTotalPkgLen := 0 }

/-- The total of a head is at least the counter. -/
def AtLeast : MemEvent → Prop
  | .select head => m.handledTotalPkgLen ≤ head.handledTotalPkgLen
  | _ => True

/-- A release that takes something off the queue, or a flush, is done while no other
    release that selected packets awaits its write. -/
def ReleasesAlone : MemEvent → Prop
  | .written i => ∀ r, m.releases[i]? = some r → r.Selects →
      ∀ r' ∈ m.releases.eraseIdx i, ¬ r'.Selects
  | .flushed => ∀ r ∈ m.releases, ¬ r.Selects
  | _ => True

instance : ∀ e, Decidable (m.AtLeast e)
  | .select _ => inferInstanceAs (Decidable (_ ≤ _))
  | .startRead | .readDone _ | .readEof _ | .readError | .written _ | .writeFailed _
  | .startFlush | .flushed | .flushFailed | .reset => inferInstanceAs (Decidable True)

instance : ∀ e, Decidable (m.ReleasesAlone e)
  | .written i => inferInstanceAs (Decidable (∀ r, m.releases[i]? = some r → r.Selects →
      ∀ r' ∈ m.releases.eraseIdx i, ¬ r'.Selects))
  | .flushed => inferInstanceAs (Decidable (∀ _ ∈ _, _))
  | .startRead | .readDone _ | .readEof _ | .readError | .select _ | .writeFailed _
  | .startFlush | .flushFailed | .reset => inferInstanceAs (Decidable True)

/-! ## Intact memory -/

/-- The bytes that a packet points at. -/
def bytes (p : MemPacket) : List Byte := (m.view p).bytes

/-- The bytes of a queue. -/
def bytesOf (stored : List MemPacket) : List Byte := stored.flatMap m.bytes

/-- **Packet memory is never shared or overwritten.** -/
structure Intact : Prop where
  defined : m.undefined = false
  used : ∀ k < m.nBlocks, (m.blocks k).usedSize ≤ (m.blocks k).capacity
  room : ∀ r, m.reading = some r → ∃ k, m.block = some k ∧ r.dataPos = (m.blocks k).usedSize.toNat ∧
    64 ≤ (r.available - 5).toNat ∧
    r.dataPos + 5 + (r.available - 5).toNat = (m.blocks k).capacity.toNat
  inside : ∀ p ∈ m.storedData, p.bufKeeper < m.nBlocks ∧ 0 ≤ p.buf ∧
    p.buf.toNat + p.len.toNat ≤ (m.blocks p.bufKeeper).usedSize.toNat
  heads : ∀ p ∈ m.storedData, ∀ f ∈ m.frames, f.block = p.bufKeeper →
    Apart p.buf.toNat p.len.toNat f.pos frameHeadLen
  apart : m.frames.Pairwise fun f g => f.block = g.block → Apart f.pos f.size g.pos g.size
  unread : ∀ r k, m.reading = some r → m.block = some k → ∀ f ∈ m.frames, f.block = k →
    Apart f.pos f.size (r.dataPos + 5) (r.available - 5).toNat
  received : ∃ fs, fs <:+ m.frames ∧ List.Forall₂ (fun p f =>
    p.bufKeeper = f.block ∧ (p.buf + p.len.toNat : ℤ) = f.pos + f.size ∧
      m.bytes p <:+ f.data) m.storedData fs
  released : ∀ r ∈ m.releases, r.Selects → ∃ kept,
    clearPackets m.storedData r.handledPkgCount r.nextPkgUsedSize = some kept ∧
      r.bytes ++ m.bytesOf kept = m.bytesOf m.storedData

end Memory

/-! ## Taking packets off the queue -/

/-- The queue of packets is cleared like the queue of their views. -/
theorem clearPackets_view (m : Memory) (stored : List MemPacket) (count : ℕ) (next : Int32) :
    clearHandledPacket (stored.map m.view) count next =
      (clearPackets stored count next).map (List.map m.view) := by
  unfold clearHandledPacket clearPackets
  rw [List.length_map, ← List.map_drop]
  split
  · split
    · rfl
    · cases stored.drop count <;> rfl
  · rfl

/-- What is cleared: whole packets, or also the front of the packet behind them. -/
theorem clearPackets_eq_some {stored kept : List MemPacket} {count : ℕ} {next : Int32} :
    clearPackets stored count next = some kept ↔ count ≤ stored.length ∧
      (next = 0 ∧ kept = stored.drop count ∨ ∃ pkg rest, next ≠ 0 ∧
        stored.drop count = pkg :: rest ∧ kept = { pkg with
          buf := pkg.buf + next.toInt
          len := pkg.len - next.toUInt32 } :: rest) := by
  unfold clearPackets
  constructor
  · intro h
    split at h
    case isFalse => cases h
    case isTrue hle =>
      refine ⟨hle, ?_⟩
      split at h
      · rename_i h0
        cases h
        exact .inl ⟨h0, rfl⟩
      · rename_i h0
        split at h
        · cases h
        · rename_i pkg rest hd
          cases h
          exact .inr ⟨pkg, rest, h0, hd, rfl⟩
  · rintro ⟨hle, ⟨rfl, rfl⟩ | ⟨pkg, rest, h0, hd, rfl⟩⟩
    · rw [if_pos hle, if_pos rfl]
    · rw [if_pos hle, if_neg h0, hd]

theorem clearPackets_append {stored kept : List MemPacket} {count : ℕ} {next : Int32}
    (h : clearPackets stored count next = some kept) (more : List MemPacket) :
    clearPackets (stored ++ more) count next = some (kept ++ more) := by
  obtain ⟨hle, hkept⟩ := clearPackets_eq_some.1 h
  have hdrop : (stored ++ more).drop count = stored.drop count ++ more :=
    List.drop_append_of_le_length hle
  rw [clearPackets_eq_some, hdrop, List.length_append]
  refine ⟨by omega, ?_⟩
  rcases hkept with ⟨h0, rfl⟩ | ⟨pkg, rest, h0, hd, rfl⟩
  · exact .inl ⟨h0, rfl⟩
  · rw [hd]
    exact .inr ⟨pkg, rest ++ more, h0, rfl, rfl⟩

/-- The packet is what is left of the payload of the frame. -/
structure MemPacket.TailOf (p : MemPacket) (f : FrameAt) : Prop where
  keeper : p.bufKeeper = f.block
  start : (f.pos + frameHeadLen : ℤ) ≤ p.buf
  stop : (p.buf + p.len.toNat : ℤ) = f.pos + f.size

/-- The front packet behind the first `count` is as long as what is cut off it. -/
def Fits (stored : List MemPacket) (count : ℕ) (next : Int32) : Prop :=
  ∀ p ∈ (stored.drop count).head?, 0 ≤ next.toInt ∧ next.toInt ≤ p.len.toNat

/-- What is left on the queue belongs to the later frames. -/
theorem tails_clear {stored kept : List MemPacket} {fs : List FrameAt} {count : ℕ} {next : Int32}
    (h : List.Forall₂ MemPacket.TailOf stored fs) (hc : clearPackets stored count next = some kept)
    (hf : Fits stored count next) : List.Forall₂ MemPacket.TailOf kept (fs.drop count) := by
  have hd : List.Forall₂ MemPacket.TailOf (stored.drop count) (fs.drop count) :=
    List.forall₂_drop count h
  obtain ⟨-, ⟨-, rfl⟩ | ⟨pkg, rest, -, heq, rfl⟩⟩ := clearPackets_eq_some.1 hc
  · exact hd
  · rw [heq] at hd
    obtain ⟨f, fs', ht, hrest, hfs⟩ := List.forall₂_cons_left_iff.1 hd
    obtain ⟨h0, hle⟩ := hf pkg (by rw [heq]; rfl)
    rw [hfs]
    refine .cons ⟨ht.keeper, ?_, ?_⟩ hrest
    · have := ht.start
      dsimp only
      omega
    · have := ht.stop
      have hn := toUInt32_nonneg h0
      have hlt := pkg.len.toNat_lt
      simp only [UInt32.toNat_sub]
      omega

/-! ## The layout of the blocks -/

namespace Memory

/-- The frames lie one behind the other in the used part of their blocks, and hold
    what was received. -/
structure Laid (m : Memory) : Prop where
  used : ∀ k < m.nBlocks, (m.blocks k).capacity = defaultBlockSize ∧
    (m.blocks k).usedSize.toNat ≤ defaultBlockSize.toNat
  block : ∀ k, m.block = some k → k < m.nBlocks
  reading : ∀ r, m.reading = some r → ∃ k, m.block = some k ∧
    r.dataPos = (m.blocks k).usedSize.toNat ∧ r.available = (m.blocks k).getAvailable ∧
    69 ≤ r.available.toNat
  frames : ∀ f ∈ m.frames, f.block < m.nBlocks ∧
    f.pos + f.size ≤ (m.blocks f.block).usedSize.toNat
  behind : m.frames.Pairwise fun f g => f.block = g.block → f.pos + f.size ≤ g.pos
  content : ∀ f ∈ m.frames,
    read (m.blocks f.block).buffer (f.pos + frameHeadLen) f.data.length = f.data

variable {m m' : Memory} {type : DataType}

theorem makeBlock_new (m : Memory) : m.makeBlock.blocks m.nBlocks = .fresh :=
  Function.update_self _ _ _

theorem makeBlock_old {k : ℕ} (hk : k ≠ m.nBlocks) : m.makeBlock.blocks k = m.blocks k :=
  Function.update_of_ne hk _ _

/-- What a store does to the block of the relay, and to the others. -/
theorem store_new {k : ℕ} (hk : m.block = some k) (type : DataType) (r : Reading)
    (bytes : List Byte) :
    (m.store type r bytes).blocks k = (m.blocks k).store type r.dataPos bytes := by
  simp only [store, hk]
  exact Function.update_self _ _ _

theorem store_old {k j : ℕ} (hk : m.block = some k) (type : DataType) (r : Reading)
    (bytes : List Byte) (hj : j ≠ k) :
    (m.store type r bytes).blocks j = m.blocks j := by
  simp only [store, hk]
  exact Function.update_of_ne hj _ _

theorem store_rest {k : ℕ} (hk : m.block = some k) (type : DataType) (r : Reading)
    (bytes : List Byte) :
    (m.store type r bytes).nBlocks = m.nBlocks ∧ (m.store type r bytes).block = m.block ∧
      (m.store type r bytes).reading = none ∧
      (m.store type r bytes).storedData =
        m.storedData ++ [⟨r.dataPos + 5, UInt32.ofNat bytes.length, k⟩] ∧
      (m.store type r bytes).frames = m.frames ++ [⟨k, r.dataPos, bytes⟩] := by
  simp [store, hk]

theorem available_toNat {b : DataBlock} (hc : b.capacity = defaultBlockSize)
    (hu : b.usedSize.toNat ≤ defaultBlockSize.toNat) :
    b.getAvailable.toNat = defaultBlockSize.toNat - b.usedSize.toNat := by
  rw [DataBlock.getAvailable, hc, UInt32.toNat_sub_of_le]
  exact UInt32.le_iff_toNat_le.2 hu

namespace Laid

theorem init : Laid {} where
  used _ hk := absurd hk (Nat.not_lt_zero _)
  block := by simp
  reading := by simp
  frames := by simp
  behind := .nil
  content := by simp

/-- Nothing of the layout changes. -/
theorem congr (h : m.Laid) (hb : m'.blocks = m.blocks) (hn : m'.nBlocks = m.nBlocks)
    (hc : m'.block = m.block) (hr : m'.reading = none ∨ m'.reading = m.reading)
    (hf : m'.frames = m.frames) : m'.Laid where
  used := by rw [hb, hn]; exact h.used
  block := by rw [hc, hn]; exact h.block
  reading r h' := by
    rw [hb, hc]
    rcases hr with hr | hr
    · rw [hr] at h'; cases h'
    · exact h.reading r (hr ▸ h')
  frames := by rw [hf, hb, hn]; exact h.frames
  behind := by rw [hf]; exact h.behind
  content := by rw [hf, hb]; exact h.content

/-- A new block. -/
theorem makeBlock (h : m.Laid) (hr : m.reading = none) : m.makeBlock.Laid := by
  have hold : ∀ f ∈ m.frames, m.makeBlock.blocks f.block = m.blocks f.block := fun f hf =>
    makeBlock_old (h.frames f hf).1.ne
  refine ⟨fun k hk => ?_, fun k hk => ?_, fun r h' => ?_, fun f hf => ?_, h.behind, fun f hf => ?_⟩
  · by_cases hkn : k = m.nBlocks
    · subst hkn
      rw [makeBlock_new]
      exact ⟨rfl, Nat.zero_le _⟩
    · rw [makeBlock_old hkn]
      exact h.used k (lt_of_le_of_ne (Nat.lt_succ_iff.1 hk) hkn)
  · cases hk
    exact Nat.lt_succ_self _
  · exact absurd (hr.symm.trans h') (by simp)
  · rw [hold f hf]
    exact ⟨(h.frames f hf).1.trans (Nat.lt_succ_self _), (h.frames f hf).2⟩
  · rw [hold f hf]
    exact h.content f hf

/-- A read into a block with 69 bytes left. -/
theorem asyncRead (h : m.Laid) {k : ℕ} (hk : m.block = some k)
    (h69 : 69 ≤ (m.blocks k).getAvailable.toNat) : (m.asyncRead k).Laid where
  used := h.used
  block := h.block
  reading r hr := by
    cases hr
    exact ⟨k, hk, rfl, rfl, h69⟩
  frames := h.frames
  behind := h.behind
  content := h.content

/-- A read starts. -/
theorem startRead (h : m.Laid) (hr : m.reading = none) : m.startRead.Laid := by
  have hnew : (m.makeBlock.asyncRead m.nBlocks).Laid := by
    refine (h.makeBlock hr).asyncRead rfl ?_
    rw [makeBlock_new]
    decide
  unfold Memory.startRead
  split
  · rename_i k hk
    split
    · exact hnew
    · rename_i hge
      refine h.asyncRead hk ?_
      rw [UInt32.lt_iff_toNat_lt] at hge
      exact Nat.not_lt.1 hge
  · exact hnew

/-- The frame of a read fits the block behind all others. -/
theorem fits (h : m.Laid) {r : Reading} (hr : m.reading = some r) {bytes : List Byte}
    (hb : bytes.length ≤ (r.available - 5).toNat) : ∃ k, m.block = some k ∧ k < m.nBlocks ∧
      r.dataPos = (m.blocks k).usedSize.toNat ∧
      (r.available - 5).toNat = defaultBlockSize.toNat - r.dataPos - 5 ∧
      r.dataPos + 5 + bytes.length ≤ defaultBlockSize.toNat ∧
      ((m.blocks k).usedSize + (UInt32.ofNat bytes.length + 5)).toNat =
        r.dataPos + 5 + bytes.length := by
  obtain ⟨k, hk, hpos, hav, h69⟩ := h.reading r hr
  obtain ⟨hcap, hused⟩ := h.used k (h.block k hk)
  have hsize : defaultBlockSize.toNat = 2097152 := rfl
  have hsub : (r.available - 5).toNat = r.available.toNat - 5 :=
    UInt32.toNat_sub_of_le _ _ (UInt32.le_iff_toNat_le.2 (le_trans (by decide) h69))
  rw [hav, available_toNat hcap hused, ← hpos] at hsub h69
  have h5 : (5 : UInt32).toNat = 5 := rfl
  have hlen : r.dataPos + 5 + bytes.length ≤ defaultBlockSize.toNat := by
    rw [hav, hsub] at hb
    omega
  refine ⟨k, hk, h.block k hk, hpos, by rw [hav, hsub], hlen, ?_⟩
  simp only [UInt32.toNat_add, UInt32.toNat_ofNat', h5]
  omega

/-- **A read is stored**: what was there stays, and the frame is behind it. -/
theorem store (h : m.Laid) (type : DataType) {r : Reading} (hr : m.reading = some r) {bytes : List Byte}
    (hb : bytes.length ≤ (r.available - 5).toNat) :
    (m.store type r bytes).Laid ∧ ∀ f ∈ m.frames, ∀ pos n, f.pos + frameHeadLen ≤ pos →
      pos + n ≤ f.pos + f.size → read ((m.store type r bytes).blocks f.block).buffer pos n =
        read (m.blocks f.block).buffer pos n := by
  obtain ⟨k, hk, hkn, hpos, -, hlen, hused⟩ := h.fits hr hb
  have hhead : (type.code :: Bytes.le 4 bytes.length).length = 5 := by simp
  have hnew := store_new hk type r bytes
  have hframes := (store_rest hk type r bytes).2.2.2.2
  -- an older frame of the block ends where the new one begins
  have hold : ∀ f ∈ m.frames, ∀ pos n, f.pos + frameHeadLen ≤ pos → pos + n ≤ f.pos + f.size →
      read ((m.store type r bytes).blocks f.block).buffer pos n =
        read (m.blocks f.block).buffer pos n := by
    intro f hf pos n _ hstop
    have hend := (h.frames f hf).2
    by_cases hfk : f.block = k
    · rw [hfk] at hend ⊢
      rw [hnew, MemBlock.store, read_write_of_apart, read_write_of_apart]
      · exact .inl (by omega)
      · exact .inl (by omega)
    · rw [store_old hk type r bytes hfk]
  have husd : ∀ j < m.nBlocks, ((m.store type r bytes).blocks j).capacity = (m.blocks j).capacity ∧
      (m.blocks j).usedSize.toNat ≤ ((m.store type r bytes).blocks j).usedSize.toNat ∧
      ((m.store type r bytes).blocks j).usedSize.toNat ≤ defaultBlockSize.toNat := by
    intro j hj
    by_cases hjk : j = k
    · subst hjk
      rw [hnew]
      refine ⟨rfl, ?_, ?_⟩
      · have hle : (m.blocks j).usedSize.toNat ≤ r.dataPos + 5 + bytes.length := by omega
        exact hle.trans hused.ge
      · exact hused.le.trans hlen
    · rw [store_old hk type r bytes hjk]
      exact ⟨rfl, le_rfl, (h.used j hj).2⟩
  refine ⟨⟨fun j hj => ?_, fun j hj => ?_, fun r' h' => ?_, fun f hf => ?_, ?_, fun f hf => ?_⟩, hold⟩
  · rw [(store_rest hk type r bytes).1] at hj
    exact ⟨(husd j hj).1.trans (h.used j hj).1, (husd j hj).2.2⟩
  · rw [(store_rest hk type r bytes).1]
    rw [(store_rest hk type r bytes).2.1] at hj
    exact h.block j hj
  · rw [(store_rest hk type r bytes).2.2.1] at h'
    cases h'
  · rw [(store_rest hk type r bytes).1]
    rcases List.mem_append.1 (hframes ▸ hf) with hf | hf
    · exact ⟨(h.frames f hf).1, (h.frames f hf).2.trans (husd _ (h.frames f hf).1).2.1⟩
    · rw [List.mem_singleton.1 hf]
      refine ⟨hkn, ?_⟩
      rw [hnew]
      refine le_trans ?_ hused.ge
      simp only [FrameAt.size, frameHeadLen]
      omega
  · rw [hframes]
    refine List.pairwise_append.2 ⟨h.behind, List.pairwise_singleton _ _, fun f hf g hg hfg => ?_⟩
    rw [List.mem_singleton.1 hg] at hfg ⊢
    have hend := (h.frames f hf).2
    rw [hfg] at hend
    exact hend.trans hpos.ge
  · rcases List.mem_append.1 (hframes ▸ hf) with hf | hf
    · rw [hold f hf _ _ le_rfl (by simp only [FrameAt.size]; omega)]
      exact h.content f hf
    · rw [List.mem_singleton.1 hf]
      dsimp only
      rw [hnew, MemBlock.store, read_write_of_apart (.inr (by rw [hhead]; rfl))]
      exact read_write _ _ _

end Laid

/-! ## The bytes of packets -/

section Packets

variable {p : MemPacket} {f : FrameAt}

/-- Where the bytes of a packet lie. -/
theorem Laid.view_ok (h : m.Laid) (hf : f ∈ m.frames) (ht : p.TailOf f) :
    0 ≤ p.buf ∧ p.buf.toNat + p.len.toNat ≤ (m.blocks f.block).usedSize.toNat ∧
      p.len.toNat < 2 ^ 31 ∧ (m.view p).Ok ∧
      m.bytes p = read (m.blocks f.block).buffer p.buf.toNat p.len.toNat := by
  obtain ⟨hk, hend⟩ := h.frames f hf
  obtain ⟨hcap, hused⟩ := h.used _ hk
  have hsize : defaultBlockSize.toNat = 2097152 := rfl
  have hstart := ht.start
  have hstop := ht.stop
  have hin : p.buf.toNat + p.len.toNat ≤ defaultBlockSize.toNat := by omega
  refine ⟨by omega, by omega, by omega, ⟨by simp only [view]; omega, ?_⟩, ?_⟩
  · rw [view, length_read, ht.keeper, hcap]
    exact hin
  · simp only [bytes, view, Packet.bytes]
    rw [ht.keeper, hcap, take_drop_read hin, Nat.zero_add]

/-- **A packet holds the last bytes that were received.** -/
theorem Laid.bytes_suffix (h : m.Laid) (hf : f ∈ m.frames) (ht : p.TailOf f) :
    m.bytes p <:+ f.data := by
  obtain ⟨-, -, -, -, hbytes⟩ := h.view_ok hf ht
  have hstart := ht.start
  have hstop := ht.stop
  obtain ⟨gone, hgone⟩ := Int.eq_ofNat_of_zero_le (sub_nonneg.2 hstart)
  have hlen : f.data.length = gone + p.len.toNat := by
    simp only [FrameAt.size] at hstop
    omega
  have hpos : f.pos + frameHeadLen + gone = p.buf.toNat := by omega
  rw [hbytes, ← h.content f hf, hlen, read_add, hpos]
  exact List.suffix_append _ _

/-- A store leaves the bytes of a packet. -/
theorem Laid.bytes_store (h : m.Laid) {r : Reading} (hr : m.reading = some r) {data : List Byte}
    (hb : data.length ≤ (r.available - 5).toNat) (hf : f ∈ m.frames) (ht : p.TailOf f) :
    (m.store type r data).bytes p = m.bytes p := by
  obtain ⟨hlaid, hold⟩ := h.store type hr hb
  obtain ⟨k, hk, -⟩ := h.fits hr hb
  have hf' : f ∈ (m.store type r data).frames := by
    rw [(store_rest hk type r data).2.2.2.2]
    exact List.mem_append_left _ hf
  obtain ⟨h0, -, -, -, hbytes⟩ := h.view_ok hf ht
  have hstart := ht.start
  have hstop := ht.stop
  rw [(hlaid.view_ok hf' ht).2.2.2.2, hbytes]
  exact hold f hf _ _ (by omega) (by omega)

/-- No packet is in a new block. -/
theorem Laid.bytes_makeBlock (h : m.Laid) (hf : f ∈ m.frames) (ht : p.TailOf f) :
    m.makeBlock.bytes p = m.bytes p := by
  rw [bytes, bytes, view, view, ht.keeper, makeBlock_old (h.frames f hf).1.ne]

end Packets

theorem bytesOf_append (m : Memory) (ps qs : List MemPacket) :
    m.bytesOf (ps ++ qs) = m.bytesOf ps ++ m.bytesOf qs := List.flatMap_append

theorem storedBytes_view (m : Memory) (ps : List MemPacket) :
    storedBytes (ps.map m.view) = m.bytesOf ps := by
  rw [storedBytes, List.flatMap_map]
  rfl

/-- The bytes of a queue whose packets belong to frames stay. -/
theorem Laid.bytesOf_store (h : m.Laid) {r : Reading} (hr : m.reading = some r) {data : List Byte}
    (hb : data.length ≤ (r.available - 5).toNat) {ps : List MemPacket} {fs : List FrameAt}
    (hfs : fs ⊆ m.frames) (ht : List.Forall₂ MemPacket.TailOf ps fs) :
    (m.store type r data).bytesOf ps = m.bytesOf ps := by
  have hsame : ∀ p ∈ ps, (m.store type r data).bytes p = m.bytes p := by
    intro p hp
    obtain ⟨f, hf, htf⟩ := ht.exists_left hp
    exact h.bytes_store hr hb (hfs hf) htf
  simp only [bytesOf, List.flatMap]
  rw [List.map_congr_left hsame]

/-! ## The releases -/

/-- What a release wrote is the front of the queue, and it will take that off. -/
def Fronts (m : Memory) (r : Release) : Prop :=
  ∃ kept, clearPackets m.storedData r.handledPkgCount r.nextPkgUsedSize = some kept ∧
    Fits m.storedData r.handledPkgCount r.nextPkgUsedSize ∧
    r.bytes ++ m.bytesOf kept = m.bytesOf m.storedData

/-- Every packet is what is left of one of the last frames, in order, and every
    release is at the front. -/
structure Sound (m : Memory) : Prop extends m.Laid where
  tails : ∃ fs, fs <:+ m.frames ∧ List.Forall₂ MemPacket.TailOf m.storedData fs
  fronts : ∀ r ∈ m.releases, r.Selects → m.Fronts r
  defined : m.undefined = false

theorem fits_append {stored kept : List MemPacket} {count : ℕ} {next : Int32}
    (hc : clearPackets stored count next = some kept) (hf : Fits stored count next)
    (more : List MemPacket) : Fits (stored ++ more) count next := by
  obtain ⟨hle, ⟨rfl, -⟩ | ⟨pkg, rest, -, heq, -⟩⟩ := clearPackets_eq_some.1 hc
  · exact fun p _ => ⟨le_rfl, Int.natCast_nonneg _⟩
  · rw [Fits, heq] at hf
    rw [Fits, List.drop_append_of_le_length hle, heq]
    exact hf

/-- What is cut off a packet that shrinks fits it. -/
theorem fits_of_shrinks {stored kept : List MemPacket} {count : ℕ} {next : Int32}
    (hc : clearPackets stored count next = some kept)
    (hs : List.Forall₂ Packet.Shrinks ((stored.map m.view).drop count) (kept.map m.view)) :
    Fits stored count next := by
  intro p hp
  rw [← List.map_drop] at hs
  obtain ⟨-, ⟨rfl, -⟩ | ⟨pkg, rest, -, heq, rfl⟩⟩ := clearPackets_eq_some.1 hc
  · exact ⟨le_rfl, Int.natCast_nonneg _⟩
  · rw [heq] at hs hp
    cases hp
    obtain ⟨⟨-, hlow, -, hstop⟩, -⟩ := List.forall₂_cons.1 hs
    simp only [view] at hlow hstop
    omega

/-- A release that selects nothing leaves the queue. -/
theorem clearPackets_of_not_selects {r : Release} (h : ¬ r.Selects) (stored : List MemPacket) :
    clearPackets stored r.handledPkgCount r.nextPkgUsedSize = some stored := by
  obtain ⟨hc, hn⟩ := not_or.1 h
  simp [clearPackets, not_not.1 hc, not_not.1 hn]

namespace Sound

theorem init : Sound {} where
  toLaid := .init
  tails := ⟨[], List.nil_suffix, .nil⟩
  fronts := by simp
  defined := rfl

/-- The packets can be written, and are short. -/
theorem views_ok (h : m.Sound) : ∀ p ∈ m.storedData.map m.view, p.Ok ∧ p.len.toNat < 2 ^ 31 := by
  obtain ⟨fs, hfs, ht⟩ := h.tails
  intro p hp
  obtain ⟨q, hq, rfl⟩ := List.mem_map.1 hp
  obtain ⟨f, hf, htf⟩ := ht.exists_left hq
  obtain ⟨-, -, hlen, hok, -⟩ := h.view_ok (hfs.subset hf) htf
  exact ⟨hok, hlen⟩

/-- The queue and the releases stay, or releases go. -/
theorem congr (h : m.Sound) (hl : m'.Laid) (hb : m'.blocks = m.blocks) (hf : m'.frames = m.frames)
    (hs : m'.storedData = m.storedData) (hr : ∀ r ∈ m'.releases, r ∈ m.releases)
    (hu : m'.undefined = m.undefined) : m'.Sound where
  toLaid := hl
  tails := by rw [hf, hs]; exact h.tails
  fronts r hm hsel := by
    obtain ⟨kept, hc, hfit, hbytes⟩ := h.fronts r (hr r hm) hsel
    have hview : m'.bytes = m.bytes := by
      ext p
      simp only [bytes, view, hb]
    have hof : m'.bytesOf = m.bytesOf := by
      ext ps
      simp only [bytesOf, hview]
    exact ⟨kept, hs ▸ hc, hs ▸ hfit, by rw [hof, hs]; exact hbytes⟩
  defined := hu.trans h.defined

/-- A read starts. -/
theorem startRead (h : m.Sound) (hr : m.reading = none) : m.startRead.Sound := by
  have hl := h.toLaid.startRead hr
  have hnew : (m.makeBlock.asyncRead m.nBlocks).Laid → (m.makeBlock.asyncRead m.nBlocks).Sound := by
    intro hl
    refine ⟨hl, h.tails, fun r hm hsel => ?_, h.defined⟩
    obtain ⟨kept, hc, hfit, hbytes⟩ := h.fronts r hm hsel
    obtain ⟨fs, hfs, ht⟩ := h.tails
    have hsame : ∀ {ps : List MemPacket} {gs : List FrameAt}, gs ⊆ m.frames →
        List.Forall₂ MemPacket.TailOf ps gs →
        (m.makeBlock.asyncRead m.nBlocks).bytesOf ps = m.bytesOf ps := by
      intro ps gs hgs hps
      simp only [bytesOf, List.flatMap]
      refine congrArg List.flatten (List.map_congr_left fun p hp => ?_)
      obtain ⟨f, hf, htf⟩ := hps.exists_left hp
      exact h.bytes_makeBlock (hgs hf) htf
    refine ⟨kept, hc, hfit, ?_⟩
    rw [hsame (fun f hf => hfs.subset (List.drop_subset _ _ hf)) (tails_clear ht hc hfit)]
    exact hbytes.trans (hsame hfs.subset ht).symm
  unfold Memory.startRead at hl ⊢
  split at hl
  · rename_i k hk
    split at hl
    · rename_i hlt
      rw [if_pos hlt]
      exact hnew hl
    · rename_i hge
      rw [if_neg hge]
      exact h.congr hl rfl rfl rfl (fun _ hm => hm) rfl
  · exact hnew hl

/-- A read is stored. -/
theorem store (h : m.Sound) {r : Reading} (hr : m.reading = some r) {data : List Byte}
    (hb : data.length ≤ (r.available - 5).toNat) : (m.store type r data).Sound := by
  obtain ⟨fs, hfs, ht⟩ := h.tails
  obtain ⟨k, hk, -, -, -, hlen, -⟩ := h.fits hr hb
  obtain ⟨-, -, -, hstored, hframes⟩ := store_rest hk type r data
  have hsize : defaultBlockSize.toNat = 2097152 := rfl
  have hnew : MemPacket.TailOf ⟨r.dataPos + 5, UInt32.ofNat data.length, k⟩ ⟨k, r.dataPos, data⟩ := by
    refine ⟨rfl, le_rfl, ?_⟩
    simp only [FrameAt.size, frameHeadLen, UInt32.toNat_ofNat']
    omega
  refine ⟨(h.toLaid.store type hr hb).1, ⟨fs ++ [⟨k, r.dataPos, data⟩], ?_, ?_⟩, fun r' hm hsel => ?_, ?_⟩
  · obtain ⟨gone, hgone⟩ := hfs
    exact ⟨gone, by rw [hframes, ← hgone, List.append_assoc]⟩
  · rw [hstored]
    exact List.rel_append ht (.cons hnew .nil)
  · have hm' : r' ∈ m.releases := by simpa only [Memory.store, hk] using hm
    obtain ⟨kept, hc, hfit, hbytes⟩ := h.fronts r' hm' hsel
    refine ⟨_, hstored ▸ clearPackets_append hc _, hstored ▸ fits_append hc hfit _, ?_⟩
    rw [hstored, bytesOf_append, bytesOf_append, ← List.append_assoc,
      h.bytesOf_store hr hb hfs.subset ht,
      h.bytesOf_store hr hb (fun f hf => hfs.subset (List.drop_subset _ _ hf))
        (tails_clear ht hc hfit), hbytes]
  · simpa only [Memory.store, hk] using h.defined

/-- A release selects the front of the queue. -/
theorem select (h : m.Sound) {head : ResponseHead}
    (hle : m.handledTotalPkgLen ≤ head.handledTotalPkgLen) : (m.select head).Sound := by
  have hok := h.views_ok
  have hin := cutInside_of_le (fun p hp => (hok p hp).2) hle
  obtain ⟨keptV, hsplit⟩ := transfer_split head hin
  have hcl := hsplit.cleared []
  rw [List.append_nil, List.append_nil, clearPackets_view, Option.map_eq_some_iff] at hcl
  obtain ⟨kept, hc, rfl⟩ := hcl
  refine ⟨h.toLaid.congr rfl rfl rfl (.inr rfl) rfl, h.tails, fun r hm hsel => ?_, ?_⟩
  · rcases List.mem_append.1 hm with hm | hm
    · exact h.fronts r hm hsel
    · rw [List.mem_singleton.1 hm]
      refine ⟨kept, hc, fits_of_shrinks (m := m) hc ?_, ?_⟩
      · have hsh := hsplit.shrinks []
        rw [List.append_nil, List.append_nil] at hsh
        exact hsh
      · have hbytes := hsplit.bytes fun p hp => (hok p hp).1
        rwa [storedBytes_view, storedBytes_view] at hbytes
  · simp [Memory.select, h.defined, hin]

/-- The write of a release is done. -/
theorem clearReleased (h : m.Sound) {i : ℕ} {r : Release} (hi : m.releases[i]? = some r)
    (ha : r.Selects → ∀ r' ∈ m.releases.eraseIdx i, ¬ r'.Selects) :
    (m.clearReleased i r).Sound := by
  have hmem : ∀ r' ∈ m.releases.eraseIdx i, r' ∈ m.releases := fun _ =>
    List.mem_of_mem_eraseIdx
  unfold Memory.clearReleased
  by_cases hsel : r.Selects
  · obtain ⟨kept, hc, hfit, -⟩ := h.fronts r (List.mem_of_getElem? hi) hsel
    obtain ⟨fs, hfs, ht⟩ := h.tails
    simp only [hc]
    refine ⟨h.toLaid.congr rfl rfl rfl (.inr rfl) rfl, ⟨fs.drop r.handledPkgCount, ?_, ?_⟩,
      fun r' hm hsel' => absurd hsel' (ha hsel r' hm), h.defined⟩
    · exact (List.drop_suffix _ _).trans hfs
    · exact tails_clear ht hc hfit
  · simp only [clearPackets_of_not_selects hsel]
    exact h.congr (h.toLaid.congr rfl rfl rfl (.inr rfl) rfl) rfl rfl rfl hmem rfl

/-- A flush is done. -/
theorem flushed (h : m.Sound) (ha : ∀ r ∈ m.releases, ¬ r.Selects) (n : ℕ) :
    ({ m with flushes := n, storedData := [] } : Memory).Sound where
  toLaid := h.toLaid.congr rfl rfl rfl (.inr rfl) rfl
  tails := ⟨[], List.nil_suffix, .nil⟩
  fronts r hm hsel := absurd hsel (ha r hm)
  defined := h.defined

/-- **A step keeps the memory sound.** -/
theorem step (h : m.Sound) {e : MemEvent} (hl : m.AtLeast e) (ha : m.ReleasesAlone e)
    (hst : m.step type e = some m') : m'.Sound := by
  have hnone : ({ m with reading := none } : Memory).Sound :=
    h.congr (h.toLaid.congr rfl rfl rfl (.inl rfl) rfl) rfl rfl rfl (fun _ hm => hm) rfl
  have hsame : ∀ {x : Memory}, x.Laid → x.blocks = m.blocks → x.frames = m.frames →
      x.storedData = m.storedData → (∀ r ∈ x.releases, r ∈ m.releases) →
      x.undefined = m.undefined → x.Sound := h.congr
  cases e with
  | startRead =>
    simp only [Memory.step] at hst
    split at hst <;> cases hst
    rename_i hr
    exact h.startRead hr
  | readDone data =>
    simp only [Memory.step] at hst
    split at hst
    case h_2 => cases hst
    case h_1 r hr =>
      split at hst <;> cases hst
      rename_i hb
      exact h.store hr hb
  | readEof data =>
    simp only [Memory.step] at hst
    split at hst
    case h_2 => cases hst
    case h_1 r hr =>
      split at hst
      · cases hst
        exact hnone
      · split at hst <;> cases hst
        rename_i hb
        exact h.store hr hb
  | readError =>
    simp only [Memory.step] at hst
    split at hst <;> cases hst
    exact hnone
  | select head =>
    cases hst
    exact h.select hl
  | written i =>
    simp only [Memory.step, Option.map_eq_some_iff] at hst
    obtain ⟨r, hi, rfl⟩ := hst
    exact h.clearReleased hi (ha r hi)
  | writeFailed i =>
    simp only [Memory.step] at hst
    split at hst <;> cases hst
    exact hsame (h.toLaid.congr rfl rfl rfl (.inr rfl) rfl) rfl rfl rfl
      (fun _ => List.mem_of_mem_eraseIdx) rfl
  | startFlush | flushFailed =>
    simp only [Memory.step] at hst
    split at hst <;> cases hst
    exact hsame (h.toLaid.congr rfl rfl rfl (.inr rfl) rfl) rfl rfl rfl (fun _ hm => hm) rfl
  | flushed =>
    simp only [Memory.step] at hst
    split at hst <;> cases hst
    exact h.flushed ha _
  | reset =>
    cases hst
    exact hsame (h.toLaid.congr rfl rfl rfl (.inr rfl) rfl) rfl rfl rfl (fun _ hm => hm) rfl

/-- Sound memory is intact. -/
theorem intact (h : m.Sound) : m.Intact := by
  obtain ⟨fs, hfs, ht⟩ := h.tails
  have htail : ∀ p ∈ m.storedData, ∃ f ∈ m.frames, p.TailOf f := by
    intro p hp
    obtain ⟨f, hf, htf⟩ := ht.exists_left hp
    exact ⟨f, hfs.subset hf, htf⟩
  -- two frames of a block are the same or one behind the other
  have hpair : ∀ f ∈ m.frames, ∀ g ∈ m.frames, f = g ∨ (f.block = g.block →
      f.pos + f.size ≤ g.pos ∨ g.pos + g.size ≤ f.pos) := by
    intro f hf g hg
    exact List.Pairwise.forall_of_forall_of_flip
      (R := fun f g : FrameAt => f = g ∨ (f.block = g.block →
        f.pos + f.size ≤ g.pos ∨ g.pos + g.size ≤ f.pos))
      (fun f _ => .inl rfl) (h.behind.imp fun hfg => .inr fun hb => .inl (hfg hb))
      (h.behind.imp fun hfg => .inr fun hb => .inr (hfg hb.symm)) hf hg
  refine ⟨h.defined, fun k hk => ?_, fun r hr => ?_, fun p hp => ?_, fun p hp g hg hgb => ?_,
    h.behind.imp fun hfg hb => .inl (hfg hb), fun r k hr hk f hf hfk => ?_, ⟨fs, hfs, ?_⟩,
    fun r hm hsel => ?_⟩
  · rw [UInt32.le_iff_toNat_le, (h.used k hk).1]
    exact (h.used k hk).2
  · have hnil : ([] : List Byte).length ≤ (r.available - 5).toNat := Nat.zero_le _
    obtain ⟨k, hk, -, hpos, hroom, hlen, -⟩ := h.fits hr hnil
    obtain ⟨k', hk', -, -, h69⟩ := h.reading r hr
    have hsub : (r.available - 5).toNat = r.available.toNat - 5 :=
      UInt32.toNat_sub_of_le _ _ (UInt32.le_iff_toNat_le.2 (le_trans (by decide) h69))
    refine ⟨k, hk, hpos, by omega, ?_⟩
    rw [(h.used k (h.block k hk)).1]
    simp only [List.length_nil] at hlen
    omega
  · obtain ⟨f, hf, htf⟩ := htail p hp
    obtain ⟨h0, hend, -⟩ := h.view_ok hf htf
    rw [htf.keeper]
    exact ⟨(h.frames f hf).1, h0, hend⟩
  · obtain ⟨f, hf, htf⟩ := htail p hp
    have hstart := htf.start
    have hstop := htf.stop
    have hsize : frameHeadLen ≤ g.size := Nat.le_add_right _ _
    rcases hpair f hf g hg with rfl | hfg
    · exact .inr (by omega)
    · rcases hfg (htf.keeper.symm.trans hgb.symm) with hfg | hfg
      · exact .inl (by omega)
      · exact .inr (by omega)
  · obtain ⟨k', hk', hpos, -⟩ := h.reading r hr
    cases hk.symm.trans hk'
    refine .inl (((h.frames f hf).2.trans ?_).trans (Nat.le_add_right _ _))
    rw [hfk, hpos]
  · exact ht.imp_mem fun p _ f hf htf =>
      ⟨htf.keeper, htf.stop, h.bytes_suffix (hfs.subset hf) htf⟩
  · obtain ⟨kept, hc, -, hbytes⟩ := h.fronts r hm hsel
    exact ⟨kept, hc, hbytes⟩

end Sound

end Memory

/-! ## Whole runs -/

/-- **Packet memory is never shared or overwritten**, in runs in which nothing is taken
    off the queue while another release that selected packets awaits its write. -/
theorem intact_of_releasesAlone {type : DataType} {m : Memory}
    (h : Reach (fun m => Memory.step m type) (fun m e => m.AtLeast e ∧ m.ReleasesAlone e) {} m) :
    m.Intact :=
  (h.inv Memory.Sound.init fun _ _ _ hm hC hst => hm.step hC.1 hC.2 hst).intact

/-- A flush that is done while packets are being released leaves a release that takes
    packets off an empty queue. -/
theorem not_intact_of_flushed {type : DataType} {m m' : Memory} {r : Release}
    (hr : r ∈ m.releases) (hs : r.Selects) (hst : m.step type .flushed = some m') : ¬ m'.Intact := by
  simp only [Memory.step] at hst
  split at hst <;> cases hst
  intro h
  obtain ⟨kept, hc, -⟩ := h.released r hr hs
  obtain ⟨hle, ⟨h0, -⟩ | ⟨pkg, rest, -, hd, -⟩⟩ := clearPackets_eq_some.1 hc
  · exact hs.elim (fun hcount => hcount (Nat.le_zero.1 hle)) fun hnext => hnext h0
  · rw [List.drop_nil] at hd
    cases hd

/-- One packet is released and the next one cut, between an error and the end of the
    stream. -/
theorem intact_cut : ∃ m : Memory, m.storedData.map (fun p => p.buf) = [13, 20] ∧
    m.storedData.map m.bytes = [[4, 5], [6]] ∧ m.Intact := by
  obtain ⟨m, hm, hp⟩ := exists_runIf (fun m => Memory.step m .fromClientToServer)
    (fun m e => m.AtLeast e ∧ m.ReleasesAlone e) {}
    [.startRead, .readDone [1, 2], .startRead, .readError, .startRead, .readDone [3, 4, 5],
      .select ⟨0, 0, 0, 0, 0, 3⟩, .startRead, .written 0, .readEof [6]]
    (fun m => m.storedData.map (fun p => p.buf) == [13, 20] &&
      m.storedData.map m.bytes == [[4, 5], [6]]) (by decide +kernel)
  simp only [Bool.and_eq_true, beq_iff_eq] at hp
  exact ⟨m, hp.1, hp.2, intact_of_releasesAlone hm⟩

/-- A flush clears the queue while the first three bytes of a packet are written, and the
    release then cuts them off a packet of one byte. -/
theorem not_intact : ¬ ∀ (type : DataType) (m : Memory),
    Reach (fun m => Memory.step m type) (fun m e => m.AtLeast e) {} m → m.Intact := by
  intro h
  obtain ⟨m, hm, hp⟩ := exists_runIf (fun m => Memory.step m .fromClientToServer)
    (fun m e => m.AtLeast e) {}
    [.startRead, .readDone [1, 2, 3, 4], .select ⟨0, 0, 0, 0, 0, 3⟩, .startFlush, .flushed, .reset,
      .startRead, .readDone [5], .written 0]
    (fun m => m.storedData.any fun p => decide
      (¬ p.buf.toNat + p.len.toNat ≤ (m.blocks p.bufKeeper).usedSize.toNat)) (by decide +kernel)
  obtain ⟨p, hmem, hout⟩ := List.any_eq_true.1 hp
  exact of_decide_eq_true hout ((h _ m hm).inside p hmem).2.2

end CppProxy
