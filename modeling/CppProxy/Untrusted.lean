/-
  cpp_proxy — any response of the process.

  A response head is raw bytes off the local link.  `HandlesSafely`: the buffers
  made for it lie inside the stored packets, and what `clear_handled_packet`
  does afterwards is defined and moves no packet backwards.  It holds exactly
  of the totals that satisfy `CutInside` (`handlesSafely_iff`): nothing checks
  that a total is not below the counter.
-/
import CppProxy.Rules

namespace CppProxy

open Session Runs

/-- Releasing the packets that `head` covers is safe: `appended` are the packets
    stored while the buffers are written. -/
structure SafeRelease (head : ResponseHead) (stored : List Packet) (handled : UInt64)
    (appended : List Packet) : Prop where
  inside : List.Forall₂ ConstBuffer.Inside
    (prepareTransferPacket head stored handled).writeBuffers
    (stored.take (prepareTransferPacket head stored handled).writeBuffers.length)
  cleared : ∃ kept,
    clearHandledPacket (stored ++ appended)
      (prepareTransferPacket head stored handled).handledPkgCount
      (prepareTransferPacket head stored handled).nextPkgUsedSize = some kept ∧
    List.Forall₂ Packet.Shrinks
      ((stored ++ appended).drop (prepareTransferPacket head stored handled).handledPkgCount) kept

/-- Handling `head` is safe.  A head of another type touches no queue, and a
    block closes the session. -/
def Session.HandlesSafely (s : Session) (head : ResponseHead) : Prop :=
  ∀ d : Dir, DataType.ofCode head.type = some d.dataType → head.act ≠ Action.block.code →
    ∀ appended, SafeRelease head (s.way d).storedData (s.way d).handledTotalPkgLen appended

/-- The total of `head` cuts the queue of its direction inside a packet. -/
def Session.CutsInside (s : Session) (head : ResponseHead) : Prop :=
  ∀ d : Dir, DataType.ofCode head.type = some d.dataType → head.act ≠ Action.block.code →
    CutInside head.handledTotalPkgLen (s.way d).handledTotalPkgLen (s.way d).storedData

theorem safeRelease_of_cutInside {head : ResponseHead} {stored : List Packet} {handled : UInt64}
    (h : CutInside head.handledTotalPkgLen handled stored) (appended : List Packet) :
    SafeRelease head stored handled appended := by
  obtain ⟨kept, hk⟩ := transfer_split head h
  exact ⟨hk.inside, kept ++ appended, hk.cleared appended, hk.shrinks appended⟩

/-- A buffer of `toSize (toInt n)` bytes fits a packet only if the cast was exact. -/
theorem fits_of_inside {p : Packet} {n : UInt64}
    (h : (⟨p.buf, toSize (toInt n), p.bufKeeper⟩ : ConstBuffer).Inside p) :
    n.toNat % 2 ^ 32 < 2 ^ 31 ∧ n.toNat % 2 ^ 32 ≤ p.len.toNat := by
  obtain ⟨-, -, h⟩ := h
  have hp := p.len.toNat_lt
  rcases Nat.lt_or_ge (n.toNat % 2 ^ 32) (2 ^ 31) with hlt | hge
  · have hs := toInt_small hlt
    have := toSize_nonneg (n := toInt n) (by omega)
    dsimp only at h
    exact ⟨hlt, by omega⟩
  · have := toSize_neg (toInt_big hge)
    dsimp only at h
    omega

theorem cutInside_of_inside (head : ResponseHead) {stored : List Packet} {handled : UInt64}
    (h : List.Forall₂ ConstBuffer.Inside (prepareTransferPacket head stored handled).writeBuffers
      (stored.take (prepareTransferPacket head stored handled).writeBuffers.length)) :
    CutInside head.handledTotalPkgLen handled stored := by
  induction stored generalizing handled with
  | nil => trivial
  | cons p stored ih =>
    simp only [prepareTransferPacket] at h
    simp only [CutInside]
    split at h
    · rename_i hcut
      rw [if_pos hcut]
      split at h
      · rename_i h0
        rw [toInt_eq_zero] at h0
        omega
      · simp only [List.length_singleton, List.take_succ_cons, List.take_zero,
          List.forall₂_cons] at h
        exact fits_of_inside h.1
    · rename_i hcut
      rw [if_neg hcut]
      simp only [List.length_cons, List.take_succ_cons, List.forall₂_cons] at h
      exact ih h.2

/-- **A response is handled safely exactly when its total cuts inside.** -/
theorem handlesSafely_iff (s : Session) (head : ResponseHead) :
    s.HandlesSafely head ↔ s.CutsInside head :=
  ⟨fun h d hd ha => cutInside_of_inside head (h d hd ha []).inside,
    fun h d hd ha appended => safeRelease_of_cutInside (h d hd ha) appended⟩

/-- The first byte goes past the process, the process passes the second one, and
    a third one is stored. -/
def onePassed : List Event :=
  [.connect 0, .complete (.connector 0), .push (.connector 0) 89, .complete (.connector 0),
    .read .req (.data [0]), .push (.relay .req) 1, .complete (.relay .req),
    .read .req (.data [1]), .push (.relay .req) 6, .complete (.relay .req),
    .respond 1 (.pass 0 1), .pull 0 16,
    .complete (.reader 0), .push (.reader 0) 1, .complete (.reader 0),
    .read .req (.data [2]), .push (.relay .req) 6, .complete (.relay .req)]

/-- In that state a total of zero asks for a buffer of `size_t(-1)` bytes. -/
theorem not_handlesSafely : ¬ ∀ (c : Conf) (s : Session) (head : ResponseHead),
    Reach Session.step (fun _ _ => True) (Session.init c) s → s.HandlesSafely head := by
  intro h
  obtain ⟨s, hs, hn⟩ := exists_run Session.step (fun _ _ => True)
    (Session.init (localConf true)) onePassed
    (fun s => !decide (CutInside 0 (s.way .req).handledTotalPkgLen (s.way .req).storedData))
    (fun _ _ _ => trivial) (by decide +kernel)
  have hc := cutInside_of_inside _
    (h _ s { type := 0, act := 0, handledTotalPkgLen := 0 } hs .req rfl (by decide) []).inside
  simp [hc] at hn

end CppProxy
