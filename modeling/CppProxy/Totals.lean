/-
  cpp_proxy — running totals.

  The process acknowledges payloads by their running total on the connection.

  * `CutBetween`: the total cuts the queue between two packets, so nothing of a
    packet is released;
  * `Released`: then a release takes whole packets off the queue and moves the
    counter by their lengths;
  * `TrueTotal`, `Truthful`, `PassesOnly`: a process that acknowledges whole
    payloads, and one that changes nothing;
  * `cutBetween_of_take`: a true total cuts an aligned queue between packets.
-/
import CppProxy.Step

namespace CppProxy

/-! ## Cuts between packets -/

/-- The first packet that ends beyond the total, if any, starts at it. -/
def CutBetween (total : UInt64) : UInt64 → List Packet → Prop
  | _, [] => True
  | handled, p :: stored =>
    if handled + p.len.toUInt64 > total then total = handled
    else CutBetween total (handled + p.len.toUInt64) stored

instance decidableCutBetween (total : UInt64) :
    ∀ (handled : UInt64) (stored : List Packet), Decidable (CutBetween total handled stored)
  | _, [] => inferInstanceAs (Decidable True)
  | handled, p :: stored =>
    haveI := decidableCutBetween total (handled + p.len.toUInt64) stored
    inferInstanceAs (Decidable (if handled + p.len.toUInt64 > total then total = handled
      else CutBetween total (handled + p.len.toUInt64) stored))

theorem CutBetween.inside {total : UInt64} {stored : List Packet} {handled : UInt64}
    (h : CutBetween total handled stored) : CutInside total handled stored := by
  induction stored generalizing handled with
  | nil => trivial
  | cons p stored ih =>
    simp only [CutBetween] at h
    simp only [CutInside]
    split
    · rename_i hcut
      rw [if_pos hcut] at h
      simp [h]
    · rename_i hcut
      rw [if_neg hcut] at h
      exact ih h

/-- What a release does that takes the first `count` packets off the queue. -/
structure Released (total handled : UInt64) (stored : List Packet) (r : Prepared) : Prop where
  next : r.nextPkgUsedSize = 0
  count_le : r.handledPkgCount ≤ stored.length
  bytes : r.bytes = storedBytes (stored.take r.handledPkgCount)
  handled : handled.toNat + storedLen stored < 2 ^ 64 →
    r.handledTotalPkgLen.toNat = handled.toNat + storedLen (stored.take r.handledPkgCount)
  le : r.handledPkgCount ≠ 0 → r.handledTotalPkgLen ≤ total

theorem storedLen_append (stored stored' : List Packet) :
    storedLen (stored ++ stored') = storedLen stored + storedLen stored' := by
  simp [storedLen]

/-- **A total between packets releases whole packets.** -/
theorem released (head : ResponseHead) {stored : List Packet} {handled : UInt64}
    (h : CutBetween head.handledTotalPkgLen handled stored) :
    Released head.handledTotalPkgLen handled stored
      (prepareTransferPacket head stored handled) := by
  induction stored generalizing handled with
  | nil => exact ⟨rfl, le_rfl, rfl, fun _ => rfl, fun h => absurd rfl h⟩
  | cons p stored ih =>
    simp only [CutBetween] at h
    simp only [prepareTransferPacket]
    split at h
    · rename_i hcut
      rw [if_pos hcut, if_pos (by rw [h]; simp [toInt])]
      exact ⟨by rw [h]; simp [toInt], Nat.zero_le _, rfl, fun _ => rfl, fun hn => absurd rfl hn⟩
    · rename_i hcut
      rw [if_neg hcut]
      have hr := ih h
      refine ⟨hr.next, Nat.succ_le_succ hr.count_le, ?_, fun hlt => ?_, fun _ => ?_⟩
      · have := hr.bytes
        simp only [Prepared.bytes] at this
        simp only [Prepared.bytes, List.flatMap_cons, this, List.take_succ_cons]
        simp [storedBytes, ConstBuffer.bytes, Packet.bytes]
      · simp only [storedLen_cons] at hlt
        have hadd := toNat_add_len (n := handled) (p := p) (by omega)
        rw [hr.handled (by omega), hadd, List.take_succ_cons, storedLen_cons]
        omega
      · by_cases h0 : (prepareTransferPacket head stored
            (handled + p.len.toUInt64)).handledPkgCount = 0
        · -- nothing more is released: the counter stopped at the end of this packet
          have hend : (prepareTransferPacket head stored
              (handled + p.len.toUInt64)).handledTotalPkgLen = handled + p.len.toUInt64 := by
            cases stored with
            | nil => rfl
            | cons q stored =>
              simp only [prepareTransferPacket] at h0 ⊢
              split
              · split <;> rfl
              · rename_i hq
                rw [if_neg hq] at h0
                simp at h0
          simp only [hend]
          exact UInt64.not_lt.1 hcut
        · exact hr.le h0

theorem Released.handled_le {total handled : UInt64} {stored : List Packet} {r : Prepared}
    (h : Released total handled stored r) (hlt : handled.toNat + storedLen stored < 2 ^ 64) :
    r.handledTotalPkgLen ≤ total ∨ r.handledTotalPkgLen = handled := by
  by_cases h0 : r.handledPkgCount = 0
  · right
    have := h.handled hlt
    rw [h0, List.take_zero, storedLen_nil, Nat.add_zero] at this
    exact UInt64.toNat_inj.1 this
  · exact .inl (h.le h0)

/-! ## The totals of the process -/

/-- The total is that of some of the payloads framed to the connection, in order,
    and not below the totals sent before. -/
def Link.TrueTotal (l : Link) (d : Dir) (total : UInt64) : Prop :=
  (∃ m ≤ (l.frames d).length, total.toNat = ((l.frames d).take m).flatten.length) ∧
    ∀ r ∈ l.responses, DataType.ofCode r.head.type = some d.dataType →
      r.head.handledTotalPkgLen ≤ total

instance (l : Link) (d : Dir) (total : UInt64) : Decidable (l.TrueTotal d total) :=
  inferInstanceAs (Decidable (_ ∧ _))

/-- The process acknowledges whole payloads with their true totals. -/
def Truthful (s : Session) : Event → Prop
  | .respond g r => ∀ d : Dir, DataType.ofCode r.head.type = some d.dataType →
      (s.links g).TrueTotal d r.head.handledTotalPkgLen
  | _ => True

instance (s : Session) : ∀ e, Decidable (Truthful s e)
  | .respond _ _ => inferInstanceAs (Decidable (∀ _ : Dir, _ → _))
  | .read _ _ | .push _ _ | .pull _ _ | .issue _ | .complete _ | .fail _ | .connect _ | .expire _ =>
    inferInstanceAs (Decidable True)

/-- The process passes payloads, and neither blocks nor sends new data. -/
def PassesOnly (_ : Session) : Event → Prop
  | .respond _ r => r.head.act = Action.pass.code ∧ r.head.newDataLen = 0
  | _ => True

instance (s : Session) : ∀ e, Decidable (PassesOnly s e)
  | .respond _ _ => inferInstanceAs (Decidable (_ ∧ _))
  | .read _ _ | .push _ _ | .pull _ _ | .issue _ | .complete _ | .fail _ | .connect _ | .expire _ =>
    inferInstanceAs (Decidable True)

/-- The packets of a queue are the payloads `frames`. -/
structure Frames (stored : List Packet) (frames : List (List Byte)) : Prop where
  ok : ∀ p ∈ stored, p.Ok
  bytes : stored.map Packet.bytes = frames

theorem Packet.Ok.length {p : Packet} (h : p.Ok) : p.bytes.length = p.len.toNat := by
  have := h.2
  simp only [bytes, List.length_take, List.length_drop]
  omega

theorem Frames.storedLen {stored : List Packet} {frames : List (List Byte)}
    (h : Frames stored frames) : storedLen stored = frames.flatten.length := by
  obtain ⟨hok, rfl⟩ := h
  induction stored with
  | nil => rfl
  | cons p stored ih =>
    simp only [storedLen_cons, List.map_cons, List.flatten_cons, List.length_append]
    rw [ih fun q hq => hok q (by simp [hq]), (hok p (by simp)).length]

theorem Frames.storedBytes {stored : List Packet} {frames : List (List Byte)}
    (h : Frames stored frames) : storedBytes stored = frames.flatten := by
  rw [← h.bytes, CppProxy.storedBytes, List.flatMap_def]

theorem Frames.take {stored : List Packet} {frames : List (List Byte)} (h : Frames stored frames)
    (n : ℕ) : Frames (stored.take n) (frames.take n) :=
  ⟨fun p hp => h.ok p (List.mem_of_mem_take hp), by rw [List.map_take, h.bytes]⟩

theorem Frames.drop {stored : List Packet} {frames : List (List Byte)} (h : Frames stored frames)
    (n : ℕ) : Frames (stored.drop n) (frames.drop n) :=
  ⟨fun p hp => h.ok p (List.mem_of_mem_drop hp), by rw [List.map_drop, h.bytes]⟩

/-- A payload is framed and its packet stored. -/
theorem Frames.append {stored : List Packet} {frames : List (List Byte)} {data : List Byte}
    (h : Frames stored frames) (hd : data.length < 2 ^ 32) :
    Frames (stored ++ [Packet.ofData data]) (frames ++ [data]) := by
  refine ⟨fun p hp => ?_, by simp [h.bytes, Packet.ofData_bytes hd]⟩
  rcases List.mem_append.1 hp with hp | hp
  · exact h.ok p hp
  · rw [List.mem_singleton.1 hp]; exact Packet.ofData_ok hd

theorem Frames.length {stored : List Packet} {frames : List (List Byte)}
    (h : Frames stored frames) : stored.length = frames.length := by
  rw [← h.bytes, List.length_map]

/-- The total of the first `n` stored payloads cuts the queue between packets. -/
theorem cutBetween_of_take {total : UInt64} {stored : List Packet} {handled : UInt64} {n : ℕ}
    (hlt : handled.toNat + storedLen stored < 2 ^ 64)
    (ht : total.toNat = handled.toNat + storedLen (stored.take n)) :
    CutBetween total handled stored := by
  induction stored generalizing handled n with
  | nil => trivial
  | cons p stored ih =>
    simp only [storedLen_cons] at hlt
    have hadd := toNat_add_len (n := handled) (p := p) (by omega)
    simp only [CutBetween, gt_iff_lt, UInt64.lt_iff_toNat_lt, hadd]
    cases n with
    | zero =>
      rw [List.take_zero, storedLen_nil, Nat.add_zero] at ht
      split
      · exact UInt64.toNat_inj.1 ht
      · exact ih (n := 0) (by omega) (by rw [List.take_zero, storedLen_nil]; omega)
    | succ n =>
      rw [List.take_succ_cons, storedLen_cons] at ht
      split
      · omega
      · exact ih (n := n) (by omega) (by omega)

/-- **The counter reaches the total** of the first `n` stored payloads. -/
theorem prepare_of_take (head : ResponseHead) {stored : List Packet} {handled : UInt64} {n : ℕ}
    (hlt : handled.toNat + storedLen stored < 2 ^ 64)
    (ht : head.handledTotalPkgLen.toNat = handled.toNat + storedLen (stored.take n)) :
    (prepareTransferPacket head stored handled).nextPkgUsedSize = 0 ∧
      (prepareTransferPacket head stored handled).handledTotalPkgLen = head.handledTotalPkgLen := by
  induction stored generalizing handled n with
  | nil =>
    rw [List.take_nil, storedLen_nil, Nat.add_zero] at ht
    exact ⟨rfl, (UInt64.toNat_inj.1 ht).symm⟩
  | cons p stored ih =>
    simp only [storedLen_cons] at hlt
    have hadd := toNat_add_len (n := handled) (p := p) (by omega)
    simp only [prepareTransferPacket, gt_iff_lt, UInt64.lt_iff_toNat_lt, hadd]
    split
    · rename_i hcut
      have heq : head.handledTotalPkgLen = handled := by
        cases n with
        | zero =>
          rw [List.take_zero, storedLen_nil, Nat.add_zero] at ht
          exact UInt64.toNat_inj.1 ht
        | succ n =>
          rw [List.take_succ_cons, storedLen_cons] at ht
          omega
      have h0 : toInt (head.handledTotalPkgLen - handled) = 0 := by
        rw [heq, UInt64.sub_self]; rfl
      rw [if_pos h0]
      exact ⟨h0, heq.symm⟩
    · rename_i hcut
      have hrest : ∃ m, head.handledTotalPkgLen.toNat = (handled + p.len.toUInt64).toNat +
          storedLen (stored.take m) := by
        cases n with
        | zero =>
          rw [List.take_zero, storedLen_nil, Nat.add_zero] at ht
          exact ⟨0, by rw [List.take_zero, storedLen_nil]; omega⟩
        | succ n =>
          rw [List.take_succ_cons, storedLen_cons] at ht
          exact ⟨n, by omega⟩
      obtain ⟨m, hm⟩ := hrest
      exact ih (by omega) hm

end CppProxy
