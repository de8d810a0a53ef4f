/-
  cpp_proxy — a direction that bypasses the process.

  While bypass is on a relay takes the direct path, and with `response_bypass` the
  responses always do: the process is only told that the server has answered.

  * `Session.Bypasses`: the relay of a direction takes the direct path;
  * `Session.added`: the new data that the process has written to a direction;
  * `Session.PassesThrough`: the receiver gets what the sender sent, all of it and in
    order, and between it at most that new data;
  * `Passing.step`: a direction that bypasses the process passes through;
  * `passesThrough_of_responseBypass`: the responses of a session with `response_bypass`
    do, whatever happens to the process;
  * `Session.WithholdsResponses`, `withholdsResponses_of_responseBypass`: of such a response
    no byte is sent to the process.
-/
import CppProxy.Lib.Merge
import CppProxy.Lib.Related
import CppProxy.LinkFrames
import CppProxy.Moves

namespace CppProxy

open Session Runs

/-! ## The direct path -/

/-- A relay that neither stores packets nor flushes them. -/
def RelayPc.StoresNothing : RelayPc → Prop
  | readProcess _ | writeProcess _ | flush _ _ => False
  | _ => True

/-- A reader that writes nothing stored to the receiver of direction `d`. -/
def ReaderPc.ReleasesNothing (d : Dir) : ReaderPc → Prop
  | release d' _ _ w => d' = d → w.rest = []
  | flushServer _ _ => d ≠ .req
  | flushClient _ _ => d ≠ .res
  | readHead _ | readBody _ _ | writeNew _ _ _ _ | done => True

/-- The write of new data to the receiver of direction `d` that a reader is in. -/
def ReaderPc.adding (d : Dir) : ReaderPc → Option PeerWrite
  | writeNew d' _ _ w => if d' = d then some w else none
  | _ => none

/-- The new data for direction `d` of an entry. -/
def Act.addedTo (d : Dir) : Act → Option (List Byte)
  | newData d' _ data => if d' = d then some data else none
  | _ => none

namespace Session

variable (s : Session)

/-- The relay of direction `d` takes the direct path. -/
def Bypasses (d : Dir) : Prop := s.bypass = true ∨ d = .res ∧ s.responseBypass = true

/-- The new data that the process has written to direction `d`, in order. -/
def added (d : Dir) : List (List Byte) := s.trace.filterMap (Act.addedTo d)

/-- The receiver has got the bytes of the sender, merged with the first bytes of each new
    data of the process; nothing is kept back but what the relay is writing. -/
structure PassesThrough (d : Dir) : Prop where
  stored : (s.way d).storedData = []
  passed : ∃ sent fresh, Merge (sent :: fresh) (s.way d).accepted ∧
    fresh.Forall₂ (· <+: ·) (s.added d) ∧ sent <+: (s.way d).received ∧
      (s.hasClosed = false → (s.way d).received = sent ++ (s.way d).relay.unsent)

/-- The readers write the new data of direction `d`: of each the receiver has got `fresh`,
    and reader `i` is writing the one with number `turn i`. -/
structure Adding (d : Dir) (fresh : List (List Byte)) (turn : ℕ → ℕ) : Prop where
  begun : fresh.Forall₂ (· <+: ·) (s.added d)
  writing : ∀ i, ∀ w ∈ (s.readers i).pc.adding d, ∃ part, fresh[turn i]? = some part ∧
    (s.added d)[turn i]? = some (part ++ w.rest)
  apart : ∀ i j, (s.readers i).pc.adding d ≠ none → (s.readers j).pc.adding d ≠ none →
    turn i = turn j → i = j

/-- What the receiver of direction `d` has got. -/
def Merged (d : Dir) : Prop := ∃ sent fresh turn, Merge (sent :: fresh) (s.way d).accepted ∧
  s.Adding d fresh turn ∧ sent <+: (s.way d).received ∧
    (s.hasClosed = false → (s.way d).received = sent ++ (s.way d).relay.unsent)

/-- Direction `d` has passed through, and goes on so. -/
structure Passing (d : Dir) : Prop where
  stored : (s.way d).storedData = []
  relay : (s.way d).relay.StoresNothing
  readers : ∀ i, (s.readers i).pc.ReleasesNothing d
  merged : s.Merged d

variable {s} {d : Dir}

theorem Passing.passesThrough (h : s.Passing d) : s.PassesThrough d := by
  obtain ⟨sent, fresh, turn, hm, ha, hp, hw⟩ := h.merged
  exact ⟨h.stored, sent, fresh, hm, ha.begun, hp, hw⟩

@[simp] theorem added_emit (s : Session) (a : Act) (d : Dir) :
    (s.emit a).added d = s.added d ++ (a.addedTo d).toList := by
  rw [added, emit, List.filterMap_append]
  cases h : a.addedTo d <;> simp [added, h]

/-- What the process adds is recorded in the trace. -/
theorem added_of_trace {s' : Session} {acts : List Act} (ht : s'.trace = s.trace ++ acts)
    (hn : ∀ a ∈ acts, a.addedTo d = none) : s'.added d = s.added d := by
  rw [added, ht, List.filterMap_append, List.filterMap_eq_nil_iff.2 hn, List.append_nil]
  rfl

end Session

/-! ## What a stretch of code adds -/

/-- The new data of direction `d` after one update: none, while a reader may be done with
    its own, or that which a reader starts to write. -/
theorem Edit.added {s s' : Session} {t : Tid} (h : Edit s t s') (d : Dir) :
    s'.added d = s.added d ∧ (∀ i, (s'.readers i).pc.adding d = (s.readers i).pc.adding d ∨
        (s'.readers i).pc.adding d = none) ∨
      ∃ i live buf, s'.added d = s.added d ++ [buf] ∧
        (s'.readers i).pc.adding d = some ⟨live, buf, buf⟩ ∧
          ∀ i' ≠ i, (s'.readers i').pc.adding d = (s.readers i').pc.adding d := by
  -- a reader goes on to a point where it writes no new data
  have hreader : ∀ {x : Session} {i pc}, x.readers = s.readers → x.added d = s.added d →
      pc.adding d = none → (x.setReader i pc).added d = s.added d ∧
        ∀ i', ((x.setReader i pc).readers i').pc.adding d = (s.readers i').pc.adding d ∨
          ((x.setReader i pc).readers i').pc.adding d = none := by
    intro x i pc hx ht hn
    refine ⟨ht, fun i' => ?_⟩
    by_cases hi : i' = i
    · subst hi; exact .inr (by simpa using hn)
    · exact .inl (by simp [hi, hx])
  cases h with
  | reconnect gen => exact .inl ⟨added_of_trace rfl (by simp [Act.addedTo]), fun _ => .inl rfl⟩
  | @issueWrite t => cases t <;> exact .inl ⟨rfl, fun _ => .inl rfl⟩
  | relayFlush | response =>
    exact .inl ⟨added_of_trace rfl (by simp [Act.addedTo]), fun _ => .inl rfl⟩
  | readerDone | readHead | readBody => exact .inl (hreader rfl rfl rfl)
  | @issueRead i r hr =>
    refine .inl (hreader rfl rfl ?_)
    unfold linkRead at hr
    cases hpc : (s.readers i).pc <;> rw [hpc] at hr <;> cases hr <;> rfl
  | @writeNew i r d' head buf =>
    by_cases hd : d' = d
    · subst hd
      have hnew : (s.emit (.newData d' (s.dstOpen d') buf)).added d' = s.added d' ++ [buf] := by
        simp [Act.addedTo]
      exact .inr ⟨i, s.dstOpen d', buf, hnew, by simp [ReaderPc.adding, asyncWrite],
        fun i' hi => by simp [hi]⟩
    · exact .inl (hreader rfl (by simp [Act.addedTo, hd]) (by simp [ReaderPc.adding, hd]))
  | flushServer | flushClient => exact .inl (hreader rfl (by simp [Act.addedTo]) rfl)
  | @spawn j conn =>
    refine .inl ⟨rfl, fun i => ?_⟩
    by_cases hi : i = s.nReaders
    · subst hi; exact .inr (by simp [ReaderPc.adding])
    · exact .inl (by simp [spawning, hi])
  | _ => exact .inl ⟨rfl, fun _ => .inl rfl⟩

namespace Session.Merged

variable {s s' : Session} {d : Dir}

/-- Nothing of the direction moves, and what the relay has to write is what it had. -/
theorem frame (h : s.Merged d) (ha : (s'.way d).accepted = (s.way d).accepted)
    (hr : (s'.way d).received = (s.way d).received) (hadd : s'.added d = s.added d)
    (hpc : ∀ i, (s'.readers i).pc.adding d = (s.readers i).pc.adding d ∨
      (s'.readers i).pc.adding d = none)
    (hu : s'.hasClosed = false → s.hasClosed = false ∧
      (s'.way d).relay.unsent = (s.way d).relay.unsent) : s'.Merged d := by
  obtain ⟨sent, fresh, turn, hm, hadding, hp, hw⟩ := h
  have hold : ∀ {i}, (s'.readers i).pc.adding d ≠ none →
      (s'.readers i).pc.adding d = (s.readers i).pc.adding d := fun {i} hn => (hpc i).resolve_right hn
  refine ⟨sent, fresh, turn, ha ▸ hm, ⟨hadd ▸ hadding.begun, fun i w hw' => ?_, fun i j hi hj => ?_⟩,
    hr ▸ hp, fun ho => ?_⟩
  · have hne : (s'.readers i).pc.adding d ≠ none := fun hn => by simp [hn] at hw'
    rw [hadd]
    exact hadding.writing i w (hold hne ▸ hw')
  · exact hadding.apart i j (hold hi ▸ hi) (hold hj ▸ hj)
  · rw [hr, (hu ho).2]
    exact hw (hu ho).1

/-- A reader starts to write new data. -/
theorem start (h : s.Merged d) {i : ℕ} {live : Bool} {buf : List Byte}
    (ha : (s'.way d).accepted = (s.way d).accepted)
    (hr : (s'.way d).received = (s.way d).received) (hadd : s'.added d = s.added d ++ [buf])
    (hi : (s'.readers i).pc.adding d = some ⟨live, buf, buf⟩)
    (hpc : ∀ i' ≠ i, (s'.readers i').pc.adding d = (s.readers i').pc.adding d)
    (hu : s'.hasClosed = false → s.hasClosed = false ∧
      (s'.way d).relay.unsent = (s.way d).relay.unsent) : s'.Merged d := by
  obtain ⟨sent, fresh, turn, hm, hadding, hp, hw⟩ := h
  have hlen : fresh.length = (s.added d).length := hadding.begun.length_eq
  -- the new data gets the next number, which no reader has
  have hlt : ∀ {j}, (s.readers j).pc.adding d ≠ none → turn j < fresh.length := by
    intro j hj
    obtain ⟨w, hw⟩ := Option.ne_none_iff_exists'.1 hj
    obtain ⟨part, hpart, -⟩ := hadding.writing j w hw
    exact (List.getElem?_eq_some_iff.1 hpart).1
  have hother : ∀ {j}, (s'.readers j).pc.adding d ≠ none → j ≠ i →
      (s.readers j).pc.adding d ≠ none ∧ Function.update turn i fresh.length j = turn j :=
    fun {j} hj hji => ⟨hpc j hji ▸ hj, Function.update_of_ne hji _ _⟩
  refine ⟨sent, fresh ++ [[]], Function.update turn i fresh.length, ha ▸ hm.start,
    ⟨?_, fun j w hw' => ?_, fun j k hj hk hjk => ?_⟩, hr ▸ hp, fun ho => ?_⟩
  · rw [hadd]
    exact List.rel_append hadding.begun (.cons (List.nil_prefix) .nil)
  · rw [hadd]
    by_cases hji : j = i
    · subst hji
      rw [hi] at hw'
      cases hw'
      refine ⟨[], ?_, ?_⟩ <;> simp [hlen]
    · obtain ⟨hj, hturn⟩ := hother (fun hn => by simp [hn] at hw') hji
      obtain ⟨part, hpart, hrest⟩ := hadding.writing j w (hpc j hji ▸ hw')
      have hj := hlt hj
      rw [hturn, List.getElem?_append_left hj, List.getElem?_append_left (hlen ▸ hj)]
      exact ⟨part, hpart, hrest⟩
  · by_cases hji : j = i
    · by_cases hki : k = i
      · exact hji.trans hki.symm
      · obtain ⟨hk', hturn⟩ := hother hk hki
        rw [hji, Function.update_self, hturn] at hjk
        exact absurd hjk (hlt hk').ne'
    · obtain ⟨hj', hturn⟩ := hother hj hji
      by_cases hki : k = i
      · rw [hki, Function.update_self, hturn] at hjk
        exact absurd hjk (hlt hj').ne
      · obtain ⟨hk', hturn'⟩ := hother hk hki
        rw [hturn, hturn'] at hjk
        exact hadding.apart j k hj' hk' hjk
  · rw [hr, (hu ho).2]
    exact hw (hu ho).1

/-- The relay sends a part of what it has read. -/
theorem pushRelay (h : s.Merged d) {w : PeerWrite} {k : ℕ} (hpc : (s.way d).relay = .writeDirect w)
    (ho : s.hasClosed = false)
    (hway : s'.way d = { s.way d with
      accepted := (s.way d).accepted ++ w.rest.take k
      relay := .writeDirect { w with rest := w.rest.drop k } })
    (hr : s'.readers = s.readers) (ht : s'.trace = s.trace) : s'.Merged d := by
  obtain ⟨sent, fresh, turn, hm, hadding, hp, hw⟩ := h
  have hrec : (s.way d).received = sent ++ w.rest := by
    have := hw ho
    rwa [hpc] at this
  have hadd : s'.added d = s.added d := congrArg _ ht
  refine ⟨sent ++ w.rest.take k, fresh, turn, ?_, ⟨hadd ▸ hadding.begun, ?_, ?_⟩, ?_, fun _ => ?_⟩
  · rw [hway]
    exact Merge.append (i := 0) _ rfl hm
  · rw [hadd, hr]
    exact hadding.writing
  · rw [hr]
    exact hadding.apart
  · rw [hway]
    show sent ++ w.rest.take k <+: (s.way d).received
    rw [hrec]
    exact (List.prefix_append_right_inj sent).2 (List.take_prefix k w.rest)
  · rw [hway]
    show (s.way d).received = sent ++ w.rest.take k ++ w.rest.drop k
    rw [hrec, List.append_assoc, List.take_append_drop]

/-- A reader sends a part of new data. -/
theorem pushReader (h : s.Merged d) {i k : ℕ} {w : PeerWrite}
    (hpc : (s.readers i).pc.adding d = some w)
    (hway : s'.way d = { s.way d with accepted := (s.way d).accepted ++ w.rest.take k })
    (hi : (s'.readers i).pc.adding d = some { w with rest := w.rest.drop k })
    (hother : ∀ i' ≠ i, (s'.readers i').pc = (s.readers i').pc)
    (ht : s'.trace = s.trace) (hc : s'.hasClosed = s.hasClosed) : s'.Merged d := by
  obtain ⟨sent, fresh, turn, hm, hadding, hp, hw⟩ := h
  have hadd : s'.added d = s.added d := congrArg _ ht
  obtain ⟨part, hpart, hrest⟩ := hadding.writing i w hpc
  have hsome : ∀ {j}, (s'.readers j).pc.adding d ≠ none → (s.readers j).pc.adding d ≠ none := by
    intro j hj
    by_cases hji : j = i
    · subst hji; simp [hpc]
    · rwa [hother j hji] at hj
  refine ⟨sent, fresh.set (turn i) (part ++ w.rest.take k), turn, ?_,
    ⟨?_, fun j v hv => ?_, fun j l hj hl => hadding.apart j l (hsome hj) (hsome hl)⟩, ?_,
    fun ho => ?_⟩
  · rw [hway]
    exact Merge.append (i := turn i + 1) _ hpart hm
  · rw [hadd]
    refine hadding.begun.set hrest ?_
    exact (List.prefix_append_right_inj part).2 (List.take_prefix k w.rest)
  · rw [hadd]
    by_cases hji : j = i
    · subst hji
      rw [hi] at hv
      cases hv
      refine ⟨part ++ w.rest.take k, ?_, ?_⟩
      · rw [List.getElem?_set_self (List.getElem?_eq_some_iff.1 hpart).1]
      · rw [List.append_assoc, List.take_append_drop]
        exact hrest
    · rw [hother j hji] at hv
      have hne : turn i ≠ turn j := fun he =>
        hji (hadding.apart i j (by simp [hpc]) (fun hn => by simp [hn] at hv) he).symm
      rw [List.getElem?_set_ne hne]
      exact hadding.writing j v hv
  · rw [hway]
    exact hp
  · rw [hway]
    exact hw (hc ▸ ho)

end Session.Merged

/-! ## The invariant -/

theorem RelayPc.StoresNothing.eq_writeDirect {pc : RelayPc} {w : PeerWrite} (h : pc.StoresNothing)
    (hw : pc.peerWrite = some w) : pc = .writeDirect w := by
  cases pc with
  | writeDirect => cases hw; rfl
  | flush => exact h.elim
  | _ => cases hw

/-- Such a relay writes to the process the notice at most. -/
theorem RelayPc.StoresNothing.setLinkWrite {pc : RelayPc} {w : LinkWrite} (h : pc.StoresNothing)
    (hw : pc.linkWrite = some w) (w' : LinkWrite) :
    (pc.setLinkWrite w').StoresNothing ∧ (pc.setLinkWrite w').unsent = pc.unsent := by
  cases pc with
  | notify => exact ⟨trivial, rfl⟩
  | writeProcess => exact h.elim
  | _ => cases hw

/-- A reader that reads is at no write. -/
theorem ReaderPc.setLinkRead_adding {pc : ReaderPc} {r : LinkRead} (hr : pc.linkRead = some r)
    (r' : LinkRead) (d : Dir) :
    (pc.setLinkRead r').adding d = none ∧ (pc.setLinkRead r').ReleasesNothing d := by
  cases pc with
  | readHead | readBody => exact ⟨rfl, trivial⟩
  | _ => cases hr

namespace Session.Bypasses

variable {s s' : Session} {d : Dir} {t : Tid}

theorem edit (h : s.Bypasses d) (he : Edit s t s') : s'.Bypasses d := by
  rcases h with h | ⟨hd, h⟩
  · refine .inl (by_contra fun hn => ?_)
    rw [he.resumed.bypass (by simpa using hn)] at h
    cases h
  · exact .inr ⟨hd, (congrArg (fun p => p.2.1) he.same.settings :).trans h⟩

end Session.Bypasses

namespace Session.Passing

variable {s s' : Session} {d : Dir} {t : Tid}

/-- The relay goes on so, and has written what it had read. -/
theorem relay_edit (h : s.Passing d) (hb : s.Bypasses d) (he : Edit s t s') :
    (s'.way d).relay.StoresNothing ∧
      (s'.hasClosed = false → (s'.way d).relay.unsent = (s.way d).relay.unsent) := by
  -- the relay of one direction moves on
  have hmove : ∀ {x : Session} {d₁ p}, x.way = s.way → p.StoresNothing →
      (d = d₁ → p.unsent = (s.way d).relay.unsent) →
      ((x.setRelay d₁ p).way d).relay.StoresNothing ∧
        ((x.setRelay d₁ p).way d).relay.unsent = (s.way d).relay.unsent := by
    intro x d₁ p hx hpc hu
    by_cases hd : d = d₁
    · subst hd; simpa using ⟨hpc, hu rfl⟩
    · simpa [hd, hx] using h.relay
  have hkeep : (s.way d).relay.StoresNothing ∧
      (s'.hasClosed = false → (s.way d).relay.unsent = (s.way d).relay.unsent) :=
    ⟨h.relay, fun _ => rfl⟩
  cases he with
  | @issueWrite t w hw =>
    cases t with
    | relay d₁ =>
      by_cases hd : d = d₁
      · subst hd
        obtain ⟨hS, hu⟩ := h.relay.setLinkWrite hw { w with gen := s.conns, io := s.issued }
        exact (hmove rfl hS fun _ => hu).imp_right fun hu _ => hu
      · simpa [setLinkWrite, hd] using hkeep
    | _ => exact hkeep
  | @relayDone d₁ hc =>
    by_cases hd : d = d₁
    · subst hd
      refine ⟨by simp [RelayPc.StoresNothing], fun ho => ?_⟩
      rw [show s.hasClosed = false from ho] at hc
      cases hc
    · simpa [hd] using hkeep
  | relayDirect hu =>
    exact (hmove (p := .readDirect _) rfl trivial fun hd => hd ▸ hu.symm).imp_right fun hu _ => hu
  | notified hpc =>
    refine (hmove (p := .readDirect _) rfl trivial fun hd => ?_).imp_right fun hu _ => hu
    subst hd
    rw [hpc]
    rfl
  | notify hu =>
    exact (hmove (p := .notify _) rfl trivial fun hd => hd ▸ hu.symm).imp_right fun hu _ => hu
  | @readProcess d₁ hu he hn hr =>
    by_cases hd : d = d₁
    · subst hd
      rcases hb with hb | ⟨hd, hb⟩
      · rw [hn] at hb; cases hb
      · rw [hr hd] at hb; cases hb
    · simpa [innerClientOrServer2proxy2process, hd] using hkeep
  | @relayFlush d₁ gen hu hs =>
    by_cases hd : d = d₁
    · subst hd
      exact absurd h.stored hs
    · simpa [hd] using hkeep
  | _ => exact hkeep

theorem readers_edit (h : s.Passing d) (he : Edit s t s') (i : ℕ) :
    (s'.readers i).pc.ReleasesNothing d := by
  -- a reader goes on
  have hmove : ∀ {x : Session} {i' pc}, x.readers = s.readers → pc.ReleasesNothing d →
      ((x.setReader i' pc).readers i).pc.ReleasesNothing d := by
    intro x i' pc hx hpc
    by_cases hi : i = i'
    · subst hi; simpa using hpc
    · simpa [hi, hx] using h.readers i
  cases he with
  | readerDone | readHead | readBody | writeNew => exact hmove rfl trivial
  | issueRead hr => exact hmove rfl (ReaderPc.setLinkRead_adding hr _ d).2
  | flushServer gen hs | flushClient gen hs =>
    exact hmove rfl fun hd => hs (hd ▸ h.stored)
  | @spawn j conn =>
    by_cases hi : i = s.nReaders
    · subst hi; simp [ReaderPc.ReleasesNothing]
    · simpa [spawning, hi] using h.readers i
  | @issueWrite t => cases t <;> exact h.readers i
  | _ => exact h.readers i

/-- Every update of the code keeps it. -/
theorem edit (h : s.Passing d) (hb : s.Bypasses d) (he : Edit s t s') : s'.Passing d := by
  obtain ⟨hrelay, hu⟩ := h.relay_edit hb he
  have hsame := he.same
  have hopen : s'.hasClosed = false → s.hasClosed = false ∧
      (s'.way d).relay.unsent = (s.way d).relay.unsent := by
    refine fun ho => ⟨by_contra fun hc => ?_, hu ho⟩
    rw [he.resumed.closed (by simpa using hc)] at ho
    cases ho
  refine ⟨(hsame.stored d).trans h.stored, hrelay, h.readers_edit he, ?_⟩
  rcases he.added d with ⟨hadd, hpc⟩ | ⟨i, live, buf, hadd, hi, hpc⟩
  · exact h.merged.frame (hsame.accepted d) (hsame.received d) hadd hpc hopen
  · exact h.merged.start (hsame.accepted d) (hsame.received d) hadd hi hpc hopen

theorem edits (h : s.Passing d) (hb : s.Bypasses d) (he : Edits t s s') : s'.Passing d :=
  (he.inv (P := fun x => x.Passing d ∧ x.Bypasses d)
    (fun _ _ hx he => ⟨hx.1.edit hx.2 he, hx.2.edit he⟩) ⟨h, hb⟩).1

/-- What the direction and its readers hold is as it was. -/
theorem congr (h : s.Passing d) (hst : (s'.way d).storedData = (s.way d).storedData)
    (hw : (s'.way d).relay = (s.way d).relay) (ha : (s'.way d).accepted = (s.way d).accepted)
    (hr : (s'.way d).received = (s.way d).received)
    (hpc : ∀ i, (s'.readers i).pc = (s.readers i).pc) (hadd : s'.added d = s.added d)
    (hc : s'.hasClosed = false → s.hasClosed = false) : s'.Passing d where
  stored := hst.trans h.stored
  relay := hw ▸ h.relay
  readers i := by rw [hpc]; exact h.readers i
  merged := h.merged.frame ha hr hadd (fun i => .inl (by rw [hpc])) fun ho => ⟨hc ho, by rw [hw]⟩

/-- Packets are taken off the queue of another direction, or none. -/
theorem setStored (h : s.Passing d) (d' : Dir) {stored : List Packet}
    (hst : d = d' → stored = []) (acts : List Act) (hn : ∀ a ∈ acts, a.addedTo d = none) :
    ({ s with trace := s.trace ++ acts }.setStored d' stored).Passing d := by
  have hway : (({ s with trace := s.trace ++ acts }.setStored d' stored).way d) = s.way d := by
    by_cases hd : d = d'
    · subst hd
      rw [hst rfl, ← h.stored]
      simp [Session.setStored]
    · simp [Session.setStored, hd]
  exact h.congr (by rw [hway]) (by rw [hway]) (by rw [hway]) (by rw [hway]) (fun _ => rfl)
    (added_of_trace rfl hn) id

/-- Nothing can be taken off an empty queue. -/
theorem cleared_nil {count : ℕ} {next : Int32} {stored : List Packet}
    (h : clearHandledPacket [] count next = some stored) : stored = [] := by
  unfold clearHandledPacket at h
  rw [List.drop_nil] at h
  split at h
  · split at h
    · exact (Option.some.inj h).symm
    · cases h
  · cases h

/-- A part of a write to a peer is sent: it is of what the relay has read, or new data. -/
theorem pushPeer (h : s.Passing d) (hs : Shape s) {t : Tid} {k : ℕ} {d' : Dir} {w : PeerWrite}
    (hpw : s.peerWrite t = some (d', w)) (ho : s.dstOpen d' = true) (h0 : 0 < k)
    (hk : k ≤ w.rest.length) : ((s.accept d' (w.rest.take k)).setPeerWrite
      { w with rest := w.rest.drop k } t).Passing d := by
  cases t with
  | relay d₁ =>
    simp only [peerWrite, Option.map_eq_some_iff, Prod.mk.injEq] at hpw
    obtain ⟨w, hpw, rfl, rfl⟩ := hpw
    by_cases hd : d = d₁
    · subst hd
      have hpc := h.relay.eq_writeDirect hpw
      have hway : ((s.accept d (w.rest.take k)).setPeerWrite { w with rest := w.rest.drop k }
          (.relay d)).way d = { s.way d with
            accepted := (s.way d).accepted ++ w.rest.take k
            relay := .writeDirect { w with rest := w.rest.drop k } } := by
        simp [Session.setPeerWrite, accept, hpc, RelayPc.setPeerWrite]
      have hopen : s.hasClosed = false := by
        rw [hs.dst] at ho
        simpa using ho
      exact ⟨by rw [hway]; exact h.stored, by rw [hway]; trivial, h.readers,
        h.merged.pushRelay hpc hopen hway rfl rfl⟩
    · have hway : ((s.accept d₁ (w.rest.take k)).setPeerWrite { w with rest := w.rest.drop k }
          (.relay d₁)).way d = s.way d := by
        simp [Session.setPeerWrite, accept, hd]
      exact h.congr (by rw [hway]) (by rw [hway]) (by rw [hway]) (by rw [hway]) (fun _ => rfl) rfl id
  | reader i =>
    change (s.readers i).pc.peerWrite = some (d', w) at hpw
    generalize hs' : (s.accept d' (w.rest.take k)).setPeerWrite { w with rest := w.rest.drop k }
      (.reader i) = s'
    have hpc : (s'.readers i).pc =
        (s.readers i).pc.setPeerWrite { w with rest := w.rest.drop k } := by
      subst hs'
      rw [Session.setPeerWrite, setReader_readers, Function.update_self]
      rfl
    have hother : ∀ i' ≠ i, (s'.readers i').pc = (s.readers i').pc := fun i' hi => by
      subst hs'
      exact congrArg Reader.pc (Function.update_of_ne hi _ _)
    have hpos : w.rest ≠ [] := List.ne_nil_of_length_pos (h0.trans_le hk)
    have hready : (s.readers i).pc.ReleasesNothing d := h.readers i
    have hreaders : ∀ i', (s'.readers i').pc.ReleasesNothing d := by
      intro i'
      by_cases hi : i' = i
      · subst hi
        rw [hpc]
        cases hp : (s.readers i').pc with
        | release d₁ count next w₁ =>
          rw [hp] at hpw hready
          cases hpw
          exact fun hd => absurd (hready hd) hpos
        | writeNew | flushServer | flushClient => rw [hp] at hready; exact hready
        | readHead | readBody | done => trivial
      · rw [hother i' hi]
        exact h.readers i'
    by_cases hd : d = d'
    · subst hd
      have hway : s'.way d = { s.way d with
          accepted := (s.way d).accepted ++ w.rest.take k } := by
        subst hs'
        exact Function.update_self _ _ _
      -- it writes nothing stored, so that it writes new data
      obtain ⟨conn, head, hnew⟩ : ∃ conn head, (s.readers i).pc = .writeNew d conn head w := by
        cases hp : (s.readers i).pc with
        | writeNew => rw [hp] at hpw; cases hpw; exact ⟨_, _, rfl⟩
        | release => rw [hp] at hpw hready; cases hpw; exact absurd (hready rfl) hpos
        | flushServer | flushClient => rw [hp] at hpw hready; cases hpw; exact absurd rfl hready
        | readHead | readBody | done => rw [hp] at hpw; cases hpw
      refine ⟨by rw [hway]; exact h.stored, by rw [hway]; exact h.relay, hreaders,
        h.merged.pushReader (i := i) (k := k) (w := w) ?_ hway ?_ hother ?_ ?_⟩
      · simp [hnew, ReaderPc.adding]
      · simp [hpc, hnew, ReaderPc.setPeerWrite, ReaderPc.adding]
      · subst hs'; rfl
      · subst hs'; rfl
    · have hway : s'.way d = s.way d := by
        subst hs'
        exact Function.update_of_ne hd _ _
      have hadd : s'.added d = s.added d ∧ s'.hasClosed = s.hasClosed := by
        subst hs'
        exact ⟨rfl, rfl⟩
      refine ⟨by rw [hway]; exact h.stored, by rw [hway]; exact h.relay, hreaders,
        h.merged.frame (by rw [hway]) (by rw [hway]) hadd.1 (fun i' => ?_)
          fun ho => ⟨hadd.2 ▸ ho, by rw [hway]⟩⟩
      by_cases hi : i' = i
      · subst hi
        rw [hpc]
        cases hp : (s.readers i').pc <;> rw [hp] at hpw <;> cases hpw <;>
          simp [ReaderPc.setPeerWrite, ReaderPc.adding, Ne.symm hd]
      · exact .inl (by rw [hother i' hi])
  | connector => cases hpw
  | detector => cases hpw

/-- A part of a write to the process is sent. -/
theorem pushLink (h : s.Passing d) {t : Tid} {w : LinkWrite} (hw : s.linkWrite t = some w) (k : ℕ) :
    ((s.sendLink w k).setLinkWrite { w with io := .idle, rest := w.rest.drop k } t).Passing d := by
  cases t with
  | relay d₁ =>
    by_cases hd : d = d₁
    · subst hd
      obtain ⟨hS, hu⟩ := h.relay.setLinkWrite hw { w with io := .idle, rest := w.rest.drop k }
      refine ⟨?_, ?_, h.readers, h.merged.frame ?_ ?_ rfl (fun _ => .inl rfl) fun ho => ⟨ho, ?_⟩⟩
      · simpa [Session.setLinkWrite, sendLink, setLink] using h.stored
      · simpa [Session.setLinkWrite, sendLink, setLink] using hS
      · simp [Session.setLinkWrite, sendLink, setLink]
      · simp [Session.setLinkWrite, sendLink, setLink]
      · simpa [Session.setLinkWrite, sendLink, setLink] using hu
    · have hway : ((s.sendLink w k).setLinkWrite { w with io := .idle, rest := w.rest.drop k }
          (.relay d₁)).way d = s.way d := Function.update_of_ne hd _ _
      exact h.congr (by rw [hway]) (by rw [hway]) (by rw [hway]) (by rw [hway]) (fun _ => rfl) rfl id
  | connector => exact h.congr rfl rfl rfl rfl (fun _ => rfl) rfl id
  | reader => cases hw
  | detector => cases hw

/-- The relay has read data in the direct path. -/
theorem writeDirect (h : s.Passing d) {d' : Dir} {live : Bool} {bytes : List Byte}
    (hpc : (s.way d').relay = .readDirect live) : (s.writeDirect d' bytes).Passing d := by
  have htrace : (s.writeDirect d' bytes).trace =
      s.trace ++ [.got d' s.bypass bytes, .direct d' (s.dstOpen d') bytes] := by
    rw [writeDirect_eq]
  have hadd := added_of_trace htrace (d := d) (by simp [Act.addedTo])
  have hreaders : (s.writeDirect d' bytes).readers = s.readers := by rw [writeDirect_eq]
  have hclosed : (s.writeDirect d' bytes).hasClosed = s.hasClosed := by rw [writeDirect_eq]
  by_cases hd : d = d'
  · subst hd
    have hway : (s.writeDirect d bytes).way d = { s.way d with
        received := (s.way d).received ++ bytes
        relay := .writeDirect (s.asyncWrite d bytes) } := by
      rw [writeDirect_eq]
      exact Function.update_self _ _ _
    obtain ⟨sent, fresh, turn, hm, ⟨hb, hw, ha⟩, hp, hu⟩ := h.merged
    refine ⟨by rw [hway]; exact h.stored, by rw [hway]; trivial, by rw [hreaders]; exact h.readers,
      sent, fresh, turn, by rw [hway]; exact hm, ⟨hadd ▸ hb, ?_, ?_⟩, ?_, fun ho => ?_⟩
    · rw [hreaders, hadd]
      exact hw
    · rw [hreaders]
      exact ha
    · rw [hway]
      exact hp.trans (List.prefix_append _ _)
    · rw [hway]
      show (s.way d).received ++ bytes = sent ++ bytes
      rw [hu (hclosed ▸ ho), hpc]
      simp [RelayPc.unsent]
  · have hway : (s.writeDirect d' bytes).way d = s.way d := by
      rw [writeDirect_eq]
      exact Function.update_of_ne hd _ _
    exact h.congr (by rw [hway]) (by rw [hway]) (by rw [hway]) (by rw [hway])
      (fun i => by rw [hreaders]) hadd fun ho => hclosed ▸ ho

/-- **A direction that bypasses the process passes through.** -/
theorem step (h : s.Passing d) (hs : Shape s) (hb : s.Bypasses d) {e : Event}
    (hr : Rule s e s') : s'.Passing d := by
  cases updated_of_rule hr with
  | code _ _ he => exact h.edits hb he
  | @readEof d' _ he =>
    have hx : Session.Passing { s with
        eof := true
        trace := s.trace ++ [.eof d' (s.way d').received (s.way d').accepted] } d :=
      h.congr rfl rfl rfl rfl (fun _ => rfl) (added_of_trace rfl (by simp [Act.addedTo])) id
    exact hx.edits hb he
  | overrun _ _ he =>
    have hx : Session.Passing { s with undefined := true } d :=
      h.congr rfl rfl rfl rfl (fun _ => rfl) rfl id
    exact hx.edits hb he
  | @flushed d' t w _ _ _ he =>
    have hset := h.setStored d' (fun _ => rfl)
      [.flushed d' w.data (storedBytes (s.way d').storedData)] (by simp [Act.addedTo])
    exact edits hset hb he
  | @cleared i d' count next w stored _ hpc hk he =>
    have hset := h.setStored d'
      (fun hd => cleared_nil (by rwa [← hd, h.stored] at hk)) [] (by simp)
    rw [List.append_nil] at hset
    exact edits hset hb he
  | gotDirect hpc => exact h.writeDirect hpc
  | @gotProcess d' live bytes hpc =>
    have hd : d ≠ d' := by
      rintro rfl
      have := h.relay
      rw [hpc] at this
      exact this.elim
    rw [writeProcess_eq]
    have hway : ∀ w, Function.update s.way d' w d = s.way d := fun w => Function.update_of_ne hd _ _
    refine h.congr (congrArg _ (hway _)) (congrArg _ (hway _)) (congrArg _ (hway _))
      (congrArg _ (hway _)) (fun _ => rfl) ?_ id
    exact added_of_trace rfl (by simp [Act.addedTo])
  | pushPeer hpw hl ho h0 hk => exact h.pushPeer hs hpw ho h0 hk
  | pushLink hw => exact h.pushLink hw _
  | @pull i k r hread =>
    have hread := ReaderPc.setLinkRead_adding hread
      { r with io := .idle, got := r.got ++ s.link.inbound.take k } d
    refine ⟨h.stored, h.relay, fun i' => ?_, h.merged.frame rfl rfl rfl (fun i' => ?_)
      fun ho => ⟨ho, rfl⟩⟩
    · by_cases hi : i' = i
      · subst hi; simpa [setLinkRead, setLink] using hread.2
      · simpa [setLinkRead, setLink, hi] using h.readers i'
    · by_cases hi : i' = i
      · subst hi; exact .inr (by simpa [setLinkRead, setLink] using hread.1)
      · exact .inl (by simp [setLinkRead, setLink, hi])
  | @release i d' conn head s₁ _ h₁ _ he =>
    obtain ⟨-, rfl⟩ := he
    have hs₁ : s₁.Passing d := by
      rcases h₁ with rfl | rfl
      · exact h
      · exact h.congr rfl rfl rfl rfl (fun _ => rfl) (by simp [Act.addedTo]) id
    generalize hp : prepareTransferPacket head (s₁.way d').storedData _ = r
    have hway : ∀ w : Way, w.storedData = (s₁.way d').storedData → w.relay = (s₁.way d').relay →
        w.accepted = (s₁.way d').accepted → w.received = (s₁.way d').received →
        (Function.update s₁.way d' w d).storedData = (s₁.way d).storedData ∧
          (Function.update s₁.way d' w d).relay = (s₁.way d).relay ∧
          (Function.update s₁.way d' w d).accepted = (s₁.way d).accepted ∧
          (Function.update s₁.way d' w d).received = (s₁.way d).received := by
      intro w h₁ h₂ h₃ h₄
      by_cases hd : d = d'
      · subst hd; simp [h₁, h₂, h₃, h₄]
      · simp [hd]
    obtain ⟨hst, hrel, hacc, hrec⟩ :=
      hway { s₁.way d' with handledTotalPkgLen := r.handledTotalPkgLen } rfl rfl rfl rfl
    refine ⟨hst.trans hs₁.stored, ?_, fun i' => ?_, hs₁.merged.frame hacc hrec ?_ (fun i' => ?_)
      fun ho => ⟨ho, congrArg _ hrel⟩⟩
    · show (Function.update s₁.way d' _ d).relay.StoresNothing
      rw [hrel]
      exact hs₁.relay
    · by_cases hi : i' = i
      · subst hi
        -- of an empty queue nothing is released
        simp only [releasing, Function.update_self]
        rintro rfl
        show r.bytes = []
        rw [← hp, hs₁.stored]
        rfl
      · simpa [releasing, hi] using hs₁.readers i'
    · exact added_of_trace rfl (by simp [Act.addedTo])
    · by_cases hi : i' = i
      · subst hi; exact .inr (by simp [releasing, ReaderPc.adding])
      · exact .inl (by simp [releasing, hi])
  | connected | connect | respond => exact h.congr rfl rfl rfl rfl (fun _ => rfl) rfl id

theorem init (c : Conf) (d : Dir) : (Session.init c).Passing d := by
  have hm : (Session.init c).Merged d := by
    refine ⟨[], [], fun _ => 0, ?_, ⟨?_, fun i w hw => ?_, fun i j hi => ?_⟩, List.nil_prefix, ?_⟩
    · cases d <;> exact Merge.nil.start
    · exact .nil
    · cases hw
    · exact absurd rfl hi
    · cases d <;> exact fun _ => rfl
  cases d <;> exact ⟨rfl, trivial, fun _ => trivial, hm⟩

end Session.Passing

/-! ## The frames -/

/-- A frame that starts to be sent with event `e`: the four tuple, the notice of
    `server_response`, or what a relay has read for the process. -/
def Session.Starts (s : Session) (e : Event) (f : List Byte) : Prop :=
  f = frame .fourTuple s.fourTuple ∨ f = frame .fromServerToClient [] ∨
    ∃ d live bytes, e = .read d (.data bytes) ∧ (s.way d).relay = .readProcess live ∧
      (bytes = [] → s.room d = 0) ∧ f = frame d.dataType bytes

section

variable {s s' : Session}

/-- A write to the process goes on with its frame when a part of it is sent or issued. -/
theorem frame_setLinkWrite {t t' : Tid} {w w' w₁ : LinkWrite} (hw : s.linkWrite t = some w)
    (h : (s.setLinkWrite w' t).linkWrite t' = some w₁) (hf : w'.frame = w.frame) :
    ∃ w, s.linkWrite t' = some w ∧ w₁.frame = w.frame := by
  obtain ⟨hself, hother⟩ := Linked.linkWrite_setLinkWrite (v := w') hw
  by_cases ht : t' = t
  · subst ht
    rw [hself] at h
    cases h
    exact ⟨w, hw, hf⟩
  · rw [hother t' ht] at h
    exact ⟨w₁, h, rfl⟩

/-- The writes to the process are in the relays and the connectors. -/
theorem linkWrite_congr (hw : ∀ d, (s'.way d).relay = (s.way d).relay)
    (hc : s'.connectors = s.connectors) (t : Tid) : s'.linkWrite t = s.linkWrite t := by
  cases t <;> simp only [linkWrite, hw, hc]

/-- A relay moves to a program point where it writes nothing to the process. -/
theorem linkWrite_setWay {d : Dir} {v : Way} (hn : v.relay.linkWrite = none) {t : Tid}
    {w : LinkWrite} (h : (s.setWay d v).linkWrite t = some w) : s.linkWrite t = some w := by
  cases t with
  | relay d' =>
    by_cases hd : d' = d
    · subst hd
      simp [linkWrite, hn] at h
    · simpa [linkWrite, hd] using h
  | _ => exact h

/-- A connector moves to a program point where it writes nothing to the process. -/
theorem linkWrite_setConnector {t : Tid} {w : LinkWrite} (h : s'.linkWrite t = some w)
    (hw : ∀ d, (s'.way d).relay = (s.way d).relay) {j : ℕ} {pc : ConnectorPc}
    (hc : s'.connectors = Function.update s.connectors j pc) (hn : pc.linkWrite = none) :
    s.linkWrite t = some w := by
  cases t with
  | connector j' =>
    by_cases hj : j' = j
    · subst hj
      simp [linkWrite, hc, hn] at h
    · simpa [linkWrite, hc, hj] using h
  | relay d => simpa [linkWrite, hw] using h
  | _ => cases h

/-- One update of the code starts to write the notice at most. -/
theorem Edit.frame_of_linkWrite {t t' : Tid} {w : LinkWrite} (h : Edit s t s')
    (hw : s'.linkWrite t' = some w) :
    (∃ w', s.linkWrite t' = some w' ∧ w.frame = w'.frame) ∨
      w.frame = frame .fromServerToClient [] := by
  have hold : s.linkWrite t' = some w →
      (∃ w', s.linkWrite t' = some w' ∧ w.frame = w'.frame) ∨
        w.frame = frame .fromServerToClient [] := fun hw => .inl ⟨w, hw, rfl⟩
  cases h with
  | reconnect =>
    refine hold (linkWrite_setConnector hw (fun _ => rfl) rfl ?_)
    split <;> rfl
  | issueWrite hw' => exact .inl (frame_setLinkWrite hw' hw rfl)
  | relayDone | relayDirect | notified | readProcess => exact hold (linkWrite_setWay rfl hw)
  | notify =>
    by_cases ht : t' = .relay .res
    · subst ht
      simp only [Session.linkWrite, setRelay_way, Function.update_self, RelayPc.linkWrite,
        Option.some.injEq] at hw
      exact .inr (hw ▸ rfl)
    · refine hold ?_
      cases t' with
      | relay d =>
        have hd : d ≠ .res := fun hd => ht (by rw [hd])
        simpa [Session.linkWrite, hd] using hw
      | _ => exact hw
  | @relayFlush d =>
    exact hold (linkWrite_setWay (s := s.emit (.flush d _ _)) rfl hw)
  | connectorDone | wait | retry | spawn =>
    exact hold (linkWrite_setConnector hw (fun _ => rfl) rfl rfl)
  | _ => exact hold hw

/-- **Every write to the process goes on with its frame, or starts with one of these.** -/
theorem starts_of_rule {e : Event} (hr : Rule s e s') {t : Tid} {w : LinkWrite}
    (hw : s'.linkWrite t = some w) :
    (∃ w', s.linkWrite t = some w' ∧ w.frame = w'.frame) ∨ s.Starts e w.frame := by
  -- a stretch of code, after something that moves no write
  have hcode : ∀ {x : Session} {t'}, (∀ t, x.linkWrite t = s.linkWrite t) → Edits t' x s' →
      (∃ w', s.linkWrite t = some w' ∧ w.frame = w'.frame) ∨ s.Starts e w.frame := by
    intro x t' hx he
    refine (he.inv (P := fun y => ∀ t w, y.linkWrite t = some w →
      (∃ w', s.linkWrite t = some w' ∧ w.frame = w'.frame) ∨
        w.frame = frame .fromServerToClient []) (fun y y' hy he t w hw => ?_)
      (fun t w hw => .inl ⟨w, hx t ▸ hw, rfl⟩) t w hw).imp_right fun hn => .inr (.inl hn)
    rcases he.frame_of_linkWrite hw with ⟨w', hw', hf⟩ | hf
    · rw [hf]
      exact hy t w' hw'
    · exact .inr hf
  have hold : s.linkWrite t = some w →
      (∃ w', s.linkWrite t = some w' ∧ w.frame = w'.frame) ∨ s.Starts e w.frame :=
    fun hw => .inl ⟨w, hw, rfl⟩
  have hstored : ∀ d stored acts t, ({ s with trace := s.trace ++ acts }.setStored d
      stored).linkWrite t = s.linkWrite t := fun d stored _ t =>
    linkWrite_congr (setStored_relay _ d stored) rfl t
  cases updated_of_rule hr with
  | code _ _ he => exact hcode (fun _ => rfl) he
  | readEof he => exact hcode (fun t => by cases t <;> rfl) he
  | overrun _ _ he => exact hcode (fun t => by cases t <;> rfl) he
  | flushed _ _ he => exact hcode (hstored _ _ _) he
  | cleared _ _ he =>
    exact hcode (fun t => linkWrite_congr (setStored_relay _ _ _) rfl t) he
  | @gotDirect d live bytes =>
    rw [writeDirect_eq] at hw
    refine hold ?_
    cases t with
    | relay d' =>
      by_cases hd : d' = d
      · subst hd
        simp [Session.linkWrite, RelayPc.linkWrite] at hw
      · simpa [Session.linkWrite, hd] using hw
    | _ => exact hw
  | @gotProcess d live bytes hpc hposs =>
    rw [writeProcess_eq] at hw
    by_cases ht : t = .relay d
    · subst ht
      simp only [Session.linkWrite, Function.update_self, RelayPc.linkWrite,
        Option.some.injEq] at hw
      subst hw
      exact .inr (.inr (.inr ⟨d, live, bytes, rfl, hpc, hposs.2.2.1, rfl⟩))
    · refine hold ?_
      cases t with
      | relay d' =>
        have hd : d' ≠ d := fun hd => ht (by rw [hd])
        simpa [Session.linkWrite, hd] using hw
      | _ => exact hw
  | @pushPeer t' k d w' hpw =>
    have hacc := accept_frame s d (w'.rest.take k)
    refine hold ?_
    rw [← linkWrite_congr (s := s) (fun d' => (hacc d').2) rfl]
    cases t' with
    | relay d' =>
      simp only [peerWrite, Option.map_eq_some_iff] at hpw
      obtain ⟨w₁, hpw, -⟩ := hpw
      refine linkWrite_setWay (d := d') ?_ hw
      rw [(hacc d').2]
      cases hpc : (s.way d').relay <;> rw [hpc] at hpw <;> cases hpw <;> rfl
    | reader i => exact hw
    | connector | detector => cases hpw
  | @pushLink t' k w' hlw =>
    have hsend : ∀ t, (s.sendLink w' k).linkWrite t = s.linkWrite t := fun t => by cases t <;> rfl
    rw [← hsend] at hlw ⊢
    exact .inl (frame_setLinkWrite hlw hw rfl)
  | @release i d conn head s₁ _ h₁ _ he =>
    obtain ⟨-, rfl⟩ := he
    refine hold ((linkWrite_congr (fun d' => ?_) ?_ t).symm.trans hw)
    · have hway : s₁.way = s.way := by rcases h₁ with rfl | rfl <;> rfl
      by_cases hd : d' = d
      · subst hd; simp [releasing, hway]
      · simp [releasing, hway, hd]
    · rcases h₁ with rfl | rfl <;> rfl
  | @connected j =>
    by_cases ht : t = .connector j
    · subst ht
      simp only [Session.linkWrite, fourTuple2process, Session.setConnector, Function.update_self,
        ConnectorPc.linkWrite, Option.some.injEq] at hw
      exact .inr (.inl (hw ▸ rfl))
    · refine hold ?_
      cases t with
      | connector j' =>
        have hj : j' ≠ j := fun hj => ht (by rw [hj])
        simpa [Session.linkWrite, fourTuple2process, Session.setConnector, hj] using hw
      | _ => exact hw
  | connect => exact hold (linkWrite_setConnector hw (fun _ => rfl) rfl rfl)
  | pull | respond => exact hold hw

/-- **A frame that is begun on a connection is one that is being written.** -/
theorem begun_of_rule {e : Event} (hr : Rule s e s') {g : ℕ} {f : List Byte}
    (hf : f ∈ (s'.links g).begun) :
    f ∈ (s.links g).begun ∨ ∃ t w, s.linkWrite t = some w ∧ f = w.frame := by
  cases moves hr with
  | code hm => rw [hm.begun] at hf; exact .inl hf
  | @sent t k w hw =>
    have hlinks : ((s.sendLink w k).setLinkWrite { w with io := .idle, rest := w.rest.drop k }
        t).links = (s.sendLink w k).links := by
      cases t <;> rfl
    rw [hlinks] at hf
    by_cases hg : g = s.conns
    · subst hg
      simp only [Session.sendLink, Session.setLink, Function.update_self, List.mem_append] at hf
      rcases hf with hf | hf
      · exact .inl hf
      · split at hf
        · exact .inr ⟨t, w, hw, List.mem_singleton.1 hf⟩
        · cases hf
    · simp only [Session.sendLink, Session.setLink, Function.update_of_ne hg] at hf
      exact .inl hf
  | @connect j =>
    by_cases hg : g = s.conns + 1
    · subst hg
      simp at hf
    · simp only [Function.update_of_ne hg] at hf
      exact .inl hf
  | connected => exact .inl hf

end

namespace Session

variable (s : Session)

/-- A frame that shows the process nothing of the server but that it has answered: the four
    tuple, bytes that were read from the client, or the notice. -/
def WithoutResponse (f : List Byte) : Prop :=
  f = frame .fourTuple s.fourTuple ∨ f = frame .fromServerToClient [] ∨
    ∃ data, data <:+: (s.way .req).received ∧ f = frame .fromClientToServer data

/-- Of the server the process is only told that it has answered. -/
structure WithholdsResponses : Prop where
  writes : ∀ t w, s.linkWrite t = some w → s.WithoutResponse w.frame
  begun : ∀ g, ∀ f ∈ (s.links g).begun, s.WithoutResponse f

variable {s} {s' : Session} {e : Event}

theorem WithoutResponse.of_rule {f : List Byte} (h : s.WithoutResponse f) (hr : Rule s e s') :
    s'.WithoutResponse f := by
  have hframe := frame_of_rule hr
  rcases h with h | h | ⟨data, hd, h⟩
  · exact .inl (h.trans (congrArg (fun p => frame .fourTuple p.2.2) hframe.settings.symm :))
  · exact .inr (.inl h)
  · refine .inr (.inr ⟨data, ?_, h⟩)
    rcases hframe.received .req with hrec | ⟨bytes, -, hrec⟩ <;> rw [hrec]
    · exact hd
    · exact hd.trans (List.prefix_append _ _).isInfix

theorem WithholdsResponses.init (c : Conf) : (Session.init c).WithholdsResponses where
  writes t w hw := by
    cases t with
    | relay d => cases d <;> cases hw
    | connector j =>
      by_cases hj : j = 0
      · subst hj
        cases hw
      · rw [linkWrite, (Shape.init c).connectors j (Nat.one_le_iff_ne_zero.2 hj)] at hw
        cases hw
    | reader => cases hw
    | detector => cases hw
  begun g f hf := by cases hf

/-- A relay of the responses that stores nothing shows the process nothing of them. -/
theorem WithholdsResponses.step (h : s.WithholdsResponses) (hp : (s.way .res).relay.StoresNothing)
    (hr : Rule s e s') : s'.WithholdsResponses where
  writes t w hw := by
    rcases starts_of_rule hr hw with ⟨w', hw', hf⟩ | hf | hf | ⟨d, live, bytes, rfl, hpc, -, hf⟩
    · rw [hf]
      exact (h.writes t w' hw').of_rule hr
    · exact WithoutResponse.of_rule (.inl hf) hr
    · exact .inr (.inl hf)
    · cases d with
      | req =>
        refine .inr (.inr ⟨bytes, ?_, hf⟩)
        cases hr with
        | gotDirect hpc' => rw [hpc'] at hpc; cases hpc
        | gotProcess =>
          rw [writeProcess_eq]
          simpa using (List.suffix_append _ bytes).isInfix
      | res =>
        rw [hpc] at hp
        exact hp.elim
  begun g f hf := by
    rcases begun_of_rule hr hf with hf | ⟨t, w, hw, rfl⟩
    · exact (h.begun g f hf).of_rule hr
    · exact (h.writes t w hw).of_rule hr

end Session

/-! ## Runs -/

/-- A session with `response_bypass`: the responses pass through, and the process is told of
    them at most. -/
structure Bypassed (s : Session) : Prop where
  shape : Shape s
  mode : s.responseBypass = true
  passing : s.Passing .res
  withholds : s.WithholdsResponses

theorem bypassed_of_responseBypass {c : Conf} (hc : c.responseBypass = true) {s : Session}
    (h : Reach Session.step (fun _ _ => True) (Session.init c) s) : Bypassed s := by
  refine h.inv ⟨Shape.init c, hc, .init c .res, .init c⟩ fun s e s' hI _ he => ?_
  have hr := rule_of_step he
  exact ⟨hI.shape.step hr, (congrArg (fun p => p.2.1) (frame_of_rule hr).settings :).trans hI.mode,
    hI.passing.step hI.shape (.inr ⟨rfl, hI.mode⟩) hr, hI.withholds.step hI.passing.relay hr⟩

/-- **With `response_bypass` the responses pass through**, whatever happens to the process
    and whatever it sends. -/
theorem passesThrough_of_responseBypass {c : Conf} (hc : c.responseBypass = true) {s : Session}
    (h : Reach Session.step (fun _ _ => True) (Session.init c) s) : s.PassesThrough .res :=
  (bypassed_of_responseBypass hc h).passing.passesThrough

/-- The process adds a byte to the client's stream, and fails. -/
theorem passesThrough_added : ∃ s : Session, (s.way .res).accepted = [7, 9, 8] ∧
    s.added .res = [[9]] ∧ s.processConnecting = true ∧ s.PassesThrough .res := by
  obtain ⟨s, hs, hp⟩ := exists_run Session.step (fun _ _ => True)
    (Session.init (localConf true))
    (firstUp ++ [.read .res (.data [7]), .push (.relay .res) 1, .complete (.relay .res),
      .push (.relay .res) 5, .complete (.relay .res),
      .respond 1 ⟨⟨1, 0, 0, 0, 1, 0⟩, [9], rfl⟩, .pull 0 16, .complete (.reader 0), .pull 0 1,
      .complete (.reader 0), .push (.reader 0) 1, .complete (.reader 0), .complete (.reader 0),
      .fail (.reader 0), .read .res (.data [8]), .push (.relay .res) 1])
    (fun s => (s.way .res).accepted == [7, 9, 8] && s.added .res == [[9]] && s.processConnecting)
    (fun _ _ _ => trivial) (by decide +kernel)
  simp only [Bool.and_eq_true, beq_iff_eq] at hp
  exact ⟨s, hp.1.1, hp.1.2, hp.2, passesThrough_of_responseBypass rfl hs⟩

/-- **With `response_bypass` no byte of the server is sent to the process**: the process is
    only told that the server has answered. -/
theorem withholdsResponses_of_responseBypass {c : Conf} (hc : c.responseBypass = true)
    {s : Session} (h : Reach Session.step (fun _ _ => True) (Session.init c) s) :
    s.WithholdsResponses :=
  (bypassed_of_responseBypass hc h).withholds

/-- The client asks, the server answers twice, and the process is told so once. -/
theorem withholdsResponses_answered : ∃ s : Session, (s.way .res).accepted = [7, 8] ∧
    (s.links 1).begun = [frame .fourTuple localText, frame .fromServerToClient [],
      frame .fromClientToServer [2]] ∧ s.WithholdsResponses := by
  obtain ⟨s, hs, hp⟩ := exists_run Session.step (fun _ _ => True)
    (Session.init (localConf true))
    (firstUp ++ [.read .res (.data [7]), .push (.relay .res) 1, .complete (.relay .res),
      .push (.relay .res) 5, .complete (.relay .res), .read .req (.data [2]), .push (.relay .req) 6,
      .read .res (.data [8]), .push (.relay .res) 1])
    (fun s => (s.way .res).accepted == [7, 8] && (s.links 1).begun == [frame .fourTuple localText,
      frame .fromServerToClient [], frame .fromClientToServer [2]])
    (fun _ _ _ => trivial) (by decide +kernel)
  simp only [Bool.and_eq_true, beq_iff_eq] at hp
  exact ⟨s, hp.1, hp.2, withholdsResponses_of_responseBypass rfl hs⟩

end CppProxy
