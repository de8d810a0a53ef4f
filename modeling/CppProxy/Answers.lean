/-
  cpp_proxy — the responses of a truthful process.

  The one reader of a connection decodes the responses of the process from their
  first byte.  If the process acknowledges whole payloads with their true
  totals, each total it decodes on an aligned connection cuts the queue between
  two packets.

  * `Awaits`: what a reader has read and what is still inbound are the responses
    it has not handled;
  * `Answers`: the invariant of the current connection;
  * `cutBetween_of_rule`: the totals that are handled cut between packets.
-/
import CppProxy.Align

namespace CppProxy

open Session Runs

/-- The bytes of a sequence of responses. -/
def encode (responses : List Response) : List Byte := responses.flatMap Response.bytes

@[simp] theorem encode_nil : encode [] = [] := rfl

@[simp] theorem encode_cons (r : Response) (rs : List Response) :
    encode (r :: rs) = r.bytes ++ encode rs := rfl

theorem encode_append (rs rs' : List Response) : encode (rs ++ rs') = encode rs ++ encode rs' := by
  simp [encode]

/-- The first bytes of a sequence of responses are a head. -/
theorem head_of_encode {got inbound : List Byte} {pending : List Response}
    (h : got ++ inbound = encode pending) (hl : got.length = responseHeadLen) :
    ∃ r rest, pending = r :: rest ∧ got = r.head.bytes ∧ inbound = r.body ++ encode rest := by
  cases pending with
  | nil =>
    rw [encode_nil, List.append_eq_nil_iff] at h
    rw [h.1] at hl; cases hl
  | cons r rest =>
    rw [encode_cons, Response.bytes, List.append_assoc] at h
    obtain ⟨hg, hi⟩ := List.append_inj h (by rw [hl, r.head.length_bytes])
    exact ⟨r, rest, rfl, hg, hi⟩

/-- What a reader has got and what is inbound are the `pending` responses; the
    first one is the one it reads or handles, unless that is released already. -/
def ReaderPc.Awaits (inbound : List Byte) (pending : List Response) : ReaderPc → Prop
  | readHead r => r.want = responseHeadLen ∧ r.got ++ inbound = encode pending
  | readBody head r => ∃ resp rest, pending = resp :: rest ∧ head = resp.head ∧
      r.want = resp.body.length ∧ r.got ++ inbound = resp.body ++ encode rest
  | writeNew d _ head _ => ∃ resp rest, pending = resp :: rest ∧ head = resp.head ∧
      DataType.ofCode head.type = some d.dataType ∧ inbound = encode rest
  | release _ _ _ _ => inbound = encode pending
  | flushServer _ _ | flushClient _ _ | done => True

/-- The counters are not above the totals of responses that are not handled. -/
def Session.Below (s : Session) (pending : List Response) : Prop :=
  ∀ d : Dir, ∀ r ∈ pending, DataType.ofCode r.head.type = some d.dataType →
    (s.way d).handledTotalPkgLen ≤ r.head.handledTotalPkgLen

/-- The totals of the responses of the current connection end packets and do not fall,
    the counters are 0 or reached by one of them, and what is not handled yet is in the
    connection, or with the reader. -/
structure Answers (s : Session) : Prop where
  whole : ∀ d : Dir, ∀ r ∈ s.link.responses, DataType.ofCode r.head.type = some d.dataType →
    ∃ m ≤ (s.link.frames d).length,
      r.head.handledTotalPkgLen.toNat = ((s.link.frames d).take m).flatten.length
  sorted : s.link.responses.Pairwise fun r r' => ∀ d : Dir,
    DataType.ofCode r.head.type = some d.dataType → DataType.ofCode r'.head.type = some d.dataType →
      r.head.handledTotalPkgLen ≤ r'.head.handledTotalPkgLen
  acked : s.Steady → ∀ d : Dir, (s.way d).handledTotalPkgLen = 0 ∨ ∃ r ∈ s.link.responses,
    DataType.ofCode r.head.type = some d.dataType ∧
      (s.way d).handledTotalPkgLen ≤ r.head.handledTotalPkgLen
  reader : ∀ i, s.Owns s.conns (.reader i) → ∃ pending, pending <:+ s.link.responses ∧
    (s.readers i).pc.Awaits s.link.inbound pending ∧ (s.Steady → s.Below pending)
  unread : (∀ i, ¬ s.Owns s.conns (.reader i)) → s.link.inbound = encode s.link.responses ∧
    (s.Steady → s.Below s.link.responses)

theorem ReaderPc.awaits_setPeerWrite {inbound : List Byte} {pending : List Response}
    {pc : ReaderPc} {w : PeerWrite} (h : pc.Awaits inbound pending) :
    (pc.setPeerWrite w).Awaits inbound pending := by
  cases pc <;> exact h

theorem ReaderPc.Awaits.append {inbound : List Byte} {pending : List Response} {pc : ReaderPc}
    (h : pc.Awaits inbound pending) (r : Response) :
    pc.Awaits (inbound ++ r.bytes) (pending ++ [r]) := by
  have hr : encode [r] = r.bytes := by simp
  cases pc with
  | readHead => exact ⟨h.1, by rw [← List.append_assoc, h.2, encode_append, hr]⟩
  | readBody =>
    obtain ⟨resp, rest, rfl, hh, hw, hi⟩ := h
    exact ⟨resp, rest ++ [r], rfl, hh, hw, by
      rw [← List.append_assoc, hi, encode_append, hr, List.append_assoc]⟩
  | writeNew =>
    obtain ⟨resp, rest, rfl, hh, ht, hi⟩ := h
    exact ⟨resp, rest ++ [r], rfl, hh, ht, by rw [hi, encode_append, hr]⟩
  | release => change _ = _; rw [show inbound = _ from h, encode_append, hr]
  | _ => trivial

theorem Session.Below.mono {s : Session} {pending pending' : List Response} (h : s.Below pending)
    (hs : ∀ r ∈ pending', r ∈ pending) : s.Below pending' :=
  fun d r hr ht => h d r (hs r hr) ht

namespace Answers

variable {s s' : Session}

/-! ## The functions -/

/-- What the invariant reads stays as it is; frames may be added, and readers
    may move on. -/
theorem keep (h : Answers s) (hu : s'.Steady → s.Steady)
    (hH : s'.Steady → ∀ d, (s'.way d).handledTotalPkgLen = (s.way d).handledTotalPkgLen)
    (hl : s'.link.responses = s.link.responses) (hi : s'.link.inbound = s.link.inbound)
    (hf : ∀ d, s.link.frames d <+: s'.link.frames d) (hc : s'.conns = s.conns)
    (ho : ∀ i, s'.Owns s.conns (.reader i) ↔ s.Owns s.conns (.reader i))
    (hr : ∀ i pending, (s.readers i).pc.Awaits s.link.inbound pending →
      ∃ pending', pending' <:+ pending ∧ (s'.readers i).pc.Awaits s.link.inbound pending') :
    Answers s' := by
  have hbelow : ∀ {pending}, s'.Steady → s.Below pending → s'.Below pending := by
    intro pending hs hb d r hr ht
    rw [hH hs]; exact hb d r hr ht
  refine ⟨fun d r hr ht => ?_, hl ▸ h.sorted, fun hs d => ?_, fun i hi' => ?_, fun hn => ?_⟩
  · obtain ⟨m, hm, htot⟩ := h.whole d r (hl ▸ hr) ht
    obtain ⟨l, hl'⟩ := hf d
    refine ⟨m, by rw [← hl']; simp; omega, ?_⟩
    rw [htot, ← hl', List.take_append_of_le_length hm]
  · rw [hH hs, hl]; exact h.acked (hu hs) d
  · rw [hc, ho] at hi'
    obtain ⟨pending, hsuf, haw, hb⟩ := h.reader i hi'
    obtain ⟨pending', hsuf', haw'⟩ := hr i pending haw
    rw [hl, hi]
    exact ⟨pending', hsuf'.trans hsuf, haw', fun hs =>
      (hbelow hs (hb (hu hs))).mono fun r hr => hsuf'.subset hr⟩
  · obtain ⟨hin, hb⟩ := h.unread fun i hi' => hn i (by rw [hc, ho]; exact hi')
    rw [hl, hi]
    exact ⟨hin, fun hs => hbelow hs (hb (hu hs))⟩

/-- Nothing that the invariant reads changes. -/
theorem same (h : Answers s) (hu : s'.Steady → s.Steady)
    (hH : ∀ d, (s'.way d).handledTotalPkgLen = (s.way d).handledTotalPkgLen)
    (hl : s'.link.responses = s.link.responses) (hi : s'.link.inbound = s.link.inbound)
    (hf : ∀ d, s'.link.frames d = s.link.frames d) (hc : s'.conns = s.conns)
    (hr : s'.readers = s.readers) (hn : s'.nReaders = s.nReaders) : Answers s' :=
  h.keep hu (fun _ => hH) hl hi (fun d => hf d ▸ List.prefix_rfl) hc
    (fun i => by simp only [Owns, hr, hn]) fun i pending haw => ⟨pending, List.suffix_rfl, by rwa [hr]⟩

/-- A reader that goes on to something else than reading or releasing. -/
theorem quit (h : Answers s) {i : ℕ} {pc : ReaderPc} (hp : ∀ inbound, pc.Awaits inbound [])
    (hu : (s.setReader i pc).Steady → s.Steady) : Answers (s.setReader i pc) := by
  refine h.keep hu (fun _ _ => rfl) rfl rfl (fun _ => List.prefix_rfl) rfl
    (fun i' => owns_setReader) fun i' pending haw => ?_
  by_cases hi : i' = i
  · subst hi
    exact ⟨[], List.nil_suffix, by simpa using hp _⟩
  · exact ⟨pending, List.suffix_rfl, by simpa [hi] using haw⟩

/-- A relay that did not flush goes on. -/
theorem setRelay (h : Answers s) {d : Dir} {w : Way} (hf : ¬ (s.way d).relay.IsFlush)
    (hH : w.handledTotalPkgLen = (s.way d).handledTotalPkgLen) : Answers (s.setWay d w) := by
  refine h.same (Steady.of_setWay fun hf' => absurd hf' hf) (fun d' => ?_) rfl rfl (fun _ => rfl)
    rfl rfl rfl
  by_cases hd : d' = d
  · subst hd; simpa using hH
  · simp [hd]

/-- Without a connection only the responses count. -/
theorem down (h : Answers s) (hu : ¬ s'.Steady) (hl : s'.links = s.links) (hc : s'.conns = s.conns)
    (hr : s'.readers = s.readers) (hn : s'.nReaders = s.nReaders) : Answers s' :=
  h.keep (fun hs => absurd hs hu) (fun hs => absurd hs hu) (by rw [link, link, hl, hc])
    (by rw [link, link, hl, hc]) (fun d => by simp only [link, hl, hc, List.prefix_rfl]) hc
      (fun i => by simp only [Owns, hr, hn]) fun i pending haw =>
        ⟨pending, List.suffix_rfl, by rwa [hr]⟩

theorem emit (h : Answers s) (a : Act) : Answers (s.emit a) :=
  h.same id (fun _ => rfl) rfl rfl (fun _ => rfl) rfl rfl rfl

theorem cancelTimer (h : Answers s) : Answers s.cancelTimer :=
  h.same id (fun _ => rfl) rfl rfl (fun _ => rfl) rfl rfl rfl

theorem graceClose (h : Answers s) : Answers s.graceClose :=
  graceClose_ind (fun _ => h) fun _ => h.down (fun hu => by cases hu.1.1) rfl rfl rfl rfl

theorem graceClose_setRelay (h : Answers s) (hs : Shape s) (d : Dir) (pc : RelayPc) :
    Answers (s.graceClose.setRelay d pc) :=
  h.graceClose.down (Align.not_steady_of_closed (hs.graceClose.setWay d _) (graceClose_hasClosed s))
    rfl rfl rfl rfl

theorem graceClose_done (h : Answers s) {i : ℕ} (hi : i < s.nReaders) (hs : Shape s) :
    Answers (s.graceClose.setReader i .done) :=
  h.graceClose.quit (fun _ => trivial) fun hu => absurd hu
    (Align.not_steady_of_closed (hs.graceClose.setReader _ (graceClose_ind
      (P := fun s' => i < s'.nReaders) (fun _ => hi) fun _ => hi)) (graceClose_hasClosed s))

theorem connectProcess (h : Answers s) (gen : ℕ) : Answers (s.connectProcess gen) :=
  connectProcess_ind (fun _ => h) fun _ => h.down (fun hu => by cases hu.1.2) rfl rfl rfl rfl

theorem noteRead (h : Answers s) (i : ℕ) : Answers (s.noteRead i) :=
  noteRead_ind (fun _ => h.same (Steady.of_same rfl rfl (fun _ => rfl) rfl rfl) (fun _ => rfl)
    (by simp) (by simp) (by simp) rfl rfl rfl) fun _ => h

theorem breakLink (h : Answers s) (w : LinkWrite) : Answers (s.breakLink w) := by
  refine breakLink_ind (fun _ => h.same (Steady.of_same rfl rfl (fun _ => rfl) rfl rfl)
    (fun _ => rfl) ?_ ?_ (fun d => ?_) rfl rfl rfl) fun _ => h
  all_goals by_cases hg : s.conns = w.gen <;> simp [link, hg]

theorem relayLoop (h : Answers s) {d : Dir} (hf : ¬ (s.way d).relay.IsFlush) :
    Answers (s.relayLoop d) := by
  refine relayLoop_ind (fun _ => ?_) (fun _ _ => h.setRelay hf rfl)
    (fun _ _ _ _ => h.setRelay hf rfl) fun _ _ _ => h.setRelay hf rfl
  refine h.graceClose.setRelay (fun hf' => hf ?_) rfl
  exact graceClose_ind (P := fun s' => (s'.way d).relay.IsFlush → (s.way d).relay.IsFlush)
    (fun _ => id) (fun _ => id) hf'

/-- `connect_process` takes the connection down, so the relay may go on from a flush. -/
theorem relayReconnect (h : Answers s) (d : Dir) (gen : ℕ) : Answers (s.relayReconnect d gen) := by
  have h₁ := h.connectProcess gen
  have hc := connectProcess_connecting s gen
  unfold Session.relayReconnect
  generalize s.connectProcess gen = s₁ at h₁ hc
  refine relayLoop_ind (fun _ => ?_) (fun _ _ => ?_) (fun _ _ _ _ => ?_) fun _ _ _ => ?_
  · refine h₁.graceClose.down (fun hu => ?_) rfl rfl rfl rfl
    have := hu.1.2
    change s₁.graceClose.processConnecting = false at this
    rw [graceClose_ind (P := fun s' => s'.processConnecting = true) (fun _ => hc) fun _ => hc] at this
    cases this
  all_goals
    exact h₁.down (fun hu => by have := hu.1.2; change s₁.processConnecting = false at this
                                rw [hc] at this; cases this) rfl rfl rfl rfl

theorem bypass (h : Answers s) (b : Bool) : Answers { s with bypass := b } :=
  h.same (Steady.of_same rfl rfl (fun _ => rfl) rfl rfl) (fun _ => rfl) rfl rfl (fun _ => rfl)
    rfl rfl rfl

theorem relayFlush (h : Answers s) (d : Dir) (gen : ℕ) : Answers (s.relayFlush d gen) := by
  refine relayFlush_ind (fun _ => ?_) fun _ => ?_
  · exact (h.bypass true).relayReconnect d gen
  · exact h.down (Align.not_steady_of_relay (d := d) (by simp [RelayPc.IsFlush])) rfl rfl rfl rfl

theorem readerReconnect (h : Answers s) (i gen : ℕ) : Answers (s.readerReconnect i gen) :=
  (h.connectProcess gen).quit (fun _ => trivial) fun hu => by
    have := hu.1.2
    change (s.connectProcess gen).processConnecting = false at this
    rw [connectProcess_connecting] at this; cases this

theorem readerFlushClient (h : Answers s) (i gen : ℕ) : Answers (s.readerFlushClient i gen) :=
  readerFlushClient_ind (fun _ => (h.bypass true).readerReconnect i gen)
    fun _ => ((h.bypass true).emit _).quit (fun _ => trivial) (Steady.of_setReader fun _ => trivial)

theorem readerFlushServer (h : Answers s) (i gen : ℕ) : Answers (s.readerFlushServer i gen) :=
  readerFlushServer_ind (fun _ => (h.bypass true).readerFlushClient i gen)
    fun _ => ((h.bypass true).emit _).quit (fun _ => trivial) (Steady.of_setReader fun _ => trivial)

/-- The queues do not matter. -/
theorem setWay (h : Answers s) {d : Dir} {w : Way} (hp : w.relay = (s.way d).relay)
    (hH : w.handledTotalPkgLen = (s.way d).handledTotalPkgLen) : Answers (s.setWay d w) := by
  refine h.same (Steady.of_setWay fun hf => by rwa [hp]) (fun d' => ?_) rfl rfl (fun _ => rfl)
    rfl rfl rfl
  by_cases hd : d' = d
  · subst hd; simpa using hH
  · simp [hd]

theorem clearFlushed (h : Answers s) (d : Dir) (w : PeerWrite) : Answers (s.clearFlushed d w) :=
  (h.emit _).setWay rfl rfl

theorem setPeerWrite (h : Answers s) (w : PeerWrite) (t : Tid) : Answers (s.setPeerWrite w t) := by
  cases t with
  | relay d =>
    refine h.same Steady.of_setPeerWrite (fun d' => ?_) rfl rfl (fun _ => rfl) rfl rfl rfl
    by_cases hd : d' = d <;> simp [Session.setPeerWrite, hd]
  | reader i =>
    refine h.keep Steady.of_setPeerWrite (fun _ _ => rfl) rfl rfl (fun _ => List.prefix_rfl) rfl
      (fun i' => owns_setReader) fun i' pending haw => ⟨pending, List.suffix_rfl, ?_⟩
    by_cases hi : i' = i
    · subst hi; simpa [Session.setPeerWrite] using ReaderPc.awaits_setPeerWrite haw
    · simpa [Session.setPeerWrite, hi] using haw
  | connector j => exact h
  | detector k => exact h

theorem setLinkWrite (h : Answers s) {w v : LinkWrite} {t : Tid} (ht : s.linkWrite t = some v) :
    Answers (s.setLinkWrite w t) := by
  cases t with
  | relay d =>
    refine h.setRelay (fun hf => ?_) rfl
    simp only [linkWrite] at ht
    cases hpc : (s.way d).relay <;> rw [hpc] at ht hf <;> cases ht <;> exact hf
  | connector j => exact h.same id (fun _ => rfl) rfl rfl (fun _ => rfl) rfl rfl rfl
  | reader i => exact h
  | detector k => exact h

/-- A reader that goes on with what is left of its responses. -/
theorem readOn (h : Answers s) {i : ℕ} {pc : ReaderPc}
    (hf : (s.readers i).pc.IsFlush → pc.IsFlush)
    (hp : ∀ pending, (s.readers i).pc.Awaits s.link.inbound pending →
      ∃ pending', pending' <:+ pending ∧ pc.Awaits s.link.inbound pending') :
    Answers (s.setReader i pc) := by
  refine h.keep (Steady.of_setReader hf) (fun _ _ => rfl) rfl rfl (fun _ => List.prefix_rfl) rfl
    (fun i' => owns_setReader) fun i' pending haw => ?_
  by_cases hi : i' = i
  · subst hi; simpa using hp pending haw
  · exact ⟨pending, List.suffix_rfl, by simpa [hi] using haw⟩

theorem noteRead_inbound (s : Session) (i : ℕ) : (s.noteRead i).link.inbound = s.link.inbound :=
  noteRead_ind (P := fun s' => s'.link.inbound = s.link.inbound) (fun _ => by simp) fun _ => rfl

theorem readHead (h : Answers s) {i : ℕ} (hf : ¬ (s.readers i).pc.IsFlush)
    (hp : ∀ pending, (s.readers i).pc.Awaits s.link.inbound pending →
      ∃ rest, rest <:+ pending ∧ s.link.inbound = encode rest) : Answers (s.readHead i) := by
  refine (h.noteRead i).readOn (by simpa using fun hf' => absurd hf' hf) fun pending haw => ?_
  rw [noteRead_inbound] at haw ⊢
  rw [noteRead_readers] at haw
  obtain ⟨rest, hsuf, hin⟩ := hp pending haw
  exact ⟨rest, hsuf, rfl, hin⟩

end Answers

/-- Reader `i` has read the response with `head`. -/
def Session.HasRead (s : Session) (i : ℕ) (head : ResponseHead) : Prop :=
  ∀ pending, (s.readers i).pc.Awaits s.link.inbound pending →
    ∃ resp rest, pending = resp :: rest ∧ head = resp.head ∧ s.link.inbound = encode rest

theorem hasRead_head {s : Session} {i : ℕ} {r : LinkRead} (hpc : (s.readers i).pc = .readHead r)
    (hf : r.Finished) (hn : (ResponseHead.ofBytes r.got).newDataLen = 0) :
    s.HasRead i (ResponseHead.ofBytes r.got) := by
  intro pending haw
  rw [hpc] at haw
  obtain ⟨hw, hin⟩ := haw
  obtain ⟨resp, rest, rfl, hg, hi⟩ := head_of_encode hin (hf.2.trans hw)
  have hh : ResponseHead.ofBytes r.got = resp.head := by rw [hg, ResponseHead.ofBytes_bytes]
  have hb : resp.body = [] := by
    have := resp.body_len
    rw [← hh, hn] at this
    exact List.eq_nil_of_length_eq_zero this
  exact ⟨resp, rest, rfl, hh, by rw [hi, hb, List.nil_append]⟩

theorem hasRead_body {s : Session} {i : ℕ} {head : ResponseHead} {r : LinkRead}
    (hpc : (s.readers i).pc = .readBody head r) (hf : r.Finished) : s.HasRead i head := by
  intro pending haw
  rw [hpc] at haw
  obtain ⟨resp, rest, rfl, rfl, hw, hin⟩ := haw
  exact ⟨resp, rest, rfl, rfl, (List.append_inj hin (hf.2.trans hw)).2⟩

theorem hasRead_new {s : Session} {i : ℕ} {d : Dir} {conn : ℕ} {head : ResponseHead}
    {w : PeerWrite} (hpc : (s.readers i).pc = .writeNew d conn head w) : s.HasRead i head := by
  intro pending haw
  rw [hpc] at haw
  obtain ⟨resp, rest, rfl, rfl, -, hin⟩ := haw
  exact ⟨resp, rest, rfl, rfl, hin⟩

/-- On an aligned connection a true total cuts the queue between packets. -/
theorem cutBetween_of_aligned {s : Session} {d : Dir} {total : UInt64} (ha : s.Aligned d 0)
    (hs : s.Short d) (hw : ∃ m ≤ (s.link.frames d).length,
      total.toNat = ((s.link.frames d).take m).flatten.length)
    (hb : (s.way d).handledTotalPkgLen ≤ total) :
    CutBetween total (s.way d).handledTotalPkgLen (s.way d).storedData := by
  have hsum := Align.sum_of_aligned ha
  obtain ⟨k, -, hfr, hk⟩ := ha
  obtain ⟨m, -, hm⟩ := hw
  rw [Nat.add_zero] at hk
  rw [UInt64.le_iff_toNat_le] at hb
  have hlt : (s.way d).handledTotalPkgLen.toNat + storedLen (s.way d).storedData < 2 ^ 64 := by
    rw [hsum]; exact hs
  have hsplit : ∀ {m k : ℕ}, k ≤ m → ((s.link.frames d).take m).flatten.length =
      ((s.link.frames d).take k).flatten.length +
        (((s.link.frames d).drop k).take (m - k)).flatten.length := by
    intro m k hkm
    rw [← List.length_append, ← List.flatten_append, ← List.take_add, Nat.add_sub_cancel' hkm]
  rcases Nat.le_total k m with hkm | hkm
  · -- the total is ahead: it ends the first `m - k` stored packets
    refine cutBetween_of_take (n := m - k) hlt ?_
    rw [hm, hsplit hkm, ← hk, (hfr.take _).storedLen]
  · -- the total is that of payloads that were released before
    refine cutBetween_of_take (n := 0) hlt ?_
    have := hsplit hkm
    rw [List.take_zero, storedLen_nil]
    omega

namespace Answers

variable {s s' : Session}

/-- What a reader has read is a response of the process: its total is true, and not
    below the counter. -/
theorem of_hasRead (h : Answers s) {i : ℕ} {head : ResponseHead}
    (hi : s.Owns s.conns (.reader i)) (hr : s.HasRead i head) :
    ∃ resp rest, head = resp.head ∧ (resp :: rest) <:+ s.link.responses ∧
      s.link.inbound = encode rest ∧ (s.Steady → s.Below (resp :: rest)) := by
  obtain ⟨pending, hsuf, haw, hb⟩ := h.reader i hi
  obtain ⟨resp, rest, rfl, hh, hin⟩ := hr pending haw
  exact ⟨resp, rest, hh, hsuf, hin, hb⟩

/-- **A total that is handled cuts between packets.** -/
theorem cutBetween_of_hasRead (h : Answers s) {d : Dir} (hA : Align d s) (hs : Shape s)
    (ho : OneReader s) {i : ℕ} {head : ResponseHead} (hi : (s.readers i).pc.Serving)
    (hrel : (s.readers i).pc.releasing d = none) (hr : s.HasRead i head) (hshort : s.Short d)
    (ht : DataType.ofCode head.type = some d.dataType) (hu : s.Steady) :
    CutBetween head.handledTotalPkgLen (s.way d).handledTotalPkgLen (s.way d).storedData := by
  obtain ⟨resp, rest, rfl, hsuf, -, hb⟩ := h.of_hasRead (ho.owns_of_serving hs hi) hr
  have hmem : resp ∈ s.link.responses := hsuf.subset (by simp)
  exact cutBetween_of_aligned (hA.idle hu (Align.releasing_none hs ho hi hrel)) hshort
    (h.whole d resp hmem ht) (hb hu d resp (by simp) ht)

/-- A reader acts on a response that it has read. -/
theorem actOnHead (h : Answers s) (hA : ∀ d, Align d s) (hs : Shape s) (ho : OneReader s) {i : ℕ}
    {d : Dir} (conn : ℕ) {head : ResponseHead} (hi : (s.readers i).pc.Serving)
    (hf : ¬ (s.readers i).pc.IsFlush) (hrel : (s.readers i).pc.releasing d = none)
    (hr : s.HasRead i head) (hshort : s.Short d)
    (ht : DataType.ofCode head.type = some d.dataType) : Answers (s.actOnHead i d conn head) := by
  have hown := ho.owns_of_serving hs hi
  refine actOnHead_ind (fun _ => ?_) fun _ => ?_
  · refine h.graceClose.quit (fun _ => trivial) (Steady.of_setReader fun hf' => hf ?_)
    exact graceClose_ind (P := fun s' => (s'.readers i).pc.IsFlush → (s.readers i).pc.IsFlush)
      (fun _ => id) (fun _ => id) hf'
  generalize hpr : prepareTransferPacket head (s.way d).storedData (s.way d).handledTotalPkgLen = r
  obtain ⟨resp, rest, rfl, hsuf, hin, hb⟩ := h.of_hasRead hown hr
  have hst : (s.releasing i d conn resp.head r).Steady → s.Steady := Steady.of_releasing hf
  have hmem : ∀ r' ∈ resp :: rest, r' ∈ s.link.responses := fun r' hr' => hsuf.subset hr'
  have hhandled : ∀ d', d' ≠ d → ((s.releasing i d conn resp.head r).way d').handledTotalPkgLen =
      (s.way d').handledTotalPkgLen := fun d' hd => by simp [Session.releasing, hd]
  have hle : s.Steady → ((s.releasing i d conn resp.head r).way d).handledTotalPkgLen ≤
      resp.head.handledTotalPkgLen ∨ ((s.releasing i d conn resp.head r).way d).handledTotalPkgLen =
        (s.way d).handledTotalPkgLen := by
    intro hu
    have hcut := h.cutBetween_of_hasRead (hA d) hs ho hi hrel hr hshort ht hu
    have hsum := Align.sum_of_aligned ((hA d).idle hu (Align.releasing_none hs ho hi hrel))
    have := (released resp.head hcut).handled_le (by rw [hsum]; exact hshort)
    rw [hpr] at this
    simpa [Session.releasing] using this
  have howns : ∀ t, (s.releasing i d conn resp.head r).Owns s.conns t ↔ s.Owns s.conns t :=
    fun t => owns_setReader (s := s) (i := i) (q := .release d r.handledPkgCount
      r.nextPkgUsedSize (s.asyncWrite d r.bytes))
  refine ⟨h.whole, h.sorted, fun hu d' => ?_, fun i' hi' => ?_, fun hn => ?_⟩
  · by_cases hd : d' = d
    · subst hd
      rcases hle (hst hu) with hle | heq
      · exact .inr ⟨resp, hmem resp (by simp), ht, hle⟩
      · rw [heq]; exact h.acked (hst hu) d'
    · rw [hhandled d' hd]; exact h.acked (hst hu) d'
  · cases ho.unique _ _ _ hown ((howns _).1 hi')
    refine ⟨rest, (List.suffix_cons resp rest).trans hsuf, ?_, fun hu d' r' hr' ht' => ?_⟩
    · show ReaderPc.Awaits s.link.inbound rest (Function.update s.readers i _ i).pc
      rw [Function.update_self]
      exact hin
    · have hold := hb (hst hu) d' r' (by simp [hr']) ht'
      by_cases hd : d' = d
      · subst hd
        rcases hle (hst hu) with hle | heq
        · have hp := h.sorted.sublist hsuf.sublist
          exact UInt64.le_trans hle ((List.pairwise_cons.1 hp).1 r' hr' d' ht ht')
        · rwa [heq]
      · rwa [hhandled d' hd]
  · exact absurd ((howns _).2 hown) (hn i)

theorem dispatch (h : Answers s) (hA : ∀ d, Align d s) (hs : Shape s) (ho : OneReader s) {i : ℕ}
    (conn : ℕ) {head : ResponseHead} (buf : List Byte) (hi : (s.readers i).pc.Serving)
    (hf : ¬ (s.readers i).pc.IsFlush) (hrel : ∀ d, (s.readers i).pc.releasing d = none)
    (hr : s.HasRead i head) (hshort : ∀ d, s.Short d) : Answers (s.dispatch i conn head buf) := by
  have hnext : ∀ pending, (s.readers i).pc.Awaits s.link.inbound pending →
      ∃ rest, rest <:+ pending ∧ s.link.inbound = encode rest := by
    intro pending haw
    obtain ⟨resp, rest, rfl, -, hin⟩ := hr pending haw
    exact ⟨rest, List.suffix_cons resp rest, hin⟩
  refine dispatch_ind (fun d ht => innerProxy_ind (fun _ => ?_) fun _ => ?_)
    ((h.emit _).cancelTimer.readHead hf hnext) ((h.emit _).readHead hf hnext)
  · refine ((h.emit _).emit _).readOn (fun hf' => absurd hf' hf) fun pending haw => ?_
    obtain ⟨resp, rest, rfl, rfl, hin⟩ := hr pending haw
    exact ⟨_, List.suffix_rfl, resp, rest, rfl, rfl, ht, hin⟩
  · exact (h.emit _).actOnHead (fun d => (hA d).emit _) (hs.emit _) (ho.emit _) conn hi hf (hrel d)
      hr (hshort d) ht

/-- The reader of a connection starts with the first response. -/
theorem superviseProcess (h : Answers s) (ho : OneReader s) {j conn : ℕ} {w : LinkWrite}
    (hj : s.connectors j = .fourTuple conn w) (hc : conn = s.conns) :
    Answers (s.superviseProcess j conn) := by
  subst hc
  have hown : s.Owns s.conns (.connector j) := ⟨w, hj⟩
  have hno : ∀ i, ¬ s.Owns s.conns (.reader i) := by
    intro i hi
    cases ho.unique _ _ _ hown hi
  obtain ⟨hin, hb⟩ := h.unread hno
  obtain ⟨ds, n, hd⟩ := s.superviseProcess_detectors j s.conns
  rw [hd]
  have hsp : Answers ((s.spawning j s.conns).setReader s.nReaders
      (.readHead ⟨s.conns, s.issued, [], responseHeadLen⟩)) := by
    have hst : ((s.spawning j s.conns).setReader s.nReaders
        (.readHead ⟨s.conns, s.issued, [], responseHeadLen⟩)).Steady → s.Steady := fun hu =>
      Steady.of_spawning (hu.of_setReader fun hf => by simp [Session.spawning, ReaderPc.IsFlush] at hf)
    refine ⟨h.whole, h.sorted, fun hu => h.acked (hst hu), fun i hi => ?_, fun hn => ?_⟩
    · -- the connector was the owner, so the new reader is
      have hi' : i = s.nReaders := by
        rcases OneReader.owns_spawning (owns_setReader.1 hi) with ⟨ht, -⟩ | ⟨-, -, ho'⟩
        · cases ht; rfl
        · exact absurd ho' (hno i)
      subst hi'
      refine ⟨s.link.responses, List.suffix_rfl, ?_, fun hu => hb (hst hu)⟩
      rw [setReader_readers, Function.update_self]
      exact ⟨rfl, hin⟩
    · refine absurd (owns_setReader.2 ?_) (hn s.nReaders)
      exact ⟨Nat.lt_succ_self _, by simp [Session.spawning]; rfl⟩
  rw [← readHead_setReader _ _ (.readHead ⟨s.conns, s.issued, [], responseHeadLen⟩)]
  refine (hsp.readHead (i := s.nReaders) ?_ ?_).same ?_ (by exact fun _ => rfl) (by rfl) (by rfl)
    (by exact fun _ => rfl) (by rfl) (by rfl) (by rfl)
  · simp [ReaderPc.IsFlush]
  · intro pending haw
    rw [setReader_readers, Function.update_self] at haw
    exact ⟨pending, List.suffix_rfl, by simpa using haw.2⟩
  · exact Steady.of_same rfl rfl (fun _ => rfl) rfl rfl

/-- A reader has written what it releases, and goes on to the next response. -/
theorem clearReleased (h : Answers s) {i count : ℕ} {d : Dir} {next : Int32} {w : PeerWrite}
    (hpc : (s.readers i).pc = .release d count next w) :
    Answers (s.clearReleased i d count next) := by
  have hf : ¬ (s.readers i).pc.IsFlush := by rw [hpc]; exact id
  have hp : ∀ pending, (s.readers i).pc.Awaits s.link.inbound pending →
      ∃ rest, rest <:+ pending ∧ s.link.inbound = encode rest := by
    intro pending haw
    rw [hpc] at haw
    exact ⟨pending, List.suffix_rfl, haw⟩
  refine clearReleased_ind (fun stored _ => ?_) fun _ => ?_
  · exact (h.setWay (w := { s.way d with storedData := stored }) rfl rfl).readHead hf hp
  · have h₁ : Answers { s with undefined := true } :=
      h.same (Steady.of_same rfl rfl (fun _ => rfl) rfl rfl) (fun _ => rfl) rfl rfl (fun _ => rfl)
        rfl rfl rfl
    exact h₁.readHead hf hp

theorem frames_framed (s : Session) (d d' : Dir) (data : List Byte) :
    s.link.frames d' <+: (s.framed d data s.conns).frames d' := by
  unfold framed
  split
  · rw [Function.update_self]
    by_cases hd : d' = d
    · subst hd; simp
    · simp [hd]
  · exact List.prefix_rfl

/-- A frame is issued: the totals of the responses stay true. -/
theorem writeProcess (h : Answers s) {d : Dir} {live : Bool} {bytes : List Byte}
    (hpc : (s.way d).relay = .readProcess live) : Answers (s.writeProcess d bytes) := by
  have hst := Steady.of_writeProcess hpc (l := bytes)
  rw [writeProcess_eq] at hst ⊢
  have hlink : (s.framed d bytes s.conns).responses = s.link.responses ∧
      (s.framed d bytes s.conns).inbound = s.link.inbound := by
    unfold framed
    split
    · simp
    · exact ⟨rfl, rfl⟩
  refine h.keep hst (fun _ d' => ?_) hlink.1 hlink.2 (fun d' => frames_framed s d d' bytes) rfl
    (fun _ => Iff.rfl) fun i pending haw => ⟨pending, List.suffix_rfl, haw⟩
  by_cases hd : d' = d
  · subst hd; simp
  · simp [hd]

/-- The reader of a connection takes bytes that the process has sent. -/
theorem pull (h : Answers s) (ho : OneReader s) {i k : ℕ} {r : LinkRead}
    (hr : s.linkRead i = some r) (hi : s.Owns s.conns (.reader i)) :
    Answers ((s.setLink { s.link with inbound := s.link.inbound.drop k }).setLinkRead i
      { r with io := .idle, got := r.got ++ s.link.inbound.take k }) := by
  generalize hs' : (s.setLink { s.link with inbound := s.link.inbound.drop k }).setLinkRead i
    { r with io := .idle, got := r.got ++ s.link.inbound.take k } = s'
  have hlink : s'.link = { s.link with inbound := s.link.inbound.drop k } := by
    subst hs'; exact (setReader_link _ _ _).trans (setLink_link s _)
  have hst : s'.Steady → s.Steady := by
    subst hs'
    intro hu
    have h₁ := Steady.of_setReader (ReaderPc.setLinkRead_frame (d := .req)).1.2 hu
    exact h₁.of_same (by rfl) (by rfl) (fun _ => by rfl) (by rfl) (by rfl)
  have hpc : (s'.readers i).pc = (s.readers i).pc.setLinkRead
      { r with io := .idle, got := r.got ++ s.link.inbound.take k } := by
    subst hs'; simp [setLinkRead, Session.setLink]
  have howns : ∀ t, s'.Owns s'.conns t ↔ s.Owns s.conns t := by
    subst hs'
    exact fun t => owns_setReader (s := s.setLink { s.link with inbound := s.link.inbound.drop k })
  have hway : s'.way = s.way := by subst hs'; rfl
  refine ⟨by rw [hlink]; exact h.whole, by rw [hlink]; exact h.sorted, fun hu => ?_,
    fun i' hi' => ?_, fun hn => absurd ((howns _).2 hi) (hn i)⟩
  · rw [hlink, hway]; exact h.acked (hst hu)
  · cases ho.unique _ _ _ hi ((howns _).1 hi')
    obtain ⟨pending, hsuf, haw, hb⟩ := h.reader i hi
    refine ⟨pending, by rw [hlink]; exact hsuf, ?_, fun hu d => by rw [hway]; exact hb (hst hu) d⟩
    rw [hpc, hlink]
    cases hp : (s.readers i).pc with
    | readHead r' =>
      rw [linkRead, hp] at hr; cases hr
      rw [hp] at haw
      refine ⟨haw.1, ?_⟩
      rw [List.append_assoc, List.take_append_drop]
      exact haw.2
    | readBody head r' =>
      rw [linkRead, hp] at hr; cases hr
      rw [hp] at haw
      obtain ⟨resp, rest, hpe, hh, hw, hin⟩ := haw
      refine ⟨resp, rest, hpe, hh, hw, ?_⟩
      rw [List.append_assoc, List.take_append_drop]
      exact hin
    | _ => rw [linkRead, hp] at hr; cases hr

/-- A reader goes on with its read on the connection. -/
theorem issueRead (h : Answers s) {i : ℕ} {r : LinkRead} (hr : s.linkRead i = some r) (gen : ℕ)
    (io : Io) : Answers ((s.noteRead i).setLinkRead i { r with gen, io }) := by
  refine (h.noteRead i).readOn (ReaderPc.setLinkRead_frame (d := .req)).1.2 fun pending haw =>
    ⟨pending, List.suffix_rfl, ?_⟩
  rw [noteRead_readers] at haw ⊢
  cases hp : (s.readers i).pc with
  | readHead r' =>
    rw [linkRead, hp] at hr; cases hr
    rw [hp] at haw; exact haw
  | readBody head r' =>
    rw [linkRead, hp] at hr; cases hr
    rw [hp] at haw; exact haw
  | _ => rw [linkRead, hp] at hr; cases hr

/-- A reader has a head, and reads its body. -/
theorem readBody (h : Answers s) {i : ℕ} {r : LinkRead} (hpc : (s.readers i).pc = .readHead r)
    (hf : r.Finished) : Answers (s.readBody i (ResponseHead.ofBytes r.got)) := by
  refine (h.noteRead i).readOn (fun hf' => ?_) fun pending haw => ?_
  · rw [noteRead_readers, hpc] at hf'; exact hf'
  rw [noteRead_inbound, noteRead_readers, hpc] at haw
  obtain ⟨hw, hin⟩ := haw
  obtain ⟨resp, rest, rfl, hg, hi⟩ := head_of_encode hin (hf.2.trans hw)
  have hh : ResponseHead.ofBytes r.got = resp.head := by rw [hg, ResponseHead.ofBytes_bytes]
  rw [noteRead_inbound]
  refine ⟨_, List.suffix_rfl, resp, rest, rfl, hh, ?_, hi⟩
  rw [hh]
  exact resp.body_len.symm

/-- A connection comes up: its reader is not spawned yet, and the counters are zero. -/
theorem connected (h : Answers s) (ho : OneReader s) {j : ℕ}
    (hpc : s.connectors j = .connecting true)
    (hR : ∀ d, s.proxyProcessSocket = .connected → s.NoFlush → s.Restarted d) :
    Answers (s.fourTuple2process j) := by
  have hno : ∀ i, ¬ s.Owns s.conns (.reader i) := fun i hi => ho.connecting j _ _ hpc hi rfl
  have hzero : (s.fourTuple2process j).Steady → ∀ d, (s.way d).handledTotalPkgLen = 0 :=
    fun hu d => (hR d hu.1.1 hu.2).1
  refine ⟨h.whole, h.sorted, fun hu d => .inl (hzero hu d), fun i hi => absurd hi (hno i), fun _ =>
    ⟨(h.unread hno).1, fun hu d r _ _ => ?_⟩⟩
  show (s.way d).handledTotalPkgLen ≤ _
  rw [hzero hu d, UInt64.le_iff_toNat_le]
  exact Nat.zero_le _

/-- The process has not sent anything on a new connection. -/
theorem connect (hs : Shape s) (ho : OneReader s) {j : ℕ}
    (hpc : s.connectors j = .connecting false) :
    Answers { s with
      proxyProcessSocket := .connected
      conns := s.conns + 1
      links := Function.update s.links (s.conns + 1) {}
      connectors := Function.update s.connectors j (.connecting true) } := by
  generalize hs' : ({ s with
    proxyProcessSocket := _, conns := _, links := _, connectors := _ } : Session) = s'
  have hlink : s'.link = {} := by subst hs'; simp [link]
  have hdown : ¬ s'.Steady := by
    subst hs'
    exact Align.not_steady_of_connecting (hs.connecting j (.inl ⟨_, hpc⟩))
  refine ⟨fun d r hr => ?_, ?_, fun hu => absurd hu hdown, fun i hi => ?_, fun _ =>
    ⟨?_, fun hu => absurd hu hdown⟩⟩
  · rw [hlink] at hr; cases hr
  · rw [hlink]; exact .nil
  · subst hs'
    have := ho.le _ _ (show s.Owns (s.conns + 1) (.reader i) from hi)
    omega
  · rw [hlink]; rfl

/-- The process sends a response with a true total. -/
theorem respond (h : Answers s) {g : ℕ} {r : Response} (hT : Truthful s (.respond g r)) :
    Answers { s with links := Function.update s.links g { s.links g with
      responses := (s.links g).responses ++ [r]
      inbound := (s.links g).inbound ++ r.bytes } } := by
  by_cases hg : g = s.conns
  · subst hg
    generalize hs' : ({ s with links := _ } : Session) = s'
    have hlink : s'.link = { s.link with
        responses := s.link.responses ++ [r]
        inbound := s.link.inbound ++ r.bytes } := by subst hs'; simp [link]
    have hst : s'.Steady → s.Steady := by
      subst hs'; exact Steady.of_same rfl rfl (fun _ => rfl) rfl rfl
    have hway : s'.way = s.way := by subst hs'; rfl
    have hbelow : ∀ {pending}, s'.Steady → s.Below pending → s'.Below (pending ++ [r]) := by
      intro pending hu hb d r' hr' ht'
      rw [hway]
      rcases List.mem_append.1 hr' with hr' | hr'
      · exact hb d r' hr' ht'
      · rw [List.mem_singleton.1 hr'] at ht' ⊢
        rcases h.acked (hst hu) d with h0 | ⟨r₀, hr₀, ht₀, hle⟩
        · rw [h0, UInt64.le_iff_toNat_le]; exact Nat.zero_le _
        · exact UInt64.le_trans hle ((hT d ht').2 r₀ hr₀ ht₀)
    have hread : s'.readers = s.readers ∧ ∀ t, s'.Owns s'.conns t ↔ s.Owns s.conns t := by
      subst hs'; exact ⟨rfl, fun _ => Iff.rfl⟩
    refine ⟨fun d r' hr' ht' => ?_, ?_, fun hu d => ?_, fun i hi => ?_, fun hn => ?_⟩
    · rw [hlink] at hr' ⊢
      rcases List.mem_append.1 hr' with hr' | hr'
      · exact h.whole d r' hr' ht'
      · rw [List.mem_singleton.1 hr'] at ht' ⊢
        exact (hT d ht').1
    · rw [hlink, List.pairwise_append]
      refine ⟨h.sorted, List.pairwise_singleton _ _, fun r₀ hr₀ r' hr' d ht₀ ht' => ?_⟩
      rw [List.mem_singleton.1 hr'] at ht' ⊢
      exact (hT d ht').2 r₀ hr₀ ht₀
    · rw [hlink, hway]
      rcases h.acked (hst hu) d with h0 | ⟨r₀, hr₀, hle⟩
      · exact .inl h0
      · exact .inr ⟨r₀, List.mem_append_left _ hr₀, hle⟩
    · obtain ⟨pending, ⟨l, hl⟩, haw, hb⟩ := h.reader i ((hread.2 _).1 hi)
      rw [hlink, hread.1]
      exact ⟨pending ++ [r], ⟨l, by rw [← hl, List.append_assoc]⟩, haw.append r, fun hu =>
        hbelow hu (hb (hst hu))⟩
    · obtain ⟨hin, hb⟩ := h.unread fun i hi => hn i ((hread.2 _).2 hi)
      rw [hlink]
      exact ⟨by rw [hin, encode_append]; simp, fun hu => hbelow hu (hb (hst hu))⟩
  · refine h.same (Steady.of_same rfl rfl (fun _ => rfl) rfl rfl) (fun _ => rfl) ?_ ?_ (fun d => ?_)
      rfl rfl rfl
    all_goals simp [link, Ne.symm hg]

/-! ## The steps -/

theorem init (c : Conf) : Answers (Session.init c) := by
  have hdown : ¬ (Session.init c).Steady :=
    Align.not_steady_of_connecting ((relayLoop_connecting _ .res).trans
      ((relayLoop_connecting _ .req).trans (connectProcess_connecting _ 0)))
  have h₀ : Answers
      { connBufSize := c.connBufSize
        responseBypass := c.responseBypass
        fourTuple := c.fourTuple } :=
    ⟨fun d r hr => absurd hr (List.not_mem_nil), .nil, fun _ d => .inl rfl,
      fun i hi => absurd hi.1 (Nat.not_lt_zero i), fun _ => ⟨rfl, fun _ _ r hr =>
        absurd hr (List.not_mem_nil)⟩⟩
  exact ((h₀.connectProcess 0).relayLoop (d := .req) id).relayLoop (d := .res) id

theorem step (h : Answers s) (hA : ∀ d, Align d s) (hs : Shape s) (ho : OneReader s) {e : Event}
    (hT : Truthful s e) (hR : ∀ d, Realigned d s e) (hS : ∀ d, s.Short d) (hr : Rule s e s') :
    Answers s' := by
  cases hr with
  | @gotDirect d live bytes hpc =>
    rw [writeDirect_eq]
    exact (h.setRelay (d := d) (by rw [hpc]; exact id) (w := { s.way d with
      received := (s.way d).received ++ bytes
      relay := .writeDirect (s.asyncWrite d bytes) }) rfl).same id (fun _ => rfl) rfl rfl
        (fun _ => rfl) rfl rfl rfl
  | gotProcess hpc => exact h.writeProcess hpc
  | @readEof d live hpc =>
    rw [relayEof_eq]
    refine graceClose_setRelay (s := { s with eof := true, trace := _ }) ?_
      (hs.congr rfl rfl rfl rfl rfl rfl rfl rfl rfl) d _
    exact h.same (Steady.of_same rfl rfl (fun _ => rfl) rfl rfl) (fun _ => rfl) rfl rfl
      (fun _ => rfl) rfl rfl rfl
  | @readError d live hpc => exact h.graceClose_setRelay hs d _
  | @pushPeer t k d w =>
    have h₁ : Answers (s.accept d (w.rest.take k)) := h.setWay rfl rfl
    exact h₁.setPeerWrite _ t
  | @pushLink t k w hw =>
    have h₁ : Answers (s.sendLink w k) :=
      h.same (Steady.of_same rfl rfl (fun _ => rfl) rfl rfl) (fun _ => rfl) (by simp [sendLink])
        (by simp [sendLink]) (by simp [sendLink]) rfl rfl rfl
    exact h₁.setLinkWrite (v := w) (by cases t <;> exact hw)
  | @pull i k r hr hi hg =>
    exact h.pull ho hr ⟨hs.of_linkRead hr, (ho.reading i r hr hi).symm.trans hg⟩
  | issueWrite hw => exact h.setLinkWrite hw
  | issueRead hr => exact h.issueRead hr _ _
  | @notified d w hpc => exact h.setRelay (by rw [hpc]; exact id) rfl
  | @notifyFailed d w hpc =>
    exact (h.breakLink w).setRelay (by rw [breakLink_way, hpc]; exact id) rfl
  | @wroteDirect d w hpc => exact h.relayLoop (by rw [hpc]; exact id)
  | @wroteProcess d w hpc => exact h.relayLoop (by rw [hpc]; exact id)
  | processFailed => exact (h.breakLink _).relayFlush _ _
  | relayFlushed => exact (h.clearFlushed _ _).relayReconnect _ _
  | @relayWriteFailed d w hpc => exact h.graceClose_setRelay hs d _
  | gotHead hpc hf => exact h.readBody hpc hf
  | @gotHeadOnly i r hpc hf hb =>
    exact h.dispatch hA hs ho _ _ (by rw [hpc]; exact hf.1) (by rw [hpc]; exact id)
      (fun _ => by rw [hpc]; rfl) (hasRead_head hpc hf hb) hS
  | @gotBody i head r hpc hf =>
    exact h.dispatch hA hs ho _ _ (by rw [hpc]; exact hf.1) (by rw [hpc]; exact id)
      (fun _ => by rw [hpc]; rfl) (hasRead_body hpc hf) hS
  | @readFailed i r hr =>
    refine readerFailed_ind (fun _ => h.quit (fun _ => trivial) (Steady.of_setReader fun hf => ?_))
      fun _ => h.readerFlushServer _ _
    cases hpc : (s.readers i).pc <;> rw [linkRead, hpc] at hr <;> rw [hpc] at hf <;> cases hr <;>
      exact hf
  | @wroteNew i d conn head w hpc =>
    have hi : (s.readers i).pc.Serving := by rw [hpc]; trivial
    obtain ⟨pending, -, haw, -⟩ := h.reader i (ho.owns_of_serving hs hi)
    rw [hpc] at haw
    obtain ⟨-, -, -, -, ht, -⟩ := haw
    exact h.actOnHead hA hs ho conn hi (by rw [hpc]; exact id) (by rw [hpc]; rfl)
      (hasRead_new hpc) (hS d) ht
  | released hpc => exact h.clearReleased hpc
  | @readerWriteFailed i d w hpc =>
    refine h.graceClose_done (hs.reader_lt ?_) hs
    rcases hpc with ⟨_, _, hpc⟩ | ⟨_, _, hpc⟩ <;> simp [hpc]
  | flushedServer => exact (h.clearFlushed _ _).readerFlushClient _ _
  | flushServerFailed => exact h.graceClose.readerFlushClient _ _
  | flushedClient => exact (h.clearFlushed _ _).readerReconnect _ _
  | flushClientFailed => exact h.graceClose.readerReconnect _ _
  | connected hpc => exact h.connected ho hpc fun d => hR d hpc
  | connectFailed => exact h.same id (fun _ => rfl) rfl rfl (fun _ => rfl) rfl rfl rfl
  | @retry j hpc =>
    exact connectLoop_ind (fun _ => h.same id (fun _ => rfl) rfl rfl (fun _ => rfl) rfl rfl rfl)
      fun _ => h.down (Align.not_steady_of_connecting (hs.connecting j (.inr hpc))) rfl rfl rfl rfl
  | wroteTuple hpc hf => exact h.superviseProcess ho hpc ((ho.sending _ _ _ hpc).1 hf.1)
  | tupleFailed =>
    exact (h.breakLink _).same id (fun _ => rfl) rfl rfl (fun _ => rfl) rfl rfl rfl
  | timedOut => exact h.down (fun hu => by cases hu.1.1) rfl rfl rfl rfl
  | rearm =>
    obtain ⟨ds, hd⟩ := s.detectLoop_detectors _ _
    rw [hd]
    exact h.same (Steady.of_same rfl rfl (fun _ => rfl) rfl rfl) (fun _ => rfl) rfl rfl
      (fun _ => rfl) rfl rfl rfl
  | connect hpc => exact connect hs ho hpc
  | expire =>
    exact h.same (Steady.of_same rfl rfl (fun _ => rfl) rfl rfl) (fun _ => rfl) rfl rfl
      (fun _ => rfl) rfl rfl rfl
  | respond => exact h.respond hT

/-- **A truthful process cuts between packets**: so its acknowledgements keep the
    counters and the queues aligned. -/
theorem cutsBetween (h : Answers s) (hA : ∀ d, Align d s) (hs : Shape s) (ho : OneReader s)
    {e : Event} (hS : ∀ d, s.Short d) (d : Dir) (hr : Rule s e s') : CutsBetween d s e := by
  have hcut : ∀ {i head}, (s.readers i).pc.Serving → (s.readers i).pc.releasing d = none →
      s.HasRead i head → DataType.ofCode head.type = some d.dataType → s.Steady →
        s.Short d ∧ CutBetween head.handledTotalPkgLen (s.way d).handledTotalPkgLen
          (s.way d).storedData := fun hi hrel hread ht hu =>
    ⟨hS d, h.cutBetween_of_hasRead (hA d) hs ho hi hrel hread (hS d) ht hu⟩
  cases hr with
  | @gotHead i r hpc hf hb =>
    intro _ head hact _
    rw [hpc] at hact
    simp [ReaderPc.acting, hb] at hact
  | @gotHeadOnly i r hpc hf hb =>
    intro hu head hact _
    rw [hpc] at hact
    simp only [ReaderPc.acting, hb, true_and, Option.mem_def, Option.ite_none_right_eq_some,
      Option.some.injEq] at hact
    obtain ⟨ht, rfl⟩ := hact
    exact hcut (by rw [hpc]; exact hf.1) (by rw [hpc]; rfl) (hasRead_head hpc hf hb) ht hu
  | @gotBody i head₀ r hpc hf =>
    intro hu head hact _
    rw [hpc] at hact
    simp only [ReaderPc.acting, Option.mem_def, Option.ite_none_right_eq_some,
      Option.some.injEq] at hact
    obtain ⟨⟨-, ht⟩, rfl⟩ := hact
    exact hcut (by rw [hpc]; exact hf.1) (by rw [hpc]; rfl) (hasRead_body hpc hf) ht hu
  | @wroteNew i d' conn head₀ w hpc hf =>
    intro hu head hact _
    have hi : (s.readers i).pc.Serving := by rw [hpc]; trivial
    obtain ⟨pending, -, haw, -⟩ := h.reader i (ho.owns_of_serving hs hi)
    rw [hpc] at hact haw
    obtain ⟨-, -, -, -, ht, -⟩ := haw
    simp only [ReaderPc.acting, Option.mem_def, Option.ite_none_right_eq_some,
      Option.some.injEq] at hact
    obtain ⟨rfl, rfl⟩ := hact
    exact hcut hi (by rw [hpc]; rfl) (hasRead_new hpc) ht hu
  | _ => first
    | trivial
    | (rename_i hpc _; intro _ head hact; rw [hpc] at hact; simp [ReaderPc.acting] at hact)

end Answers

end CppProxy
