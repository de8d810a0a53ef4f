/-
  cpp_proxy — a session with the process behind it.

  The process runs a session of its own for each connection of the proxy.  What
  the proxy has sent on a connection is what that session can read, and the heads
  it sends are what the reader of the proxy can read.

  * `System`: the two programs; `System.step`: either of them moves;
  * `System.KeepsApartShort`: an established connection neither fails nor times out, and
    both ends send their frames apart;
  * `Session.Conserves`: both streams are intact, a quiet direction holds what it
    has not delivered, and the totals end on packet boundaries;
  * `conserved`: it holds in every run that lasts.
-/
import Mathlib.Data.List.Infix
import CppProxy.Heads
import CppProxy.Parting
import CppProxy.Trace

namespace CppProxy

open Session Runs Framing

/-! ## The two programs -/

/-- A response without new data. -/
def Response.ofHead (head : ResponseHead) : Option Response :=
  if h : head.newDataLen = 0 then some ⟨head, [], by rw [h]; rfl⟩ else none

namespace Process

variable (p : Process)

/-- The head whose first byte is sent by a step. -/
def begins : ProcessEvent → Option Response
  | .push t _ => (p.headWrite t).bind fun w =>
    if w.rest = w.frame then Response.ofHead (ResponseHead.ofBytes w.frame) else none
  | _ => none

/-- How much is still to be sent of the heads that are begun. -/
def unsent : ℕ :=
  let left t := (p.headWrite t).elim 0 fun w => if w.rest = w.frame then 0 else w.rest.length
  left .setup + left .heartbeat

end Process

/-- An operation on the socket fails. -/
def ProcessEvent.Fails : ProcessEvent → Prop
  | readError | writeFailed _ => True
  | _ => False

/-- The session of the proxy, and the session of the process for each connection. -/
structure System where
  proxy : Session
  process : ℕ → Process

/-- A step of the proxy, or of the process of connection `g`. -/
inductive SystemEvent
  | proxy (e : Event)
  | process (g : ℕ) (e : ProcessEvent)

namespace System

variable (y : System)

/-- The process at the other end of the current connection. -/
def peer : Process := y.process y.proxy.conns

/-- The proxy's end of connection `g` is closed. -/
def Gone (g : ℕ) : Prop := g ≠ y.proxy.conns ∨ y.proxy.proxyProcessSocket ≠ .connected

/-- What a process reads is what the proxy has sent, and then the end. -/
def Arrives (g : ℕ) : ProcessEvent → Prop
  | .pull bytes => (y.process g).received ++ bytes <+: (y.proxy.links g).sent
  | .readEof _ _ => y.Gone g ∧ (y.process g).received = (y.proxy.links g).sent
  | _ => True

/-- The link carries bytes: a head is put on the connection of the proxy when it is
    begun, and the reader can read what of it is sent. -/
def Carries : SystemEvent → Prop
  | .proxy (.respond _ _) => False
  | .proxy (.pull _ k) => k + y.peer.unsent ≤ y.proxy.link.inbound.length
  | .proxy _ => True
  | .process g e => (0 < g ∧ g ≤ y.proxy.conns) ∧ y.Arrives g e

instance (g : ℕ) : Decidable (y.Gone g) := inferInstanceAs (Decidable (_ ∨ _))
instance (g : ℕ) : ∀ e, Decidable (y.Arrives g e)
  | .pull _ => inferInstanceAs (Decidable (_ <+: _))
  | .readEof _ _ => inferInstanceAs (Decidable (_ ∧ _))
  | .readDone _ | .readError | .tick | .cancelled | .push _ _ | .wrote _ | .writeFailed _ =>
    inferInstanceAs (Decidable True)
instance : ∀ e, Decidable (y.Carries e)
  | .proxy (.respond _ _) => inferInstanceAs (Decidable False)
  | .proxy (.pull _ _) => inferInstanceAs (Decidable (_ ≤ _))
  | .proxy (.read _ _) | .proxy (.push _ _) | .proxy (.issue _) | .proxy (.complete _)
  | .proxy (.fail _) | .proxy (.connect _) | .proxy (.expire _) => inferInstanceAs (Decidable True)
  | .process _ _ => inferInstanceAs (Decidable (_ ∧ _))

/-- What a step of process `g` does to the proxy's end of the connection. -/
def answer (g : ℕ) (e : ProcessEvent) : Option Session :=
  match (y.process g).begins e with
  | some r => y.proxy.step (.respond g r)
  | none => some y.proxy

/-- One step of the whole; `none` where the event cannot happen. -/
def step (e : SystemEvent) : Option System :=
  if y.Carries e then
    match e with
    | .proxy e => (y.proxy.step e).map fun s => { y with proxy := s }
    | .process g e => ((y.process g).step e).bind fun p => (y.answer g e).map fun s =>
      { proxy := s, process := Function.update y.process g p }
  else none

/-- The session once `setup_proxy` has returned; no connection is made. -/
def init (c : Conf) : System := ⟨Session.init c, fun _ => .init⟩

/-- While the session is open, an established connection neither fails nor times
    out; frames and heads are sent apart, and each peer sends fewer than `2 ^ 64`
    bytes. -/
def KeepsApartShort (y : System) (e : SystemEvent) : Prop :=
  (∀ d, (y.proxy.way d).received.length < 2 ^ 64) ∧
    match e with
    | .proxy e => KeepsConnection y.proxy e ∧ y.proxy.Apart e
    | .process g e => (y.process g).Apart e ∧ (y.proxy.hasClosed = false → ¬ e.Fails)

instance (e : ProcessEvent) : Decidable e.Fails :=
  match e with
  | .readError | .writeFailed _ => inferInstanceAs (Decidable True)
  | .pull _ | .readDone _ | .readEof _ _ | .tick | .cancelled | .push _ _ | .wrote _ =>
    inferInstanceAs (Decidable False)
instance (y : System) : ∀ e, Decidable (KeepsApartShort y e)
  | .proxy _ => inferInstanceAs (Decidable (_ ∧ _ ∧ _))
  | .process _ _ => inferInstanceAs (Decidable (_ ∧ _ ∧ _))

end System

/-- Every total that was handled ended at a packet, and the counter is then at it. -/
def Session.EndsAtPackets (s : Session) : Prop :=
  ∀ d live conn total before after next data,
    Act.release d live conn total before after next data ∈ s.trace → next = 0 ∧ after = total

/-- Each peer has accepted a prefix of what the other one sent; a direction that no
    one writes to stores the rest, while the session is open; the totals end at
    packets. -/
structure Session.Conserves (s : Session) : Prop where
  intact : s.StreamsIntact
  quiet : s.hasClosed = false → ∀ d, (∀ t w, s.peerWrite t ≠ some (d, w)) →
    (s.way d).received = (s.way d).accepted ++ storedBytes (s.way d).storedData
  passed : s.EndsAtPackets

theorem System.answer_eq {y : System} {g : ℕ} {e : ProcessEvent} {s' : Session}
    (h : y.answer g e = some s') : (y.process g).begins e = none ∧ y.proxy = s' ∨
      ∃ r, (y.process g).begins e = some r ∧ Rule y.proxy (.respond g r) s' := by
  unfold answer at h
  split at h
  · rename_i r hr
    exact .inr ⟨r, hr, rule_of_step h⟩
  · rename_i hr
    exact .inl ⟨hr, Option.some.inj h⟩

/-! ## The heads of the process -/

/-- The process writes heads, of the current totals or of a heartbeat. -/
theorem Process.Heads.begins {p : Process} (h : p.Heads) {t : Coroutine} {w : HeadWrite}
    (hw : p.headWrite t = some w) :
    ∃ r, Response.ofHead (ResponseHead.ofBytes w.frame) = some r ∧ r.bytes = w.frame ∧
      (r.head = heartbeatHead ∨ ∃ d : Dir, r.head = passHead d.dataType (p.counter d)) := by
  have hof : ∀ head : ResponseHead, head.newDataLen = 0 → w.frame = head.bytes →
      ∃ r, Response.ofHead (ResponseHead.ofBytes w.frame) = some r ∧ r.bytes = w.frame ∧
        r.head = head := by
    intro head h0 hf
    rw [hf, ResponseHead.ofBytes_bytes, Response.ofHead, dif_pos h0]
    exact ⟨_, rfl, List.append_nil _, rfl⟩
  cases t with
  | setup =>
    obtain ⟨d, hf⟩ := h.setup w (Decoded.headWrite_setup hw)
    obtain ⟨r, hr, hb, hh⟩ := hof _ rfl hf
    exact ⟨r, hr, hb, .inr ⟨d, hh⟩⟩
  | heartbeat =>
    have hpc : p.heartbeat = .write w := by
      simp only [headWrite] at hw
      split at hw
      · rename_i hpc
        rw [hpc, Option.some.inj hw]
      · cases hw
    obtain ⟨r, hr, hb, hh⟩ := hof _ rfl (h.heartbeat w hpc)
    exact ⟨r, hr, hb, .inl hh⟩

/-- A head that is begun passes, and has the total of its direction. -/
theorem Process.Heads.head {p : Process} (h : p.Heads) {e : ProcessEvent} {r : Response}
    (hr : p.begins e = some r) : r.head.act = Action.pass.code ∧ r.head.newDataLen = 0 ∧
      ∀ d : Dir, DataType.ofCode r.head.type = some d.dataType →
        r.head.handledTotalPkgLen = p.counter d := by
  cases e with
  | push t k =>
    obtain ⟨w, hw, hr⟩ := Option.bind_eq_some_iff.1 hr
    obtain ⟨r', hr', -, hh⟩ := h.begins hw
    split at hr
    · obtain rfl := Option.some.inj (hr'.symm.trans hr)
      rcases hh with hh | ⟨d, hh⟩ <;> rw [hh]
      · refine ⟨rfl, rfl, fun d ht => ?_⟩
        cases d <;> exact absurd ht (by decide)
      · refine ⟨rfl, rfl, fun d' ht => ?_⟩
        have hd : d.dataType = d'.dataType := by
          change DataType.ofCode d.dataType.code = _ at ht
          rw [DataType.ofCode_code] at ht
          exact Option.some.inj ht
        have hd : d = d' := by
          cases d <;> cases d' <;> first | rfl | cases hd
        rw [← hd]
        rfl
    · cases hr
  | _ => cases hr

/-! ## An open session and its process -/

/-- A step of the proxy is none of the process. -/
theorem keepsConnectionAndPasses {s : Session} (hS : ∀ d, s.Short d) {e : Event}
    (hC : KeepsConnection s e) (he : ∀ g r, e ≠ .respond g r) : KeepsConnectionAndPasses s e := by
  cases e with
  | respond g r => exact absurd rfl (he g r)
  | _ => exact ⟨hC, trivial, trivial, hS⟩

/-- What holds of the two programs while the session is open. -/
structure System.Joined (y : System) : Prop where
  wired : Wired y.peer.total y.proxy
  linked : Linked y.proxy
  fresh : ∀ g, g = 0 ∨ y.proxy.conns < g → y.process g = .init
  heads : y.peer.Heads
  decoded : y.peer.Decoded y.proxy.link.sent []
  eof : y.peer.eof = false

/-- Non-empty payloads: more of them are longer. -/
theorem flatten_take_lt {frames : List (List Byte)} (h : ∀ f ∈ frames, f ≠ []) {m n : ℕ}
    (hm : m < n) (hn : n ≤ frames.length) :
    (frames.take m).flatten.length < (frames.take n).flatten.length := by
  have hlt : m < frames.length := by omega
  have hsplit : frames.take n = frames.take m ++ (frames.drop m).take (n - m) := by
    rw [← List.take_add, Nat.add_sub_cancel' hm.le]
  have hpos : 0 < frames[m].length := List.length_pos_of_ne_nil (h _ (List.getElem_mem hlt))
  rw [hsplit, List.flatten_append, List.length_append, List.drop_eq_getElem_cons hlt]
  obtain ⟨j, hj⟩ : ∃ j, n - m = j + 1 := ⟨n - m - 1, by omega⟩
  rw [hj, List.take_succ_cons, List.flatten_cons, List.length_append]
  omega

namespace System.Joined

variable {y : System}

/-- The process has handled some first payloads of a direction. -/
theorem handled (h : y.Joined) : ∃ fs, fs <+: y.proxy.link.begun ∧
    fs.flatten <+: y.proxy.link.sent ∧
      ∀ d, y.peer.total d = (carried d fs).flatten.length :=
  h.decoded.carried h.eof (h.linked.sent y.proxy.conns).frames_ok (h.linked.sent y.proxy.conns).within

theorem carried_frames (h : y.Joined) {fs : List (List Byte)} (hp : fs <+: y.proxy.link.begun)
    (d : Dir) : carried d fs <+: y.proxy.link.frames d :=
  (carried_mono d hp).trans (h.wired.framed d ▸ List.prefix_append _ _)

/-- The totals of the process are those of the first payloads. -/
theorem total_take (h : y.Joined) (d : Dir) : ∃ m ≤ (y.proxy.link.frames d).length,
    y.peer.total d = ((y.proxy.link.frames d).take m).flatten.length := by
  obtain ⟨fs, hp, -, ht⟩ := h.handled
  have hc := h.carried_frames hp d
  exact ⟨_, hc.length_le, by rw [ht, List.prefix_iff_eq_take.1 hc, List.length_take,
    min_eq_left hc.length_le]⟩

theorem short (h : y.Joined) (hb : ∀ d, (y.proxy.way d).received.length < 2 ^ 64) (d : Dir) :
    y.proxy.Short d :=
  (h.wired.bound d).trans_lt (hb d)

/-- The counter of the process is its total. -/
theorem counter_eq (h : y.Joined) (hS : ∀ d, y.proxy.Short d) (d : Dir) :
    (y.peer.counter d).toNat = y.peer.total d := by
  obtain ⟨m, -, ht⟩ := h.total_take d
  rw [h.decoded.sums.counter_eq, UInt64.toNat_ofNat', Nat.mod_eq_of_lt]
  rw [ht]
  refine lt_of_le_of_lt ?_ (hS d)
  exact (List.IsPrefix.flatten (List.take_prefix m _)).length_le

/-- **The process is truthful**: a head that it begins has the total of the first
    payloads of its direction, and no head before it had more. -/
theorem truthful (h : y.Joined) (hS : ∀ d, y.proxy.Short d) {e : ProcessEvent} {r : Response}
    (hr : y.peer.begins e = some r) : Truthful y.proxy (.respond y.proxy.conns r) := by
  intro d ht
  have htot : r.head.handledTotalPkgLen.toNat = y.peer.total d := by
    rw [(h.heads.head hr).2.2 d ht, h.counter_eq hS]
  obtain ⟨m, hm, hmt⟩ := h.total_take d
  refine ⟨⟨m, hm, htot.trans hmt⟩, fun r' hr' ht' => ?_⟩
  rw [UInt64.le_iff_toNat_le, htot]
  exact h.wired.acked d r' hr' ht'

/-- The connection is up when a relay writes to the process. -/
theorem steady (hp : IntactAndCounted y.proxy) (ho : y.proxy.hasClosed = false) {d : Dir} {w : LinkWrite}
    (hpc : (y.proxy.way d).relay = .writeProcess w) : y.proxy.Steady := by
  have ht := hp.oneConnection ho
  have hb := (ht.inProcess d (by rw [hpc]; trivial)).1
  have hearly : ¬ (y.proxy.connectors 0).IsConnecting := by
    intro hc
    have := (ht.early hc).1
    rw [hb] at this; cases this
  refine ⟨⟨ht.up fun hd => hearly ?_, (ht.late hearly).2⟩, ht.noFlush⟩
  exact hd.elim (fun hd => .inl ⟨_, hd⟩) .inr

/-- A frame that is not sent is not handled. -/
theorem handled_lt (h : y.Joined) (hp : IntactAndCounted y.proxy) (ho : y.proxy.hasClosed = false)
    {d : Dir} {w : LinkWrite} (hpc : (y.proxy.way d).relay = .writeProcess w)
    (hf : ¬ w.Finished) : ∃ m < (y.proxy.link.frames d).length,
      y.peer.total d = ((y.proxy.link.frames d).take m).flatten.length := by
  obtain ⟨fs, hpre, hsent, ht⟩ := h.handled
  have hc := h.carried_frames hpre d
  have hlw : y.proxy.linkWrite (.relay d) = some w := by rw [linkWrite, hpc]; rfl
  have hcar := (h.wired.framing d).writes w hlw
  have hpay := List.length_pos_of_ne_nil ((h.wired.framing d).payload w hpc)
  have hrest : w.rest ≠ [] := fun hn => hf ⟨by_contra fun hi => hcar.unsent hi hn, hn⟩
  have hframed := congrArg List.length (h.wired.framed d)
  rw [List.length_append] at hframed
  refine ⟨(carried d fs).length, ?_, by rw [ht, ← List.prefix_iff_eq_take.1 hc]⟩
  by_cases hbegun : w.rest = w.frame
  · -- the frame is not begun
    have hw : (y.proxy.way d).relay.waiting d = carried d [w.frame] := by
      rw [hpc]
      exact if_pos hbegun
    rw [hw] at hframed
    have := (carried_mono d hpre).length_le
    omega
  · -- the rest of it is not sent
    have halive : y.proxy.Alive := ⟨(steady hp ho hpc).1.1, h.wired.whole⟩
    obtain ⟨whole, hb, -, -, hsum⟩ := (h.linked.clean halive).partWay (.relay d) w.frame w.rest
      (writers_eq_some.2 ⟨w, hlw, hcar.gen, rfl, rfl⟩) ⟨hrest, hbegun⟩
    have hwhole : fs <+: whole := by
      rw [hb] at hpre
      rcases List.prefix_concat_iff.1 hpre with hfs | hfs
      · have hle := hsent.length_le
        have hsum := congrArg List.length hsum
        have hpos := List.length_pos_of_ne_nil hrest
        rw [hb, ← hfs, List.length_append] at hsum
        omega
      · exact hfs
    have hlen := congrArg (fun l => (carried d l).length) hb
    simp only [carried_append, List.length_append] at hlen
    have := (carried_mono d hwhole).length_le
    omega

/-- The packet of a frame that is not sent cannot be released. -/
theorem keeps (h : y.Joined) (hp : IntactAndCounted y.proxy) (ho : y.proxy.hasClosed = false)
    {d : Dir} {n : ℕ} (ha : y.proxy.Aligned d n) (hu : y.proxy.Steady) : y.proxy.Keeps d n := by
  obtain ⟨k, hk, hfr, hcount⟩ := ha
  have hlen := hfr.length
  rw [List.length_drop] at hlen
  refine ⟨by omega, fun hun => ?_⟩
  cases hpc : (y.proxy.way d).relay with
  | writeProcess w =>
    rw [hpc] at hun
    obtain ⟨m, hm, ht⟩ := h.handled_lt hp ho hpc hun
    have hle : (y.proxy.way d).handledTotalPkgLen.toNat ≤ y.peer.total d := by
      rcases (hp.counted ho).answers.acked hu d with h0 | ⟨r, hr, htype, hle⟩
      · rw [h0]; exact Nat.zero_le _
      · exact (UInt64.le_iff_toNat_le.1 hle).trans (h.wired.acked d r hr htype)
    by_contra hn
    have hmn : m < k + n := by omega
    have := flatten_take_lt (h.wired.filled d) hmn hk
    omega
  | _ => rw [hpc] at hun; exact hun.elim

/-- What the reader has read of a direction ends at a stored packet. -/
theorem exact (h : y.Joined) (hp : IntactAndCounted y.proxy) (ho : y.proxy.hasClosed = false)
    {i : ℕ} {r : LinkRead} (hpc : (y.proxy.readers i).pc = .readHead r)
    (hf : r.Finished) {d : Dir} (hn : (ResponseHead.ofBytes r.got).newDataLen = 0)
    (ht : DataType.ofCode (ResponseHead.ofBytes r.got).type = some d.dataType) :
    y.proxy.Exact d (ResponseHead.ofBytes r.got).handledTotalPkgLen := by
  have hc := hp.counted ho
  have hu := (hp.oneConnection ho).steady hp.shape (i := i) (by rw [hpc]; simp)
  have hserv : (y.proxy.readers i).pc.Serving := by rw [hpc]; exact hf.1
  obtain ⟨resp, rest, hh, hsuf, -, hbelow⟩ :=
    hc.answers.of_hasRead (hc.one.owns_of_serving hp.shape hserv) (hasRead_head hpc hf hn)
  have ha := (hc.align d).idle hu
    (Align.releasing_none hp.shape hc.one hserv (by rw [hpc]; rfl))
  have hsum := Align.sum_of_aligned ha
  rw [hh] at ht ⊢
  obtain ⟨m, hm, hmt⟩ := hc.answers.whole d resp (hsuf.subset (by simp)) ht
  have hle := UInt64.le_iff_toNat_le.1 (hbelow hu d resp (by simp) ht)
  refine ⟨?_, hsum.le.trans (h.wired.bound d)⟩
  obtain ⟨k, hkl, hfr, hk⟩ := ha
  rw [Nat.add_zero] at hkl hk
  have hlen := hfr.length
  rw [List.length_drop] at hlen
  have hkm : k ≤ m := by
    -- the payloads are not empty, so fewer of them have a smaller total
    by_contra hlt
    have := flatten_take_lt (h.wired.filled d) (Nat.lt_of_not_le hlt) hkl
    omega
  refine ⟨m - k, by omega, ?_⟩
  rw [hmt, hk, (hfr.take _).storedLen, ← List.length_append, ← List.flatten_append, ← List.take_add,
    Nat.add_sub_cancel' hkm]

/-- **An open session may close at any time**: what it can still do is as it should be. -/
theorem parting (h : y.Joined) (hp : IntactAndCounted y.proxy) (ho : y.proxy.hasClosed = false) :
    Parting y.proxy := by
  have ht := hp.oneConnection ho
  have hc := hp.counted ho
  have hplain : ∀ i, (y.proxy.readers i).pc.Plain := hp.streams.plain ho
  have hrel : ∀ i d count next w, (y.proxy.readers i).pc = .release d count next w →
      next = 0 ∧ y.proxy.Keeps d count := by
    intro i d count next w hpc
    have hu := ht.steady hp.shape (i := i) (by rw [hpc]; simp)
    obtain ⟨h0, ha⟩ := (hc.align d).releasing hu i count next (by rw [hpc]; exact if_pos rfl)
    exact ⟨h0, h.keeps hp ho ha hu⟩
  refine ⟨ht.one, fun hd => ?_, ?_, fun i => ⟨hplain i, fun hf => ?_⟩, fun i r hpc hf => ?_,
    fun i d count next w hpc _ => hrel i d count next w hpc, fun d gen w hpc => ?_, fun d => ?_⟩
  · rw [ht.readers, if_neg hd]
  · rw [ht.readers]
    split <;> omega
  · have hi : (y.proxy.readers i).pc ≠ .done := fun hd => by rw [hd] at hf; exact hf
    exact ht.noFlush.2 i (hp.shape.reader_lt hi) hf
  · have hn := ht.noNewData hc hpc hf
    exact ⟨hn, fun d htype => h.exact hp ho hpc hf hn htype⟩
  · exact absurd (by rw [hpc]; trivial) (ht.noFlush.1 d)
  · refine ⟨Nat.zero_le _, fun hun => ?_⟩
    cases hpc : (y.proxy.way d).relay with
    | writeProcess w =>
      have hu := steady hp ho hpc
      by_cases hq : ∀ i, (y.proxy.readers i).pc.releasing d = none
      · exact (h.keeps hp ho ((hc.align d).idle hu hq) hu).lt hun
      · -- the reader releases some of the packets
        obtain ⟨i, hi⟩ := not_forall.1 hq
        obtain ⟨⟨count, next⟩, hi⟩ := Option.ne_none_iff_exists'.1 hi
        have ha := ((hc.align d).releasing hu i count next hi).2
        exact (Nat.zero_le count).trans_lt ((h.keeps hp ho ha hu).lt hun)
    | _ => rw [hpc] at hun; exact hun.elim

/-! ## The steps of the proxy -/

/-- The proxy goes on with the same connection; it may send more. -/
theorem same (h : y.Joined) {s' : Session} (hw : Wired y.peer.total s') (hl : Linked s')
    (hc : s'.conns = y.proxy.conns) (hs : y.proxy.link.sent <+: s'.link.sent) :
    Joined { y with proxy := s' } := by
  have hpeer : ({ y with proxy := s' } : System).peer = y.peer := congrArg y.process hc
  refine ⟨?_, hl, fun g hg => h.fresh g (hc ▸ hg), ?_, ?_, ?_⟩ <;> rw [hpeer]
  · exact hw
  · exact h.heads
  · exact h.decoded.mono h.eof hs
  · exact h.eof

/-- **The proxy moves.** -/
theorem proxy (h : y.Joined) (hp : IntactAndCounted y.proxy) (ho : y.proxy.hasClosed = false)
    {e : Event} (hC : KeepsConnection y.proxy e) (hA : y.proxy.Apart e) (he : ∀ g r, e ≠ .respond g r)
    {s' : Session} (hr : Rule y.proxy e s') (ho' : s'.hasClosed = false) :
    Joined { y with proxy := s' } := by
  have ht := hp.oneConnection ho
  have hw := h.wired.step ht hp.shape h.linked ho hC he hr ho'
  have hl := h.linked.step hp.shape hA hr
  cases moves hr with
  | code hm =>
    refine h.same hw hl hm.conns ?_
    simp only [link, hm.conns, hm.sent, List.prefix_rfl]
  | @sent t k w =>
    obtain ⟨hlinks, hconns, -, -⟩ := Linked.setLinkWrite_frame (y.proxy.sendLink w k)
      { w with io := .idle, rest := w.rest.drop k } t
    have hsent : (y.proxy.sendLink w k).link.sent = y.proxy.link.sent ++ w.rest.take k := by
      rw [sendLink, setLink_link]
    refine h.same hw hl hconns ?_
    rw [show ((y.proxy.sendLink w k).setLinkWrite _ t).link = (y.proxy.sendLink w k).link by
      rw [link, link, hlinks, hconns], hsent]
    exact List.prefix_append _ _
  | @connect j hpc =>
    -- the first connection: both sessions of the process are as they were spawned
    obtain rfl := ht.connector_eq hp.shape (j := j) (by rw [hpc]; simp)
    have h0 : y.proxy.conns = 0 := by
      rw [ht.conns, if_pos]
      exact .inl hpc
    have hpeer : y.peer = .init := h.fresh _ (.inl h0)
    have hnew : y.process (y.proxy.conns + 1) = .init := h.fresh _ (.inr (Nat.lt_succ_self _))
    refine ⟨?_, hl, fun g hg => h.fresh g (hg.imp_right (Nat.lt_of_succ_lt)), ?_, ?_, ?_⟩ <;>
      unfold peer <;> simp only [hnew]
    · rw [hpeer] at hw; exact hw
    · exact Process.Heads.init
    · exact Process.Decoded.start []
    · rfl
  | connected => exact h.same hw hl rfl List.prefix_rfl

/-! ## The steps of the process -/

/-- **The process moves.** -/
theorem process (h : y.Joined) (hp : IntactAndCounted y.proxy) (ho : y.proxy.hasClosed = false)
    (hS : ∀ d, y.proxy.Short d) {e : ProcessEvent} (h0 : 0 < y.proxy.conns)
    (ha : y.Arrives y.proxy.conns e) (hf : ¬ e.Fails) {p : Process}
    (hst : y.peer.step e = some p) {s' : Session} (hs' : y.answer y.proxy.conns e = some s') :
    Joined ⟨s', Function.update y.process y.proxy.conns p⟩ := by
  have hup : y.proxy.proxyProcessSocket = .connected := by
    refine (hp.oneConnection ho).up fun hd => ?_
    rw [(hp.oneConnection ho).conns, if_pos hd] at h0
    omega
  have hnoEof : ∀ garbage parses, e ≠ .readEof garbage parses := by
    rintro garbage parses rfl
    exact ha.1.elim (fun hne => hne rfl) fun hne => hne hup
  have hgrows := Process.grows_of_step hst
  have hsends : y.peer.Sends y.proxy.link.sent [] e := by
    cases e with
    | pull bytes => exact ha
    | readEof garbage parses => exact absurd rfl (hnoEof _ _)
    | _ => trivial
  have hdec := h.decoded.step hsends hst
  have heof := (Process.eof_of_step hst hnoEof).trans h.eof
  have hwired := h.wired.mono hgrows.total_le
  have hjoin : ∀ {s' : Session}, Wired p.total s' → Linked s' → s'.conns = y.proxy.conns →
      s'.link.sent = y.proxy.link.sent →
        Joined ⟨s', Function.update y.process y.proxy.conns p⟩ := fun {s'} hw hl hc hs => by
    have hpeer : (⟨s', Function.update y.process y.proxy.conns p⟩ : System).peer = p := by
      simp only [peer, hc, Function.update_self]
    refine ⟨?_, hl, fun g hg => ?_, ?_, ?_, ?_⟩
    · rw [hpeer]; exact hw
    · rw [hc] at hg
      exact (Function.update_of_ne (by omega) _ _).trans (h.fresh g hg)
    · rw [hpeer]; exact hgrows.heads h.heads
    · rw [hpeer, hs]; exact hdec
    · rw [hpeer]; exact heof
  rcases answer_eq hs' with ⟨-, rfl⟩ | ⟨r, hb, hr⟩
  · exact hjoin hwired h.linked rfl rfl
  · have hw := hwired.respond (g := y.proxy.conns) (r := r) fun d ht => by
      rw [(h.heads.head hb).2.2 d ht, h.counter_eq hS]
      exact hgrows.total_le d
    have hl := h.linked.step hp.shape (e := .respond _ r) trivial hr
    cases hr with
    | respond => exact hjoin hw hl rfl (by simp [link])

end System.Joined

/-! ## Totals -/

/-- A step handles only totals that end at packets. -/
theorem Session.EndsAtPackets.step {s s' : Session} (h : s.EndsAtPackets) (hs : Shape s)
    (hP : Parting s) (hb : ∀ d, (s.way d).received.length < 2 ^ 64) {e : Event}
    (hr : Rule s e s') : s'.EndsAtPackets := by
  obtain ⟨acts, hem, htrace⟩ := records_of_rule hs hr
  intro d live conn total before after next data hm
  rw [htrace] at hm
  rcases List.mem_append.1 hm with hm | hm
  · exact h d live conn total before after next data hm
  cases hem with
  | silent ha => exact (ha _ hm).elim
  | flush ha =>
    rcases List.mem_append.1 hm with hm | hm
    · exact (ha _ hm).elim
    · simp at hm
  | @pass i conn' head buf d' hh ht hn hact =>
    simp only [releaseAct, List.mem_cons, List.not_mem_nil, or_false, reduceCtorEq, false_or,
      Act.release.injEq] at hm
    obtain ⟨rfl, -, rfl, rfl, rfl, rfl, rfl, -⟩ := hm
    rcases hh with ⟨r, hpc, hf, rfl, -⟩ | ⟨r, hpc, -⟩
    · obtain ⟨⟨n, -, htot⟩, hbound⟩ := (hP.head i r hpc hf).2 d ht
      exact prepare_of_take _ (hbound.trans_lt (hb d)) htot
    · have := (hP.plain i).1
      rw [hpc] at this
      exact this.elim
  | @passNew i d' conn' head w hpc =>
    have := (hP.plain i).1
    rw [hpc] at this
    exact this.elim
  | _ => simp at hm

/-! ## Runs -/

/-- A step of the proxy, or of the process behind it. -/
theorem System.step_cases {y y' : System} {e : SystemEvent} (hst : y.step e = some y') :
    (∃ e₁ s', e = .proxy e₁ ∧ Rule y.proxy e₁ s' ∧ (∀ g r, e₁ ≠ .respond g r) ∧
      y' = { y with proxy := s' }) ∨
    ∃ g e₁ p s', e = .process g e₁ ∧ (0 < g ∧ g ≤ y.proxy.conns) ∧ y.Arrives g e₁ ∧
      (y.process g).step e₁ = some p ∧ y.answer g e₁ = some s' ∧
        y' = ⟨s', Function.update y.process g p⟩ := by
  unfold System.step at hst
  split at hst
  case isFalse => cases hst
  rename_i hcar
  cases e with
  | proxy e =>
    obtain ⟨s', hs', rfl⟩ := Option.map_eq_some_iff.1 hst
    refine .inl ⟨e, s', rfl, rule_of_step hs', ?_, rfl⟩
    rintro g r rfl
    exact hcar
  | process g e =>
    obtain ⟨p, hp, hst⟩ := Option.bind_eq_some_iff.1 hst
    obtain ⟨s', hs', rfl⟩ := Option.map_eq_some_iff.1 hst
    exact .inr ⟨g, e, p, s', rfl, hcar.1, hcar.2, hp, hs', rfl⟩

/-- The two programs while the connection lasts: the session is open and joined with
    its process, or it has closed and parts. -/
structure System.Sound (y : System) : Prop where
  intact : IntactAndCounted y.proxy
  joined : y.proxy.hasClosed = false → y.Joined
  closed : y.proxy.hasClosed = true → Parting y.proxy
  passed : y.proxy.EndsAtPackets

namespace System.Sound

variable {y y' : System}

theorem init (c : Conf) : Sound (System.init c) where
  intact := IntactAndCounted.init c
  joined _ := ⟨Wired.init c, Linked.init c, fun _ _ => rfl, Process.Heads.init,
    Process.Decoded.start [], rfl⟩
  closed hc := by cases hc
  passed := fun _ _ _ _ _ _ _ _ hm => by
    rw [show (System.init c).proxy.trace = _ from trace_init c] at hm
    simp at hm

theorem parting (h : y.Sound) : Parting y.proxy := by
  cases hc : y.proxy.hasClosed with
  | false => exact (h.joined hc).parting h.intact hc
  | true => exact h.closed hc

/-- An open session has one connection at most. -/
theorem conns_le (h : y.Sound) (ho : y.proxy.hasClosed = false) : y.proxy.conns ≤ 1 := by
  rw [(h.intact.oneConnection ho).conns]
  split <;> omega

/-- A process answers truthfully. -/
theorem passes_respond (h : y.Sound) (hS : ∀ d, y.proxy.Short d)
    (ho : y.proxy.hasClosed = false) {e : ProcessEvent} {r : Response}
    (hr : y.peer.begins e = some r) : KeepsConnectionAndPasses y.proxy (.respond y.proxy.conns r) := by
  obtain ⟨ha, hn, -⟩ := (h.joined ho).heads.head hr
  exact ⟨trivial, (h.joined ho).truthful hS hr, ⟨ha, hn⟩, hS⟩

theorem step (h : y.Sound) {e : SystemEvent} (hL : KeepsApartShort y e) (hst : y.step e = some y') :
    Sound y' := by
  obtain ⟨hb, hL⟩ := hL
  have hshort : y.proxy.hasClosed = false → ∀ d, y.proxy.Short d := fun hc => (h.joined hc).short hb
  unfold System.step at hst
  split at hst
  case isFalse => cases hst
  rename_i hcar
  have hopen : ∀ {e s'}, Rule y.proxy e s' → s'.hasClosed = false →
      y.proxy.hasClosed = false := fun hr ho => open_before_of_rule hr ho
  cases e with
  | proxy e =>
    obtain ⟨s', hs', rfl⟩ := Option.map_eq_some_iff.1 hst
    obtain ⟨hC, hA⟩ := hL
    have hr := rule_of_step hs'
    have he : ∀ g r, e ≠ .respond g r := by
      rintro g r rfl
      exact hcar
    exact ⟨h.intact.step (fun hc => keepsConnectionAndPasses (hshort hc) hC he) hr,
      fun ho => (h.joined (hopen hr ho)).proxy h.intact (hopen hr ho) hC hA he hr ho,
      fun hc => h.parting.step h.intact.shape hr hc,
      h.passed.step h.intact.shape h.parting hb hr⟩
  | process g e =>
    obtain ⟨p, hp, hst⟩ := Option.bind_eq_some_iff.1 hst
    obtain ⟨s', hs', rfl⟩ := Option.map_eq_some_iff.1 hst
    obtain ⟨⟨h0, hg⟩, ha⟩ := hcar
    have hcur : y.proxy.hasClosed = false → g = y.proxy.conns := by
      intro ho
      have := h.conns_le ho
      omega
    have hjoin : y.proxy.hasClosed = false → Joined ⟨s', Function.update y.process g p⟩ :=
      fun ho => by
        obtain rfl := hcur ho
        exact (h.joined ho).process h.intact ho (hshort ho) h0 ha (hL.2 ho) hp hs'
    rcases answer_eq hs' with ⟨-, rfl⟩ | ⟨r, hbegin, hr⟩
    · exact ⟨h.intact, hjoin, h.closed, h.passed⟩
    · refine ⟨h.intact.step (fun ho => ?_) hr, fun ho => hjoin (hopen hr ho),
        fun hc => h.parting.step h.intact.shape hr hc,
        h.passed.step h.intact.shape h.parting hb hr⟩
      obtain rfl := hcur ho
      exact h.passes_respond (hshort ho) ho hbegin

end System.Sound

/-- A coroutine that writes to a peer as a stream is in a write to it. -/
theorem Session.peerWrite_of_writer {s : Session} {d : Dir} {t : Tid}
    {u : Relay.Writer Byte (List Packet)} (h : s.writer d t = some u) :
    ∃ w, s.peerWrite t = some (d, w) := by
  cases t with
  | relay d' =>
    simp only [Session.writer, Option.ite_none_right_eq_some] at h
    obtain ⟨rfl, h⟩ := h
    cases hpc : (s.way d').relay with
    | writeDirect w | flush _ w => exact ⟨w, by simp [peerWrite, hpc, RelayPc.peerWrite]⟩
    | _ => rw [hpc] at h; cases h
  | reader i =>
    simp only [Session.writer] at h
    cases hpc : (s.readers i).pc with
    | release d' _ _ w | flushServer _ w | flushClient _ w =>
      simp only [hpc, ReaderPc.writer, Option.ite_none_right_eq_some] at h
      obtain ⟨rfl, -⟩ := h
      exact ⟨w, by simp [peerWrite, hpc, ReaderPc.peerWrite]⟩
    | _ => rw [hpc] at h; cases h
  | connector => cases h
  | detector => cases h

/-- **Nothing is lost between the two programs**, while the connection lasts: both
    streams are intact, a direction that no one writes to stores the rest, and every
    total ends at a packet. -/
theorem conserved {c : Conf} {y : System}
    (h : Reach System.step System.KeepsApartShort (System.init c) y) : y.proxy.Conserves := by
  have hs : y.Sound := h.inv (System.Sound.init c) fun _ _ _ hs hL he => hs.step hL he
  refine ⟨hs.intact.streams.intact, fun ho d hq => ?_, hs.passed⟩
  obtain ⟨l, ⟨-, hl⟩, hrec⟩ := (hs.intact.streams.stream ho d).quiet fun t u hu => by
    obtain ⟨w, hw⟩ := peerWrite_of_writer hu
    exact absurd hw (hq t w)
  rw [hrec, hl]

/-- The process reads the four tuple. -/
def tupleRead : List SystemEvent :=
  [.process 1 (.pull [2, 84, 0, 0, 0]), .process 1 (.readDone true), .process 1 (.pull localText),
    .process 1 (.readDone true)]

/-- A byte in each direction goes through the process; the head of the first is sent in
    two parts. -/
theorem conserved_both : ∃ y : System, (∀ d, (y.proxy.way d).accepted.length = 2) ∧
    y.process 1 ≠ .init ∧ y.proxy.Conserves := by
  obtain ⟨y, hy, hp⟩ := exists_runIf System.step System.KeepsApartShort
    (System.init (localConf false))
    (firstUp.map SystemEvent.proxy ++ tupleRead ++
      [.proxy (.read .res (.data [7])), .proxy (.push (.relay .res) 1),
        .proxy (.complete (.relay .res)), .proxy (.read .req (.data [2])),
        .proxy (.push (.relay .req) 6), .process 1 (.pull [0, 1, 0, 0, 0]),
        .process 1 (.readDone true), .process 1 (.pull [2]), .process 1 (.readDone true),
        .process 1 (.push .setup 4), .proxy (.pull 0 4), .proxy (.issue (.reader 0)),
        .process 1 (.push .setup 12), .process 1 (.wrote .setup), .proxy (.pull 0 12),
        .proxy (.complete (.reader 0)), .proxy (.push (.reader 0) 1),
        .proxy (.complete (.reader 0)), .proxy (.read .res (.data [8])),
        .proxy (.push (.relay .res) 6), .process 1 (.pull [1, 1, 0, 0, 0]),
        .process 1 (.readDone true), .process 1 (.pull [8]), .process 1 (.readDone true),
        .process 1 (.push .setup 16), .proxy (.pull 0 16), .proxy (.complete (.reader 0)),
        .proxy (.push (.reader 0) 1)])
    (fun y => decide (∀ d, (y.proxy.way d).accepted.length = 2) && decide (y.process 1 ≠ .init))
    (by decide +kernel)
  simp only [Bool.and_eq_true, decide_eq_true_eq] at hp
  exact ⟨y, hp.1, hp.2, conserved hy⟩

end CppProxy
