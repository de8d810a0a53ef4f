/-
  cpp_proxy — the payloads on the link.

  While the process connection lasts, a relay frames a payload, and the frame is
  begun later, when its first part is sent.

  * `carried`: the payloads of a direction in a sequence of frames;
  * `Wired`: the payloads that were framed are those of the frames that were
    begun and the one whose frame is not begun yet;
  * `Wired.step`: an open session stays wired.
-/
import CppProxy.OneConnection
import CppProxy.LinkFrames

namespace CppProxy

open Session Framing

/-! ## Payloads -/

/-- The payload of a frame for direction `d`, unless it is empty. -/
def payloadOf (d : Dir) (f : List Byte) : Option (List Byte) :=
  if f.head? = some d.dataType.code ∧ f.drop frameHeadLen ≠ [] then some (f.drop frameHeadLen)
  else none

/-- The payloads for direction `d` in a sequence of frames. -/
def carried (d : Dir) (frames : List (List Byte)) : List (List Byte) :=
  frames.filterMap (payloadOf d)

@[simp] theorem carried_nil (d : Dir) : carried d [] = [] := rfl

@[simp] theorem carried_append (d : Dir) (fs fs' : List (List Byte)) :
    carried d (fs ++ fs') = carried d fs ++ carried d fs' := List.filterMap_append

theorem carried_mono (d : Dir) {fs fs' : List (List Byte)} (h : fs <+: fs') :
    carried d fs <+: carried d fs' := h.filterMap _

theorem DataType.code_inj {t t' : DataType} : t.code = t'.code ↔ t = t' := by
  constructor
  · intro h
    have := congrArg DataType.ofCode h
    simpa using this
  · rintro rfl
    rfl

theorem drop_frame (t : DataType) (data : List Byte) : (frame t data).drop frameHeadLen = data := by
  simp [frame, frameHeadLen]

theorem carried_frame {d : Dir} {data : List Byte} (hne : data ≠ []) :
    carried d [frame d.dataType data] = [data] := by
  simp only [carried, List.filterMap_cons, List.filterMap_nil, payloadOf, drop_frame]
  rw [if_pos ⟨rfl, hne⟩]

theorem carried_frame_other {d : Dir} {t : DataType} {data : List Byte}
    (h : t ≠ d.dataType ∨ data = []) : carried d [frame t data] = [] := by
  simp only [carried, List.filterMap_cons, List.filterMap_nil, payloadOf, drop_frame]
  rw [if_neg]
  rintro ⟨hc, hne⟩
  have hcode : t.code = d.dataType.code := by simpa [frame] using hc
  rcases h with h | h
  · exact h (DataType.code_inj.1 hcode)
  · exact hne h

/-! ## The writes to the process -/

/-- The payload whose frame is not begun. -/
def RelayPc.waiting (d : Dir) (pc : RelayPc) : List (List Byte) :=
  pc.linkWrite.elim [] fun w => if w.rest = w.frame then carried d [w.frame] else []

/-- A block for the process has room for a payload. -/
def Way.Room (w : Way) : Prop :=
  ∀ live, w.relay = .readProcess live → ∃ b, w.block = some b ∧ 69 ≤ b.getAvailable

namespace Session

variable (s : Session)

/-- The write of coroutine `t` on the current connection. -/
structure Carries (t : Tid) (w : LinkWrite) : Prop where
  gen : w.gen = s.conns
  unsent : w.io ≠ .idle → w.rest ≠ []
  other : ∀ d, t ≠ .relay d → carried d [w.frame] = []

/-- What the relay of direction `d` is writing to the process, or reading for it. -/
structure Framing (d : Dir) : Prop where
  writes : ∀ w, (s.way d).relay.linkWrite = some w → s.Carries (.relay d) w
  payload : ∀ w, (s.way d).relay = .writeProcess w → carried d [w.frame] ≠ []
  room : (s.way d).Room
  early : s.bypass = true → (s.way d).relay.linkWrite = none

end Session

/-- What was framed to the current connection is on the wire, or waits; the totals of
    the process are at most `total`. -/
structure Wired (total : Dir → ℕ) (s : Session) : Prop where
  whole : s.link.broken = false
  framing : ∀ d, s.Framing d
  tuple : ∀ j w, (s.connectors j).linkWrite = some w → s.Carries (.connector j) w
  framed : ∀ d, carried d s.link.begun ++ (s.way d).relay.waiting d = s.link.frames d
  filled : ∀ d, ∀ data ∈ s.link.frames d, data ≠ []
  bound : ∀ d, (s.link.frames d).flatten.length ≤ (s.way d).received.length
  acked : ∀ d : Dir, ∀ r ∈ s.link.responses, DataType.ofCode r.head.type = some d.dataType →
    r.head.handledTotalPkgLen.toNat ≤ total d

/-- Nothing was framed to the connection, begun or answered. -/
structure Link.Alike (l l' : Link) : Prop where
  begun : l'.begun = l.begun
  broken : l'.broken = l.broken
  frames : l'.frames = l.frames
  responses : l'.responses = l.responses

theorem Link.Alike.refl (l : Link) : l.Alike l := ⟨rfl, rfl, rfl, rfl⟩

/-- The relay of direction `d` goes on without a new payload. -/
structure Session.GoesOn (s s' : Session) (d : Dir) : Prop extends s'.Framing d where
  waiting : (s'.way d).relay.waiting d = (s.way d).relay.waiting d
  received : (s.way d).received <+: (s'.way d).received

theorem Session.Carries.congr {s s' : Session} {t : Tid} {w : LinkWrite} (h : s.Carries t w)
    (hc : s'.conns = s.conns) : s'.Carries t w :=
  ⟨h.gen.trans hc.symm, h.unsent, h.other⟩

namespace Wired

variable {s s' : Session} {total : Dir → ℕ}

/-! ## The functions -/

theorem keep (h : Wired total s) (hl : s.link.Alike s'.link) (hg : ∀ d, s.GoesOn s' d)
    (hj : ∀ j w, (s'.connectors j).linkWrite = some w → s'.Carries (.connector j) w) :
    Wired total s' where
  whole := hl.broken.trans h.whole
  framing d := (hg d).toFraming
  tuple := hj
  framed d := by rw [hl.begun, hl.frames, (hg d).waiting]; exact h.framed d
  filled := by rw [hl.frames]; exact h.filled
  bound d := by
    rw [hl.frames]
    exact (h.bound d).trans (hg d).received.length_le
  acked := by rw [hl.responses]; exact h.acked

/-- A relay goes on with the same frame, if any. -/
theorem goesOn (h : Wired total s) {d : Dir} (hc : s'.conns = s.conns) (hb : s'.bypass = s.bypass)
    (hf : (s'.way d).relay.linkWrite = (s.way d).relay.linkWrite)
    (hp : ∀ w, (s'.way d).relay = .writeProcess w → (s.way d).relay = .writeProcess w)
    (hr : (s.way d).received <+: (s'.way d).received) (hm : (s'.way d).Room) : s.GoesOn s' d where
  writes w hw := ((h.framing d).writes w (hf ▸ hw)).congr hc
  payload w hw := (h.framing d).payload w (hp w hw)
  room := hm
  early he := hf.trans ((h.framing d).early (hb.symm.trans he))
  waiting := by rw [RelayPc.waiting, hf, RelayPc.waiting]
  received := hr

theorem goesOn_same (h : Wired total s) {d : Dir} (hc : s'.conns = s.conns)
    (hb : s'.bypass = s.bypass) (hw : s'.way d = s.way d) : s.GoesOn s' d :=
  h.goesOn hc hb (by rw [hw]) (fun _ h => by rwa [hw] at h) (by simp only [hw, List.prefix_rfl])
    (by rw [hw]; exact (h.framing d).room)

/-- Nothing that `Wired` reads changes. -/
theorem same {x : Session} (h : Wired total s) (hl : s.link.Alike x.link)
    (hc : x.conns = s.conns) (hb : x.bypass = s.bypass) (hw : x.way = s.way)
    (hj : x.connectors = s.connectors) : Wired total x :=
  h.keep hl (fun d => h.goesOn_same hc hb (by rw [hw]))
    fun j w hw => (h.tuple j w (by rwa [← hj])).congr hc

/-- A relay moves on. -/
theorem setWay (h : Wired total s) {d : Dir} {w : Way} (hg : s.GoesOn (s.setWay d w) d) :
    Wired total (s.setWay d w) := by
  refine h.keep (.refl _) (fun d' => ?_) fun j u hu => (h.tuple j u hu).congr rfl
  by_cases hd : d' = d
  · subst hd; exact hg
  · exact h.goesOn_same rfl rfl (by simp [hd])

/-- A frame that is sent does not wait. -/
theorem waiting_of_sent {d : Dir} {pc : RelayPc} (hs : ∀ w, pc.linkWrite = some w → w.rest = []) :
    pc.waiting d = [] := by
  unfold RelayPc.waiting
  cases hf : pc.linkWrite with
  | none => rfl
  | some w =>
    simp only [Option.elim_some, hs w hf]
    split
    · rename_i h
      rw [← h]; rfl
    · rfl

/-- A frame waits when its write starts. -/
theorem waiting_start {d : Dir} {pc : RelayPc} {f : List Byte}
    (hf : pc.linkWrite = some (s.asyncWriteProcess f)) : pc.waiting d = carried d [f] := by
  rw [RelayPc.waiting, hf]
  exact if_pos rfl

/-- A relay whose frame is sent, if it had one, goes on without. -/
theorem setRelay (h : Wired total s) {d : Dir} {w : Way} (hf : w.relay.linkWrite = none)
    (hs : ∀ u, (s.way d).relay.linkWrite = some u → u.rest = [])
    (hr : (s.way d).received <+: w.received) (hm : w.Room) : Wired total (s.setWay d w) := by
  have hw : (s.setWay d w).way d = w := by simp
  refine h.setWay ⟨⟨fun u hu => ?_, fun u hu => ?_, ?_, fun _ => ?_⟩, ?_, ?_⟩ <;> rw [hw] at *
  · rw [hf] at hu; cases hu
  · rw [hu] at hf; cases hf
  · exact hm
  · exact hf
  · rw [waiting_of_sent hs, waiting_of_sent fun u hu => by rw [hf] at hu; cases hu]
  · exact hr

theorem noteRead_alike (s : Session) (i : ℕ) : s.link.Alike (s.noteRead i).link :=
  noteRead_ind (P := fun s' => s.link.Alike s'.link) (fun _ => by
    rw [setLink_link]; exact ⟨rfl, rfl, rfl, rfl⟩) fun _ => .refl _

theorem noteRead (h : Wired total s) (i : ℕ) : Wired total (s.noteRead i) := by
  have hn : (s.noteRead i).conns = s.conns ∧ (s.noteRead i).bypass = s.bypass ∧
      (s.noteRead i).way = s.way ∧ (s.noteRead i).connectors = s.connectors :=
    noteRead_ind (P := fun s' => s'.conns = s.conns ∧ s'.bypass = s.bypass ∧ s'.way = s.way ∧
      s'.connectors = s.connectors) (fun _ => ⟨rfl, rfl, rfl, rfl⟩) fun _ => ⟨rfl, rfl, rfl, rfl⟩
  exact h.same (noteRead_alike s i) hn.1 hn.2.1 hn.2.2.1 hn.2.2.2

theorem setReader (h : Wired total s) (i : ℕ) (pc : ReaderPc) : Wired total (s.setReader i pc) :=
  h.same (.refl _) rfl rfl rfl rfl

theorem readHead (h : Wired total s) (i : ℕ) : Wired total (s.readHead i) :=
  (h.noteRead i).setReader i _

theorem emit (h : Wired total s) (a : Act) : Wired total (s.emit a) :=
  h.same (.refl _) rfl rfl rfl rfl

/-- The payload of a direction changes only at its relay. -/
theorem setQueue (h : Wired total s) {d : Dir} {w : Way} (hr : w.relay = (s.way d).relay)
    (hb : w.block = (s.way d).block) (hg : w.received = (s.way d).received) :
    Wired total (s.setWay d w) := by
  have hw : (s.setWay d w).way d = w := by simp
  refine h.setWay (h.goesOn rfl rfl ?_ (fun u hu => ?_) ?_ fun live hl => ?_)
  · rw [hw, hr]
  · rwa [hw, hr] at hu
  · simp only [hw, hg, List.prefix_rfl]
  · rw [hw] at hl ⊢
    rw [hb]
    exact (h.framing d).room live (hr ▸ hl)

theorem setPeerWrite (h : Wired total s) (w : PeerWrite) (t : Tid) :
    Wired total (s.setPeerWrite w t) := by
  cases t with
  | relay d =>
    have hself : ((s.setPeerWrite w (.relay d)).way d).relay = (s.way d).relay.setPeerWrite w := by
      simp [Session.setPeerWrite]
    have hr : ((s.way d).relay.setPeerWrite w).linkWrite = (s.way d).relay.linkWrite ∧
        (∀ u, (s.way d).relay.setPeerWrite w = .writeProcess u →
          (s.way d).relay = .writeProcess u) ∧
        ∀ live, (s.way d).relay.setPeerWrite w = .readProcess live →
          (s.way d).relay = .readProcess live := by
      cases (s.way d).relay <;> simp [RelayPc.setPeerWrite, RelayPc.linkWrite]
    refine h.setWay (h.goesOn rfl rfl ?_ (fun u hu => ?_) ?_ fun live hl => ?_)
    · exact (congrArg RelayPc.linkWrite hself).trans hr.1
    · exact hr.2.1 u (hself.symm.trans hu)
    · simp only [setWay_way, Function.update_self, List.prefix_rfl]
    · rw [setWay_way, Function.update_self]
      exact (h.framing d).room live (hr.2.2 live (hself.symm.trans hl))
  | reader i => exact h.setReader i _
  | connector j => exact h
  | detector k => exact h

/-- A relay whose frame is sent continues its loop. -/
theorem relayLoop (h : Wired total s) {d : Dir}
    (hs : ∀ u, (s.way d).relay.linkWrite = some u → u.rest = [])
    (ho : (s.relayLoop d).hasClosed = false) : Wired total (s.relayLoop d) := by
  refine relayLoop_ind (P := fun s' => s'.hasClosed = false → Wired total s') (fun _ hc => ?_)
    (fun _ _ _ => ?_) (fun _ hb hd _ _ => ?_) (fun _ _ _ _ => ?_) ho
  · rw [show (s.graceClose.setRelay d .done).hasClosed = true from graceClose_hasClosed s] at hc
    cases hc
  · exact h.setRelay rfl hs List.prefix_rfl fun _ hr => by cases hr
  · -- the notification carries no payload
    subst hd
    have hnone : ∀ d, carried d [frame .fromServerToClient []] = [] := fun d =>
      carried_frame_other (.inr rfl)
    refine h.setWay ⟨⟨fun u hu => ?_, fun u hu => ?_, fun live hl => ?_, fun he => ?_⟩, ?_, ?_⟩
    · rw [setWay_way, Function.update_self] at hu
      cases hu
      exact ⟨rfl, fun _ => frame_ne_nil _ _, fun d _ => hnone d⟩
    · rw [setWay_way, Function.update_self] at hu; cases hu
    · rw [setWay_way, Function.update_self] at hl; cases hl
    · exact absurd (hb.symm.trans he) Bool.false_ne_true
    · rw [waiting_of_sent hs, setWay_way, Function.update_self]
      exact (waiting_start rfl).trans (hnone .res)
    · simp only [setWay_way, Function.update_self, List.prefix_rfl]
  · refine h.setRelay rfl hs List.prefix_rfl fun live hr => ⟨_, rfl, ?_⟩
    split
    · rename_i b _
      split
      · decide
      · rename_i hb
        exact UInt32.not_lt.1 hb
    · decide

theorem actOnHead (h : Wired total s) (i : ℕ) (d : Dir) (conn : ℕ) (head : ResponseHead)
    (ho : (s.actOnHead i d conn head).hasClosed = false) :
    Wired total (s.actOnHead i d conn head) := by
  refine actOnHead_ind (P := fun s' => s'.hasClosed = false → Wired total s') (fun _ hc => ?_)
    (fun _ _ => ?_) ho
  · rw [show (s.graceClose.setReader i .done).hasClosed = true from graceClose_hasClosed s] at hc
    cases hc
  · exact (h.setQueue (d := d) (w := { s.way d with
      handledTotalPkgLen := (prepareTransferPacket head (s.way d).storedData
        (s.way d).handledTotalPkgLen).handledTotalPkgLen }) rfl rfl rfl).same (.refl _) rfl rfl rfl
          rfl

theorem dispatch (h : Wired total s) (i conn : ℕ) (head : ResponseHead) (buf : List Byte)
    (ho : (s.dispatch i conn head buf).hasClosed = false) :
    Wired total (s.dispatch i conn head buf) := by
  have h₁ : Wired total (s.emit (.response i head)) := h.emit _
  refine dispatch_ind (P := fun s' => s'.hasClosed = false → Wired total s')
    (fun d _ => innerProxy_ind (P := fun s' => s'.hasClosed = false → Wired total s')
      (fun _ _ => (h₁.emit _).setReader i _) fun _ => h₁.actOnHead i d conn head)
    (fun _ => ?_) (fun _ => h₁.readHead i) ho
  exact (h₁.same (x := (s.emit (.response i head)).cancelTimer) (.refl _) rfl rfl rfl rfl).readHead i

theorem clearReleased (h : Wired total s) (i : ℕ) (d : Dir) (count : ℕ) (next : Int32) :
    Wired total (s.clearReleased i d count next) :=
  clearReleased_ind
    (fun stored _ => (h.setQueue (d := d) (w := { s.way d with storedData := stored }) rfl rfl
      rfl).readHead i)
    fun _ => (h.same (x := { s with undefined := true }) (.refl _) rfl rfl rfl rfl).readHead i

/-- A relay that reads for the process has room. -/
theorem room_ne (h : Wired total s) {d : Dir} {live : Bool}
    (hpc : (s.way d).relay = .readProcess live) : s.room d ≠ 0 := by
  obtain ⟨b, hb, hle⟩ := (h.framing d).room live hpc
  intro h0
  rw [Session.room, hb, Option.elim_some, UInt32.toNat_sub] at h0
  rw [UInt32.le_iff_toNat_le] at hle
  have := b.getAvailable.toNat_lt
  simp at h0 hle
  omega

/-- A relay frames what it has read for the process. -/
theorem writeProcess (h : Wired total s) (hu : s.proxyProcessSocket = .connected)
    (hby : s.bypass = false) {d : Dir} {live : Bool} {bytes : List Byte}
    (hpc : (s.way d).relay = .readProcess live)
    (hr : (ReadResult.data bytes).Possible live (s.room d)) : Wired total (s.writeProcess d bytes) := by
  have hne : bytes ≠ [] := fun hn => h.room_ne hpc (hr.2.2.1 hn)
  rw [writeProcess_eq]
  generalize hs' : ({ s with way := _, links := _, trace := _ } : Session) = s'
  have hself : (s'.way d).relay = .writeProcess (s.asyncWriteProcess (frame d.dataType bytes)) ∧
      (s'.way d).received = (s.way d).received ++ bytes := by subst hs'; simp
  have hother : ∀ d' ≠ d, s'.way d' = s.way d' := by
    subst hs'; intro d' hd; simp [hd]
  have hlink : s'.link = { s.link with
      frames := Function.update s.link.frames d (s.link.frames d ++ [bytes]) } := by
    subst hs'
    show s.framed d bytes s.conns = _
    rw [Session.framed, if_pos hu, Function.update_self]
  obtain ⟨hc, hb', hj⟩ : s'.conns = s.conns ∧ s'.bypass = s.bypass ∧
      s'.connectors = s.connectors := by subst hs'; exact ⟨rfl, rfl, rfl⟩
  refine ⟨by rw [hlink]; exact h.whole, fun d' => ?_, fun j w hw => ?_, fun d' => ?_, fun d' => ?_,
    fun d' => ?_, by rw [hlink]; exact h.acked⟩
  · by_cases hd : d' = d
    · subst hd
      refine ⟨fun w hw => ?_, fun w hw => ?_, fun live' hl => ?_, fun he => ?_⟩
      · rw [hself.1] at hw
        cases hw
        refine ⟨hc.symm, fun _ => frame_ne_nil _ _, fun d₁ hd₁ => carried_frame_other (.inl ?_)⟩
        cases d' <;> cases d₁ <;> first | exact absurd rfl hd₁ | decide
      · rw [hself.1] at hw
        cases hw
        exact ne_of_eq_of_ne (carried_frame hne) (List.cons_ne_nil _ _)
      · rw [hself.1] at hl; cases hl
      · exact absurd (hby.symm.trans (hb'.symm.trans he)) Bool.false_ne_true
    · exact (h.goesOn_same hc hb' (hother d' hd)).toFraming
  · exact (h.tuple j w (by rwa [← hj])).congr hc
  · have hf := h.framed d'
    rw [hlink]
    by_cases hd : d' = d
    · subst hd
      have hold : (s.way d').relay.waiting d' = [] := by rw [hpc]; rfl
      have hnew : (s'.way d').relay.waiting d' = [bytes] := by
        rw [hself.1]
        exact (waiting_start rfl).trans (carried_frame hne)
      rw [hold, List.append_nil] at hf
      simp only [Function.update_self, hnew, hf]
    · rw [hother d' hd]
      simpa [hd] using hf
  · intro data hdata
    rw [hlink] at hdata
    by_cases hd : d' = d
    · subst hd
      simp only [Function.update_self, List.mem_append, List.mem_singleton] at hdata
      rcases hdata with hdata | rfl
      · exact h.filled d' data hdata
      · exact hne
    · exact h.filled d' data (by simpa [hd] using hdata)
  · have hb := h.bound d'
    rw [hlink]
    by_cases hd : d' = d
    · subst hd
      simp only [hself.2, Function.update_self, List.flatten_append, List.flatten_singleton,
        List.length_append]
      omega
    · rw [hother d' hd]
      simpa [hd] using hb

theorem setLinkWrite_relay {p p' : RelayPc} {w : LinkWrite} (h : p.setLinkWrite w = p') :
    (∀ live, p' = .readProcess live → p = .readProcess live) ∧
      ∀ u, p' = .writeProcess u → u = w ∧ ∃ v, p = .writeProcess v := by
  subst h
  cases p <;> simp [RelayPc.setLinkWrite]

/-- A write to the process goes on. -/
theorem framing_setLinkWrite (h : ∀ d, s.Framing d) {t : Tid} {w v : LinkWrite}
    (hw : s.linkWrite t = some w) (hv : s.Carries t v) (hf : v.frame = w.frame) (d : Dir) :
    (s.setLinkWrite v t).Framing d := by
  have hc : (s.setLinkWrite v t).conns = s.conns := by cases t <;> rfl
  have hb : (s.setLinkWrite v t).bypass = s.bypass := by cases t <;> rfl
  by_cases ht : t = .relay d
  · subst ht
    have hway : (s.setLinkWrite v (.relay d)).way d =
        { s.way d with relay := (s.way d).relay.setLinkWrite v } := by
      simp [Session.setLinkWrite]
    have hself := (Linked.linkWrite_setLinkWrite (v := v) hw).1
    obtain ⟨hread, hproc⟩ := setLinkWrite_relay (p := (s.way d).relay) (w := v) rfl
    refine ⟨fun u hu => ?_, fun u hu => ?_, fun live hl => ?_, fun he => ?_⟩
    · rw [← Option.some.inj (hself.symm.trans hu)]
      exact hv.congr hc
    · rw [hway] at hu
      obtain ⟨rfl, x, hx⟩ := hproc u hu
      rw [linkWrite, hx] at hw
      cases hw
      exact hf ▸ (h d).payload w hx
    · rw [hway] at hl ⊢
      exact (h d).room live (hread live hl)
    · have := (h d).early (hb.symm.trans he)
      rw [linkWrite, this] at hw
      cases hw
  · have hway : (s.setLinkWrite v t).way d = s.way d := by
      cases t with
      | relay d' => exact Function.update_of_ne (fun hd => ht (by rw [hd])) _ _
      | _ => rfl
    refine ⟨fun u hu => ((h d).writes u (by rwa [← hway])).congr hc, fun u hu => (h d).payload u
      (by rwa [← hway]), fun live hl => ?_, fun he => ?_⟩
    · rw [hway] at hl ⊢; exact (h d).room live hl
    · rw [hway]; exact (h d).early (hb.symm.trans he)

theorem tuple_setLinkWrite (h : ∀ j w, (s.connectors j).linkWrite = some w →
      s.Carries (.connector j) w) {t : Tid} {w v : LinkWrite} (hw : s.linkWrite t = some w)
    (hv : s.Carries t v) (j : ℕ) (u : LinkWrite)
    (hu : ((s.setLinkWrite v t).connectors j).linkWrite = some u) :
    (s.setLinkWrite v t).Carries (.connector j) u := by
  have hc : (s.setLinkWrite v t).conns = s.conns := by cases t <;> rfl
  obtain ⟨hself, hrest⟩ := Linked.linkWrite_setLinkWrite (v := v) hw
  by_cases ht : t = .connector j
  · subst ht
    rw [← Option.some.inj (hself.symm.trans hu)]
    exact hv.congr hc
  · exact (h j u ((hrest (.connector j) fun he => ht he.symm).symm.trans hu)).congr hc

theorem setLinkWrite_way (s : Session) (w : LinkWrite) (t : Tid) (d : Dir) :
    ((s.setLinkWrite w t).way d).received = (s.way d).received := by
  cases t with
  | relay d' => by_cases hd : d = d' <;> simp [Session.setLinkWrite, hd]
  | _ => rfl

/-- The next part of a frame is issued. -/
theorem issueWrite (h : Wired total s) {t : Tid} {w : LinkWrite} (hw : s.linkWrite t = some w)
    (hr : w.rest ≠ []) : Wired total (s.setLinkWrite { w with gen := s.conns, io := s.issued } t) := by
  have hv : s.Carries t { w with gen := s.conns, io := s.issued } := by
    refine ⟨rfl, fun _ => hr, ?_⟩
    cases t with
    | relay d => exact ((h.framing d).writes w hw).other
    | connector j => exact (h.tuple j w hw).other
    | reader i => cases hw
    | detector k => cases hw
  obtain ⟨hl, hc, -, -⟩ := Linked.setLinkWrite_frame s { w with gen := s.conns, io := s.issued } t
  obtain ⟨hself, hrest⟩ := Linked.linkWrite_setLinkWrite
    (v := { w with gen := s.conns, io := s.issued }) hw
  refine h.keep (by rw [link, link, hl, hc]; exact .refl _) (fun d => ⟨framing_setLinkWrite h.framing
    hw hv rfl d, ?_, ?_⟩) (tuple_setLinkWrite h.tuple hw hv)
  · by_cases ht : t = .relay d
    · subst ht
      have h₁ : ((s.setLinkWrite { w with gen := s.conns, io := s.issued } (.relay d)).way d).relay.linkWrite =
          some { w with gen := s.conns, io := s.issued } := hself
      have h₀ : (s.way d).relay.linkWrite = some w := hw
      rw [RelayPc.waiting, RelayPc.waiting, h₁, h₀]
      rfl
    · have h₁ : ((s.setLinkWrite { w with gen := s.conns, io := s.issued } t).way d).relay.linkWrite =
          (s.way d).relay.linkWrite := hrest (.relay d) fun he => ht he.symm
      rw [RelayPc.waiting, RelayPc.waiting, h₁]
  · simp only [setLinkWrite_way, List.prefix_rfl]

/-- A part of a frame is sent. -/
theorem pushLink (h : Wired total s) {t : Tid} {k : ℕ} {w : LinkWrite}
    (hw : s.linkWrite t = some w) (h0 : 0 < k) (hk : k ≤ w.rest.length) (hl : w.rest <:+ w.frame) :
    Wired total ((s.sendLink w k).setLinkWrite { w with io := .idle, rest := w.rest.drop k } t) := by
  have hold : s.Carries t w := by
    cases t with
    | relay d => exact (h.framing d).writes w hw
    | connector j => exact h.tuple j w hw
    | reader i => cases hw
    | detector k => cases hw
  generalize hs₁ : s.sendLink w k = s₁
  obtain ⟨hway, hconn, hb, hc₁⟩ : s₁.way = s.way ∧ s₁.connectors = s.connectors ∧
      s₁.bypass = s.bypass ∧ s₁.conns = s.conns := by subst hs₁; exact ⟨rfl, rfl, rfl, rfl⟩
  have hlink : s₁.link = { s.link with
      sent := s.link.sent ++ w.rest.take k
      begun := s.link.begun ++ if w.rest = w.frame then [w.frame] else [] } := by
    subst hs₁; rw [sendLink, setLink_link]
  have hw₁ : s₁.linkWrite t = some w := by subst hs₁; rw [← hw]; cases t <;> rfl
  have hv : s₁.Carries t { w with io := .idle, rest := w.rest.drop k } :=
    ⟨hold.gen.trans hc₁.symm, fun hi => absurd rfl hi, hold.other⟩
  have hF : ∀ d, s₁.Framing d := fun d => (h.goesOn_same hc₁ hb (by rw [hway])).toFraming
  have hT : ∀ j u, (s₁.connectors j).linkWrite = some u → s₁.Carries (.connector j) u :=
    fun j u hu => (h.tuple j u (by rwa [← hconn])).congr hc₁
  obtain ⟨hl', hc', -, -⟩ := Linked.setLinkWrite_frame s₁ { w with io := .idle, rest := w.rest.drop k } t
  obtain ⟨hself, hrest⟩ := Linked.linkWrite_setLinkWrite
    (v := { w with io := .idle, rest := w.rest.drop k }) hw₁
  have hlk : (s₁.setLinkWrite { w with io := .idle, rest := w.rest.drop k } t).link = s₁.link := by
    rw [link, link, hl', hc']
  refine ⟨?_, framing_setLinkWrite hF hw₁ hv rfl, tuple_setLinkWrite hT hw₁ hv, fun d => ?_, ?_,
    fun d => ?_, ?_⟩
  · rw [hlk, hlink]; exact h.whole
  · have hf := h.framed d
    rw [hlk, hlink]
    by_cases ht : t = .relay d
    · -- the frame is begun now, or was before
      subst ht
      have h₀ : (s.way d).relay.linkWrite = some w := hw
      have h₁ : ((s₁.setLinkWrite { w with io := .idle, rest := w.rest.drop k } (.relay d)).way
          d).relay.linkWrite = some { w with io := .idle, rest := w.rest.drop k } := hself
      have hlt : w.rest.drop k ≠ w.frame := by
        intro he
        have := congrArg List.length he
        have := hl.length_le
        rw [List.length_drop] at *
        omega
      rw [RelayPc.waiting, h₀] at hf
      rw [RelayPc.waiting, h₁, Option.elim_some, if_neg hlt, List.append_nil, carried_append, ← hf,
        Option.elim_some]
      split <;> rfl
    · have h₁ : ((s₁.setLinkWrite { w with io := .idle, rest := w.rest.drop k } t).way
          d).relay.linkWrite = (s.way d).relay.linkWrite :=
        (hrest (.relay d) fun he => ht he.symm).trans (by rw [linkWrite, hway])
      have hnone : carried d (if w.rest = w.frame then [w.frame] else []) = [] := by
        split
        · exact hold.other d ht
        · rfl
      rw [RelayPc.waiting, h₁, carried_append, hnone, List.append_nil]
      exact hf
  · rw [hlk, hlink]; exact h.filled
  · rw [hlk, hlink, setLinkWrite_way, hway]; exact h.bound d
  · rw [hlk, hlink]; exact h.acked

/-- A connector goes on. -/
theorem setConnector (h : Wired total s) {j : ℕ} {q : ConnectorPc} {b : Bool}
    (hb : b = true → s.bypass = true) (hl : s'.link = s.link) (hc : s'.conns = s.conns)
    (hby : s'.bypass = b) (hw : s'.way = s.way) (hj : s'.connectors = Function.update s.connectors j q)
    (hq : ∀ w, q.linkWrite = some w → s.Carries (.connector j) w) : Wired total s' := by
  have hF : ∀ d, s'.Framing d := by
    intro d
    obtain ⟨h₁, h₂, h₃, h₄⟩ := h.framing d
    refine ⟨fun w hw' => ?_, ?_, ?_, fun he => ?_⟩
    · rw [hw] at hw'; exact (h₁ w hw').congr hc
    · rw [hw]; exact h₂
    · rw [hw]; exact h₃
    · rw [hw]; exact h₄ (hb (hby.symm.trans he))
  refine h.keep (by rw [hl]; exact .refl _) (fun d => ⟨hF d, by rw [hw], by simp only [hw, List.prefix_rfl]⟩)
    fun j' w hw' => ?_
  rw [hj] at hw'
  by_cases hjj : j' = j
  · subst hjj
    rw [Function.update_self] at hw'
    exact (hq w hw').congr hc
  · rw [Function.update_of_ne hjj] at hw'
    exact (h.tuple j' w hw').congr hc

/-- The four tuple is sent, and the reader is spawned. -/
theorem superviseProcess (h : Wired total s) (j conn : ℕ) :
    Wired total (s.superviseProcess j conn) := by
  obtain ⟨ds, n, hd⟩ := s.superviseProcess_detectors j conn
  rw [hd]
  have h₁ : Wired total (s.spawning j conn) :=
    h.setConnector (j := j) (q := .done) (b := s.bypass) id rfl rfl rfl rfl rfl
      fun w hw => by cases hw
  exact (h₁.readHead s.nReaders).same (.refl _) rfl rfl rfl rfl

/-- The process is connected: the four tuple is to be sent. -/
theorem fourTuple2process (h : Wired total s) (j : ℕ) : Wired total (s.fourTuple2process j) := by
  refine h.setConnector (j := j) (b := false)
    (q := .fourTuple s.conns (s.asyncWriteProcess (frame .fourTuple s.fourTuple)))
    (fun hb => by cases hb) rfl rfl rfl rfl rfl fun w hw => ?_
  cases hw
  refine ⟨rfl, fun _ => frame_ne_nil _ _, fun d _ => carried_frame_other (.inl ?_)⟩
  cases d <;> decide

/-- The kernel connects the first connection; nothing was written to it. -/
theorem connect (h : Wired total s) (ht : OneConnection s) (hs : Shape s)
    (hpc : s.connectors 0 = .connecting false) : Wired total { s with
      proxyProcessSocket := .connected
      conns := s.conns + 1
      links := Function.update s.links (s.conns + 1) {}
      connectors := Function.update s.connectors 0 (.connecting true) } := by
  have hearly := ht.early (.inl ⟨_, hpc⟩)
  have hnone : ∀ d, (s.way d).relay.linkWrite = none := fun d => (h.framing d).early hearly.1
  generalize hs' : ({ s with proxyProcessSocket := _, conns := _, links := _, connectors := _ } :
    Session) = s'
  obtain ⟨hw, hlink, hj⟩ : s'.way = s.way ∧ s'.link = {} ∧
      s'.connectors = Function.update s.connectors 0 (.connecting true) := by
    subst hs'
    exact ⟨rfl, by simp [link], rfl⟩
  refine ⟨by rw [hlink], fun d => ⟨fun w hw' => ?_, ?_, ?_, fun _ => ?_⟩, fun j w hw' => ?_,
    fun d => ?_, fun d data hd => ?_, fun d => ?_, fun d r hr => ?_⟩
  · rw [hw, hnone] at hw'; cases hw'
  · rw [hw]; exact (h.framing d).payload
  · rw [hw]; exact (h.framing d).room
  · rw [hw]; exact hnone d
  · rw [hj] at hw'
    by_cases hj0 : j = 0
    · subst hj0; simp [ConnectorPc.linkWrite] at hw'
    · rw [Function.update_of_ne hj0] at hw'
      have hd : s.connectors j = .done := by
        by_contra hn
        exact hj0 (ht.connector_eq hs hn)
      rw [hd] at hw'; cases hw'
  · rw [hlink, hw, RelayPc.waiting, hnone]; rfl
  · rw [hlink] at hd; cases hd
  · rw [hlink]; exact Nat.zero_le _
  · rw [hlink] at hr; cases hr

/-- The process sends a response whose total is not above its own. -/
theorem respond (h : Wired total s) {g : ℕ} {r : Response}
    (hr : ∀ d : Dir, DataType.ofCode r.head.type = some d.dataType →
      r.head.handledTotalPkgLen.toNat ≤ total d) :
    Wired total { s with links := Function.update s.links g { s.links g with
      responses := (s.links g).responses ++ [r]
      inbound := (s.links g).inbound ++ r.bytes } } := by
  generalize hs' : ({ s with links := _ } : Session) = s'
  obtain ⟨hc, hb, hw, hj⟩ : s'.conns = s.conns ∧ s'.bypass = s.bypass ∧ s'.way = s.way ∧
      s'.connectors = s.connectors := by subst hs'; exact ⟨rfl, rfl, rfl, rfl⟩
  by_cases hg : s.conns = g
  · have hlink : s'.link = { s.link with
        responses := s.link.responses ++ [r]
        inbound := s.link.inbound ++ r.bytes } := by
      subst hs'; simp [link, hg]
    refine ⟨by rw [hlink]; exact h.whole, fun d => (h.goesOn_same hc hb (by rw [hw])).toFraming,
      fun j w hw' => (h.tuple j w (by rwa [← hj])).congr hc, fun d => ?_, by rw [hlink]; exact h.filled,
      fun d => ?_, fun d r' hr' => ?_⟩
    · rw [hlink, hw]; exact h.framed d
    · rw [hlink, hw]; exact h.bound d
    · rw [hlink, List.mem_append, List.mem_singleton] at hr'
      rcases hr' with hr' | rfl
      · exact h.acked d r' hr'
      · exact hr d
  · have hlink : s'.link = s.link := by subst hs'; simp [link, hg]
    exact h.same (by rw [hlink]; exact .refl _) hc hb hw hj

theorem mono {total' : Dir → ℕ} (h : Wired total s) (hle : ∀ d, total d ≤ total' d) :
    Wired total' s :=
  { h with acked := fun d r hr ht => (h.acked d r hr ht).trans (hle d) }

theorem init (c : Conf) : Wired total (Session.init c) := by
  have hrelay : ∀ d, ((Session.init c).way d).relay = .readDirect true := by
    intro d
    cases d <;> rfl
  have hconn : ∀ j, ((Session.init c).connectors j).linkWrite = none := by
    intro j
    have hj : (Session.init c).connectors = Function.update (fun _ => .done) 0 (.connecting false) :=
      rfl
    by_cases h0 : j = 0 <;> simp [hj, h0, ConnectorPc.linkWrite]
  refine ⟨rfl, fun d => ⟨fun w hw => ?_, fun w hw => ?_, fun live hl => ?_, fun _ => ?_⟩,
    fun j w hw => ?_, fun d => ?_, fun d => ?_, fun d => ?_, fun d => ?_⟩
  · rw [hrelay] at hw; cases hw
  · rw [hrelay] at hw; cases hw
  · rw [hrelay] at hl; cases hl
  · rw [hrelay]; rfl
  · rw [hconn] at hw; cases hw
  · rw [RelayPc.waiting, hrelay]; rfl
  · exact fun _ hd => by cases hd
  · exact Nat.zero_le _
  · exact fun _ hr => by cases hr

/-- **An open session stays wired** while the process says nothing. -/
theorem step (h : Wired total s) (ht : OneConnection s) (hs : Shape s) (hl : Linked s)
    (hc : s.hasClosed = false) {e : Event} (hC : KeepsConnection s e) (he : ∀ g r, e ≠ .respond g r)
    (hr : Rule s e s') (ho : s'.hasClosed = false) : Wired total s' := by
  have hclosed : ∀ {s' : Session}, s'.hasClosed = true → s'.hasClosed = false → Wired total s' :=
    fun h₁ h₂ => by rw [h₁] at h₂; cases h₂
  have hflush : ∀ {i pc}, (s.readers i).pc = pc → pc ≠ .done → ¬ pc.IsFlush := fun hpc hd => by
    subst hpc
    exact ht.noFlush.2 _ (hs.reader_lt hd)
  cases hr with
  | @gotDirect d live bytes hpc =>
    rw [writeDirect_eq]
    exact (h.setRelay (d := d) (w := { s.way d with
      received := (s.way d).received ++ bytes
      relay := .writeDirect (s.asyncWrite d bytes) }) rfl (fun u hu => by rw [hpc] at hu; cases hu)
        (List.prefix_append _ _) fun _ hl => by cases hl).same (.refl _) rfl rfl rfl rfl
  | @gotProcess d live bytes hpc hr =>
    have hp : (s.way d).relay.InProcess := by rw [hpc]; trivial
    have hb := (ht.inProcess d hp).1
    refine h.writeProcess (ht.up fun hd => ?_) hb hpc hr
    have := (ht.early (hd.elim (fun hd => .inl ⟨_, hd⟩) .inr)).1
    rw [hb] at this; cases this
  | readEof =>
    rw [relayEof_eq] at ho ⊢
    exact hclosed (graceClose_hasClosed _) ho
  | readError => exact hclosed (graceClose_hasClosed s) ho
  | @pushPeer t k d w hw =>
    have h₁ : Wired total (s.accept d (w.rest.take k)) := h.setQueue rfl rfl rfl
    exact h₁.setPeerWrite _ t
  | @pushLink t k w hw hi hg hsock hb h0 hk =>
    exact h.pushLink hw h0 hk (hl.frames t w hw).2
  | @pull i k r =>
    have h₁ : Wired total (s.setLink { s.link with inbound := s.link.inbound.drop k }) :=
      h.same (by rw [setLink_link]; exact ⟨rfl, rfl, rfl, rfl⟩) rfl rfl rfl rfl
    exact h₁.setReader i _
  | issueWrite hw _ hr => exact h.issueWrite hw hr
  | @issueRead i => exact (h.noteRead i).setReader i _
  | @notified d w hpc hf =>
    exact h.setRelay rfl (fun u hu => by rw [hpc] at hu; cases hu; exact hf.2) List.prefix_rfl
      fun _ hl => by cases hl
  | @notifyFailed d w hpc =>
    have := hC hc
    rw [linkWrite, hpc] at this; cases this
  | wroteDirect hpc => exact h.relayLoop (fun u hu => by rw [hpc] at hu; cases hu) ho
  | wroteProcess hpc hf =>
    exact h.relayLoop (fun u hu => by rw [hpc] at hu; cases hu; exact hf.2) ho
  | @processFailed d w hpc =>
    have := hC hc
    rw [linkWrite, hpc] at this; cases this
  | @relayFlushed d gen w hpc => exact absurd (by rw [hpc]; trivial) (ht.noFlush.1 d)
  | relayWriteFailed => exact hclosed (graceClose_hasClosed s) ho
  | @gotHead i => exact (h.noteRead i).setReader i _
  | gotHeadOnly => exact h.dispatch _ _ _ _ ho
  | gotBody => exact h.dispatch _ _ _ _ ho
  | @readFailed i r hr =>
    have := hC hc
    rw [hr] at this; cases this
  | wroteNew => exact h.actOnHead _ _ _ _ ho
  | released => exact h.clearReleased _ _ _ _
  | readerWriteFailed => exact hclosed (graceClose_hasClosed s) ho
  | flushedServer hpc => exact absurd trivial (hflush hpc (by simp))
  | flushServerFailed hpc => exact absurd trivial (hflush hpc (by simp))
  | flushedClient hpc => exact absurd trivial (hflush hpc (by simp))
  | flushClientFailed hpc => exact absurd trivial (hflush hpc (by simp))
  | connected => exact h.fourTuple2process _
  | connectFailed =>
    exact h.setConnector (b := s.bypass) id rfl rfl rfl rfl rfl
      fun w hw => by cases hw
  | @retry j =>
    refine connectLoop_ind (fun hc' => by rw [hc] at hc'; cases hc') fun _ => ?_
    exact h.setConnector (b := s.bypass) id rfl rfl rfl rfl rfl
      fun w hw => by cases hw
  | wroteTuple => exact h.superviseProcess _ _
  | @tupleFailed j conn w hpc =>
    have := hC hc
    rw [linkWrite, hpc] at this; cases this
  | @timedOut k conn hpc =>
    have := hC hc
    rw [hpc] at this; exact absurd trivial this
  | rearm =>
    obtain ⟨ds, hd⟩ := s.detectLoop_detectors _ _
    rw [hd]
    exact h.same (.refl _) rfl rfl rfl rfl
  | @connect j hpc =>
    obtain rfl := ht.connector_eq hs (j := j) (by rw [hpc]; simp)
    exact h.connect ht hs hpc
  | expire => exact h.same (.refl _) rfl rfl rfl rfl
  | respond => exact absurd rfl (he _ _)

end Wired

end CppProxy
