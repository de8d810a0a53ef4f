/-
  cpp_proxy — the heads of the process.

  `setup` acknowledges a payload with the total of its direction so far.  It
  handles frames in the order they were begun, so the total is the length of the
  first payloads of the direction.

  * `Process.Heads`: what `setup` and `heartbeat` write;
  * `Process.Grows`: what a step of the process adds;
  * `Process.frames_isPrefix`: the frames that were handled are the first ones
    that were begun;
  * `total_eq`: the calls of a direction are as long as its payloads.
-/
import CppProxy.Decode
import CppProxy.Wires

namespace CppProxy

open Framing

/-! ## What the process writes -/

namespace Process

variable (p : Process)

/-- The counter of a direction. -/
def counter : Dir → UInt64
  | .req => p.reqHandledTotalPkgLen
  | .res => p.resHandledTotalPkgLen

/-- The length of what was handled for a direction. -/
def total (d : Dir) : ℕ := totalLen d.dataType p.handled

/-- `setup` writes the counter of a direction, `heartbeat` a heartbeat. -/
structure Heads : Prop where
  setup : ∀ w, p.setup = .write w → ∃ d : Dir, w.frame = (passHead d.dataType (p.counter d)).bytes
  heartbeat : ∀ w, p.heartbeat = .write w → w.frame = heartbeatHead.bytes

/-- The process goes on: it handles more, and its heads are as they should be. -/
structure Grows (p p' : Process) : Prop where
  handled : p.handled <+: p'.handled
  heads : p.Heads → p'.Heads

variable {p} {p' p₁ : Process}

theorem Grows.trans (h : p.Grows p₁) (h' : p₁.Grows p') : p.Grows p' :=
  ⟨h.handled.trans h'.handled, fun hp => h'.heads (h.heads hp)⟩

/-- `setup` goes on without a write. -/
theorem Grows.setup {q : SetupPc} (hh : p.handled <+: p'.handled) (hs : p'.setup = q)
    (hq : ∀ w, q ≠ .write w) (hb : p'.heartbeat = p.heartbeat) : p.Grows p' :=
  ⟨hh, fun hp => ⟨fun w hw => absurd (hs.symm.trans hw) (hq w), by rw [hb]; exact hp.heartbeat⟩⟩

/-- `setup` writes a head. -/
theorem Grows.write {d : Dir} (hh : p.handled <+: p'.handled)
    (hs : p'.setup = .write (.start (passHead d.dataType (p'.counter d))))
    (hb : p'.heartbeat = p.heartbeat) : p.Grows p' :=
  ⟨hh, fun hp => ⟨fun w hw => ⟨d, by rw [hs] at hw; cases hw; rfl⟩, by rw [hb]; exact hp.heartbeat⟩⟩

/-- `heartbeat` goes on. -/
theorem Grows.heartbeat {q : HeartbeatPc} (hh : p'.handled = p.handled) (hs : p'.setup = p.setup)
    (hc : p'.counter = p.counter) (hb : p'.heartbeat = q)
    (hq : ∀ w, q = .write w → w.frame = heartbeatHead.bytes) : p.Grows p' :=
  ⟨hh ▸ List.prefix_rfl, fun hp => ⟨by rw [hs, hc]; exact hp.setup, fun w hw => hq w (hb ▸ hw)⟩⟩

/-- `setup` begins its next iteration. -/
theorem Grows.loop (hh : p.handled <+: p'.handled) (hb : p'.heartbeat = p.heartbeat) :
    p.Grows p'.setupLoop := by
  unfold Process.setupLoop
  split
  · exact .setup (q := .done) hh rfl (by simp) hb
  · exact .setup (q := .readHead []) hh rfl (by simp) hb

theorem Grows.handle {x : Process} (hh : p.handled <+: x.handled) (hb : x.heartbeat = p.heartbeat)
    (head : List Byte) (parses : Bool) : p.Grows (x.handle head parses) := by
  have hcall : ∀ {y : Process} type data, y.handled = x.handled →
      p.handled <+: (y.call type data).handled := fun type data hy =>
    hh.trans (hy ▸ List.prefix_append _ _)
  unfold Process.handle
  dsimp only
  split
  · exact .write (d := .req) (hcall _ _ (by rfl)) rfl hb
  · split
    · exact .loop (hcall _ _ (by rfl)) hb
    · exact .write (d := .res) (hcall _ _ (by rfl)) rfl hb
  · split
    · exact .loop (hcall _ _ rfl) hb
    · exact .setup (q := .done) (hcall _ _ rfl) rfl (by simp) hb
  · exact .loop hh hb

theorem Grows.setupHead {x : Process} (hh : p.handled <+: x.handled)
    (hb : x.heartbeat = p.heartbeat) (head : List Byte) (parses : Bool) :
    p.Grows (x.setupHead head parses) := by
  unfold Process.setupHead
  dsimp only
  split
  · exact .setup (q := .readBody head []) hh rfl (by simp) hb
  · exact .handle (x := x.growBuf _) hh hb head parses

theorem Grows.heartbeatLoop (p : Process) : p.Grows p.heartbeatLoop := by
  refine .heartbeat (q := if p.hasClosed then .done else .waiting) rfl rfl rfl rfl fun w hw => ?_
  split at hw <;> cases hw

/-- Some of a head is sent. -/
theorem Grows.push {t : Coroutine} {k : ℕ} {w : HeadWrite} (hw : p.headWrite t = some w) :
    p.Grows ((p.send w k).setHeadWrite { w with rest := w.rest.drop k } t) := by
  cases t with
  | setup =>
    refine ⟨List.prefix_rfl, fun hp => ⟨fun u hu => ?_, hp.heartbeat⟩⟩
    cases hu
    exact hp.setup w (Decoded.headWrite_setup hw)
  | heartbeat =>
    refine ⟨List.prefix_rfl, fun hp => ⟨hp.setup, fun u hu => ?_⟩⟩
    cases hu
    refine hp.heartbeat w ?_
    simp only [headWrite] at hw
    split at hw
    · rename_i hpc
      rw [hpc, Option.some.inj hw]
    · cases hw

/-- **The process handles more**, and writes the heads that it should. -/
theorem grows_of_step {e : ProcessEvent} (hst : p.step e = some p') : p.Grows p' := by
  have hrfl : p.handled <+: p.handled := List.prefix_rfl
  cases e with
  | pull bytes =>
    simp only [Process.step] at hst
    split at hst
    case h_2 => cases hst
    case h_1 got want hq =>
      split at hst <;> cases hst
      refine .setup (q := p.setup.setGot (got ++ bytes)) hrfl rfl (fun w hw => ?_) rfl
      cases hpc : p.setup with
      | write w => rw [hpc] at hq; cases hq
      | _ => rw [hpc] at hw; cases hw
  | readDone parses =>
    simp only [Process.step] at hst
    split at hst
    case h_1 got hpc => split at hst <;> cases hst; exact .setupHead hrfl rfl got parses
    case h_2 head got hpc =>
      split at hst <;> cases hst
      exact .handle (x := p.setBuf got) hrfl rfl head parses
    case h_3 => cases hst
  | readEof garbage parses =>
    simp only [Process.step] at hst
    split at hst
    case h_1 got hpc =>
      split at hst <;> cases hst
      exact .setupHead (x := { p with eof := true }) hrfl rfl _ parses
    case h_2 head got hpc =>
      split at hst <;> cases hst
      exact Grows.handle (p := p) (x := { p with eof := true }.setBuf got) hrfl rfl head parses
    case h_3 => cases hst
  | readError =>
    simp only [Process.step] at hst
    split at hst
    case h_2 => cases hst
    case h_1 => split at hst <;> cases hst; exact .setup (q := .done) hrfl rfl (by simp) rfl
  | tick =>
    simp only [Process.step] at hst
    split at hst <;> cases hst
    exact .heartbeat rfl rfl rfl rfl fun w hw => by cases hw; rfl
  | cancelled =>
    simp only [Process.step] at hst
    split at hst
    case h_2 => cases hst
    case h_1 => split at hst <;> cases hst; exact .heartbeatLoop p
  | push t k =>
    simp only [Process.step] at hst
    split at hst
    case h_2 => cases hst
    case h_1 w hw => split at hst <;> cases hst; exact .push hw
  | wrote t =>
    simp only [Process.step] at hst
    split at hst
    case h_2 => cases hst
    case h_1 w hw =>
      split at hst
      case isFalse => cases hst
      case isTrue =>
        cases t with
        | setup => cases hst; exact .loop hrfl rfl
        | heartbeat => cases hst; exact .heartbeatLoop p
  | writeFailed t =>
    simp only [Process.step] at hst
    split at hst
    case h_2 => cases hst
    case h_1 w hw =>
      split at hst
      case isFalse => cases hst
      case isTrue =>
        cases t with
        | setup => cases hst; exact .setup (q := .done) hrfl rfl (by simp) rfl
        | heartbeat => cases hst; exact .heartbeat (q := .done) rfl rfl rfl rfl (by simp)

theorem Heads.init : Heads Process.init :=
  ⟨fun w hw => (by cases hw), fun w hw => (by cases hw)⟩

/-- The end of the stream is met only by a read. -/
theorem eof_of_step {e : ProcessEvent} (hst : p.step e = some p')
    (he : ∀ garbage parses, e ≠ .readEof garbage parses) : p'.eof = p.eof := by
  have hhead : ∀ (x : Process) (head : List Byte) (parses : Bool),
      (x.setupHead head parses).eof = x.eof := by
    intro x head parses
    unfold Process.setupHead
    dsimp only
    split
    · rfl
    · exact (handle_handled _ head parses).eof
  cases e with
  | readDone parses =>
    simp only [Process.step] at hst
    split at hst
    case h_1 got hpc => split at hst <;> cases hst; exact hhead p got parses
    case h_2 head got hpc =>
      split at hst <;> cases hst
      exact (handle_handled (p.setBuf got) head parses).eof
    case h_3 => cases hst
  | readEof garbage parses => exact absurd rfl (he garbage parses)
  | wrote t =>
    simp only [Process.step] at hst
    split at hst
    case h_2 => cases hst
    case h_1 w hw =>
      split at hst
      case isFalse => cases hst
      case isTrue =>
        cases t with
        | setup => cases hst; exact p.setupLoop_rest.2.1
        | heartbeat => cases hst; rfl
  | push t k | writeFailed t =>
    simp only [Process.step] at hst
    split at hst
    case h_2 => cases hst
    case h_1 w hw =>
      split at hst
      case isFalse => cases hst
      case isTrue => cases t <;> cases hst <;> rfl
  | pull bytes | readError | tick | cancelled =>
    simp only [Process.step] at hst
    split at hst
    case h_2 => cases hst
    case h_1 => first | (split at hst <;> cases hst <;> rfl) | (cases hst; rfl)

/-- The counters are those of what was handled. -/
theorem Sums.counter_eq (h : p.Sums) (d : Dir) : p.counter d = UInt64.ofNat (p.total d) := by
  cases d
  exacts [h.1, h.2]

/-- What was handled only gets longer. -/
theorem Grows.total_le (h : p.Grows p') (d : Dir) : p.total d ≤ p'.total d := by
  obtain ⟨more, hm⟩ := h.handled
  rw [total, total, ← hm, totalLen_append]
  exact Nat.le_add_right _ _

end Process

/-! ## What the process has handled -/

/-- A frame tells where it ends. -/
def Wellformed (f : List Byte) : Prop := f.length = frameHeadLen + (bodyLen f).toNat

theorem wellformed_append {head body : List Byte} (hh : head.length = frameHeadLen)
    (hb : body.length = (bodyLen head).toNat) : Wellformed (head ++ body) := by
  rw [Wellformed, List.length_append, bodyLen_append hh, hh, hb]

theorem IsFrame.wellformed {f : List Byte} (h : IsFrame f) : Wellformed f := by
  obtain ⟨type, payload, hlen, rfl⟩ := h
  have hf : frame type payload = (type.code :: Bytes.le 4 payload.length) ++ payload := rfl
  rw [hf]
  refine wellformed_append (by simp [frameHeadLen]) ?_
  rw [bodyLen, List.drop_succ_cons, List.drop_zero, List.take_of_length_le (by simp),
    Bytes.ofLe_le (by simpa using hlen), UInt32.toNat_ofNat', Nat.mod_eq_of_lt hlen]

theorem prefixFree_wellformed : PrefixFree Wellformed := by
  intro f g hf hg hp
  obtain ⟨rest, rfl⟩ := hp
  have hbody : bodyLen (f ++ rest) = bodyLen f := by
    have h5 : frameHeadLen ≤ f.length := by rw [hf]; exact Nat.le_add_right _ _
    rw [← List.take_append_drop frameHeadLen f, List.append_assoc,
      bodyLen_append (by simp [h5]), bodyLen_append (by simp [h5])]
  have hlen := congrArg List.length (List.append_nil f)
  rw [Wellformed, hbody, ← hf, List.length_append] at hg
  rw [List.eq_nil_of_length_eq_zero (by omega : rest.length = 0), List.append_nil]

theorem DataType.ofCode_eq_some {c : Byte} {t : DataType} : ofCode c = some t ↔ c = t.code := by
  constructor
  · unfold ofCode
    intro h
    split_ifs at h with h₁ h₂ h₃ h₄ <;> cases h <;> assumption
  · rintro rfl
    exact ofCode_code t

/-- The call of a frame is as long as its payload. -/
theorem totalLen_callOf {head body : List Byte} (hh : head.length = frameHeadLen) (d : Dir) :
    totalLen d.dataType (callOf (head.getD 0 0) body).toList =
      (carried d [head ++ body]).flatten.length := by
  cases head with
  | nil => cases hh
  | cons c rest =>
    have hdrop : (c :: rest ++ body).drop frameHeadLen = body := by
      rw [← hh, List.drop_left]
    have hcall : totalLen d.dataType (callOf c body).toList =
        if c = d.dataType.code then body.length else 0 := by
      unfold callOf
      cases ht : DataType.ofCode c with
      | none =>
        rw [if_neg]
        · rfl
        · rintro rfl
          simp at ht
      | some t =>
        obtain rfl := DataType.ofCode_eq_some.1 ht
        simp only [DataType.code_inj]
        by_cases hb : t = .heartbeat
        · subst hb
          cases d <;> rfl
        · rw [Option.filter_some_pos (by simpa using hb)]
          exact totalLen_singleton _ _ _
    show totalLen d.dataType (callOf c body).toList = _
    rw [hcall]
    simp only [carried, List.filterMap_cons, List.filterMap_nil, payloadOf, hdrop]
    by_cases hc : c = d.dataType.code
    · subst hc
      by_cases hne : body = []
      · simp [hne]
      · simp [hne]
    · simp [hc]

/-- **The calls of a direction are as long as its payloads.** -/
theorem total_eq (d : Dir) {frames : List (List Byte × List Byte)}
    (h : ∀ f ∈ frames, f.1.length = frameHeadLen) : totalLen d.dataType (calls frames) =
      (carried d (frames.map fun f => f.1 ++ f.2)).flatten.length := by
  induction frames with
  | nil => rfl
  | cons f frames ih =>
    have hcons : calls (f :: frames) = (callOf (f.1.getD 0 0) f.2).toList ++ calls frames := by
      show calls ([f] ++ frames) = _
      rw [calls, List.filterMap_append]
      rfl
    rw [hcons, totalLen_append, totalLen_callOf (h f (by simp)),
      ih fun g hg => h g (by simp [hg]), ← List.length_append, ← List.flatten_append,
      ← carried_append]
    rfl

/-- While the connection lasts, `setup` has handled the frames it was sent. -/
theorem Process.Decoded.frames {bytes headBuf : List Byte} {p : Process}
    (h : p.Decoded bytes headBuf) (he : p.eof = false) :
    ∃ frames rest, Cut p.received frames rest ∧ p.handled = calls frames := by
  obtain ⟨frames, rest, hc, ha⟩ := h.phase
  refine ⟨frames, rest, hc, ?_⟩
  unfold Process.At at ha
  split at ha
  · exact ha.2.2.2
  · exact ha.2.2.2.2.1
  · exact (ha.1 he).2
  · exact (ha.1 (.inl he)).2

/-- More bytes are sent. -/
theorem Process.Decoded.mono {bytes bytes' headBuf : List Byte} {p : Process}
    (h : p.Decoded bytes headBuf) (he : p.eof = false) (hb : bytes <+: bytes') :
    p.Decoded bytes' headBuf :=
  ⟨h.received.trans hb, fun h' => absurd (he.symm.trans h') (by simp), h.sums, h.failed, h.phase⟩

/-- **The process handles what was begun**, frame by frame, and has it all when the
    last of its bytes is there. -/
theorem Process.Decoded.handles {bytes headBuf : List Byte} {p : Process}
    (h : p.Decoded bytes headBuf) (he : p.eof = false) {begun : List (List Byte)}
    (hb : ∀ f ∈ begun, IsFrame f) (hw : bytes <+: begun.flatten) :
    ∃ frames, p.handled = calls frames ∧ (∀ f ∈ frames, f.1.length = frameHeadLen) ∧
      (frames.map fun f => f.1 ++ f.2) <+: begun ∧
        (frames.map fun f => f.1 ++ f.2).flatten <+: bytes := by
  obtain ⟨frames, rest, hc, hh⟩ := h.frames he
  have hsent : (frames.map fun f => f.1 ++ f.2).flatten <+: bytes :=
    (hc.eq ▸ List.prefix_append _ _).trans h.received
  refine ⟨frames, hh, fun f hf => (hc.whole f hf).1, ?_, hsent⟩
  refine prefixFree_wellformed.isPrefix (fun f hf hn => ?_) (fun f hf => ?_)
    (fun f hf => (hb f hf).wellformed) (hsent.trans hw)
  · rw [hn, Wellformed, List.length_nil, frameHeadLen] at hf
    omega
  · obtain ⟨g, hg, rfl⟩ := List.mem_map.1 hf
    obtain ⟨hl, hb⟩ := hc.whole g hg
    exact wellformed_append hl hb

/-- Its totals are those of the payloads. -/
theorem Process.Decoded.carried {bytes headBuf : List Byte} {p : Process}
    (h : p.Decoded bytes headBuf) (he : p.eof = false) {begun : List (List Byte)}
    (hb : ∀ f ∈ begun, IsFrame f) (hw : bytes <+: begun.flatten) :
    ∃ fs, fs <+: begun ∧ fs.flatten <+: bytes ∧
      ∀ d, p.total d = (CppProxy.carried d fs).flatten.length := by
  obtain ⟨frames, hh, hl, hpre, hsent⟩ := h.handles he hb hw
  refine ⟨_, hpre, hsent, fun d => ?_⟩
  rw [Process.total, hh]
  exact total_eq d hl

end CppProxy
