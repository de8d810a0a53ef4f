/-
  cpp_proxy — the wire format in both directions.

  The proxy sends frames and the process reads them in `setup`; the process sends
  responses and the proxy reads them in `process_2proxy_2client_or_2server`.  Each
  reader has one buffer for all bodies, and skips what it does not know.

  * `FourTuple`: the JSON that the proxy builds, and `handle_init`;
  * `Process.Fed`: the connection stays open and the writes of the process
    succeed;
  * `Process.RoundTrips`, `ReadLoop.RoundTrips`: a reader dispatches the sequence
    that was sent, each element with its own data;
  * `roundTrips`: both do.
-/
import CppProxy.Config
import CppProxy.Heads
import CppProxy.ReadLoop

namespace CppProxy

open Runs Framing

/-! ## The four tuple -/

/-- What `four_tuple_2process` sends. -/
structure FourTuple where
  serverIp : String
  serverPort : UInt16
  clientIp : String
  clientPort : UInt16
deriving DecidableEq, Repr

/-- The value that `four_tuple_2process` builds. -/
def FourTuple.json (t : FourTuple) : Json :=
  .object [("client_ip", .string t.clientIp), ("client_port", .number t.clientPort.toNat),
    ("server_ip", .string t.serverIp), ("server_port", .number t.serverPort.toNat)]

/-- `handle_init`; `parse` is `nlohmann::json::parse`, and `none` an exception. -/
def handleInit (parse : List Byte → Option Json) (data : List Byte) : Option FourTuple := do
  let j ← parse data
  let clientIp ← j.get "client_ip" Json.toString
  let clientPort ← j.get "client_port" Json.toUInt16
  let serverIp ← j.get "server_ip" Json.toString
  let serverPort ← j.get "server_port" Json.toUInt16
  return { serverIp, serverPort, clientIp, clientPort }

/-- **`handle_init` reads the four tuple back.** -/
theorem handleInit_json {parse : List Byte → Option Json} {data : List Byte} {t : FourTuple}
    (h : parse data = some t.json) : handleInit parse data = some t := by
  have hport : ∀ p : UInt16, (Json.number p.toNat).toUInt16 = some p := by
    intro p
    simp only [Json.toUInt16, Json.toArithmetic, Option.map_some]
    refine congrArg some (UInt16.toNat_inj.1 ?_)
    have hp := p.toNat_lt
    simp only [UInt16.ofInt, UInt16.toNat_ofNat']
    omega
  cases t
  simp [handleInit, h, FourTuple.json, Json.get, Json.at', List.lookup_cons, Json.toString, hport]

/-! ## Frames -/

/-- The head and the payload of a frame, whose type is any byte. -/
def rawFrame (f : Byte × List Byte) : List Byte × List Byte :=
  (f.1 :: Bytes.le 4 f.2.length, f.2)

/-- The bytes of a sequence of frames. -/
def stream (frames : List (Byte × List Byte)) : List Byte :=
  ((frames.map rawFrame).map fun f => f.1 ++ f.2).flatten

/-- These are the bytes that the proxy sends. -/
theorem stream_frame (frames : List (DataType × List Byte)) :
    stream (frames.map fun f => (f.1.code, f.2)) = (frames.map fun f => frame f.1 f.2).flatten := by
  simp [stream, rawFrame, frame, Function.comp_def]

/-- The calls for a sequence of frames. -/
def dispatches (frames : List (Byte × List Byte)) : List (DataType × List Byte) :=
  frames.filterMap fun f => callOf f.1 f.2

theorem calls_rawFrame (frames : List (Byte × List Byte)) :
    calls (frames.map rawFrame) = dispatches frames := by
  simp [calls, dispatches, rawFrame, List.filterMap_map, Function.comp_def]

theorem rawFrame_whole {f : Byte × List Byte} (hf : f.2.length < 2 ^ 32) :
    (rawFrame f).1.length = frameHeadLen ∧
      (rawFrame f).2.length = (bodyLen (rawFrame f).1).toNat := by
  refine ⟨by simp [rawFrame, frameHeadLen], ?_⟩
  rw [rawFrame, bodyLen, List.drop_succ_cons, List.drop_zero, List.take_of_length_le (by simp),
    Bytes.ofLe_le (by simpa using hf), UInt32.toNat_ofNat', Nat.mod_eq_of_lt hf]

/-- **A stream is cut in one way** into heads and bodies. -/
theorem isPrefix_of_flatten {fs gs : List (List Byte × List Byte)}
    (hf : ∀ f ∈ fs, f.1.length = frameHeadLen ∧ f.2.length = (bodyLen f.1).toNat)
    (hg : ∀ g ∈ gs, g.1.length = frameHeadLen ∧ g.2.length = (bodyLen g.1).toNat)
    (hp : (fs.map fun f => f.1 ++ f.2).flatten <+: (gs.map fun g => g.1 ++ g.2).flatten) :
    fs <+: gs := by
  have hwell : ∀ {hs : List (List Byte × List Byte)},
      (∀ h ∈ hs, h.1.length = frameHeadLen ∧ h.2.length = (bodyLen h.1).toNat) →
      ∀ x ∈ hs.map (fun h => h.1 ++ h.2), Wellformed x := by
    intro hs hh x hx
    obtain ⟨h, hm, rfl⟩ := List.mem_map.1 hx
    exact wellformed_append (hh h hm).1 (hh h hm).2
  have hcat := prefixFree_wellformed.isPrefix (fun f hf hn => by
    rw [hn, Wellformed, List.length_nil, frameHeadLen] at hf
    omega) (hwell hf) (hwell hg) hp
  -- the head of a frame is its first five bytes
  have hsplit : ∀ {hs : List (List Byte × List Byte)},
      (∀ h ∈ hs, h.1.length = frameHeadLen ∧ h.2.length = (bodyLen h.1).toNat) →
      (hs.map fun h => h.1 ++ h.2).map (fun x => (x.take frameHeadLen, x.drop frameHeadLen)) =
        hs := by
    intro hs hh
    rw [List.map_map]
    conv_rhs => rw [← List.map_id hs]
    refine List.map_congr_left fun h hm => ?_
    simp only [Function.comp_apply, ← (hh h hm).1, List.take_left, List.drop_left, id_eq]
  have := hcat.map fun x => (x.take frameHeadLen, x.drop frameHeadLen)
  rwa [hsplit hf, hsplit hg] at this

/-! ## The process -/

/-- What `setup` has of a body. -/
def SetupPc.body : SetupPc → List Byte
  | readBody _ got => got
  | _ => []

namespace Process

/-- The proxy sends `bytes` and does not close; no write fails, and `parses` is what
    `handle_init` finds. -/
def Fed (parse : List Byte → Option Json) (bytes : List Byte) (p : Process) : ProcessEvent → Prop
  | .pull more => p.received ++ more <+: bytes
  | .readDone parses => parses = (handleInit parse p.setup.body).isSome
  | .readEof _ _ | .readError | .writeFailed _ => False
  | _ => True

instance (parse : List Byte → Option Json) (bytes : List Byte) (p : Process) :
    ∀ e, Decidable (p.Fed parse bytes e)
  | .pull _ => inferInstanceAs (Decidable (_ <+: _))
  | .readDone _ => inferInstanceAs (Decidable (_ = _))
  | .readEof _ _ | .readError | .writeFailed _ => inferInstanceAs (Decidable False)
  | .tick | .cancelled | .push _ _ | .wrote _ => inferInstanceAs (Decidable True)

/-- The reads and the writes of `setup`. -/
def ofSetup : ProcessEvent → Bool
  | .pull _ | .readDone _ | .push .setup _ | .wrote .setup => true
  | _ => false

/-- The process reads the frames as they were sent. -/
structure RoundTrips (parse : List Byte → Option Json) (frames : List (Byte × List Byte))
    (p : Process) : Prop where
  inStep : ∃ handled rest, handled <+: frames ∧ p.received = stream handled ++ rest ∧
    p.handled = dispatches handled ∧ ∀ got, p.setup = .readHead got → rest = got
  bufGrows : ∀ e p', p.step e = some p' → p.buf.length ≤ p'.buf.length
  settles : Settles Process.step (Process.Fed parse (stream frames)) (fun e => ofSetup e = true)
    (fun p => p.received = stream frames ∧ p.setup = .readHead [] ∧
      p.handled = dispatches frames) p

end Process

/-- The proxy reads the responses as they were sent; a handler finds its data in the
    buffer for as long as it runs. -/
structure ReadLoop.RoundTrips (rs : List Response) (l : ReadLoop) : Prop where
  inOrder : l.dispatched <+: rs.map Response.pair
  ownData : ∀ head, l.pc = .handling head → ∃ earlier,
    l.dispatched = earlier ++ [(head, l.newData head)]
  bufGrows : ∀ e l', l.step e = some l' → l.proxyProcessBuf.length ≤ l'.proxyProcessBuf.length
  settles : Settles ReadLoop.step (ReadLoop.Fed (wire rs)) (fun _ => True) (fun l =>
    l.received = wire rs ∧ l.pc = .readHead [] ∧ l.dispatched = rs.map Response.pair) l

namespace Process

variable {parse : List Byte → Option Json} {frames : List (Byte × List Byte)} {p p' : Process}

/-- The frames can be sent, and `handle_init` accepts the four tuples. -/
structure Sendable (parse : List Byte → Option Json) (frames : List (Byte × List Byte)) : Prop where
  short : ∀ f ∈ frames, f.2.length < 2 ^ 32
  tuple : ∀ f ∈ frames, f.1 = DataType.fourTuple.code → (handleInit parse f.2).isSome = true

/-- The connection is open, and `setup` goes on. -/
structure Follows (frames : List (Byte × List Byte)) (p : Process) : Prop where
  decoded : p.Decoded (stream frames) []
  opened : p.eof = false ∧ p.hasClosed = false
  going : p.setup ≠ .done
  short : ∀ w, p.setup = .write w → w.rest.length ≤ responseHeadLen

/-- What `setup` has to do until it has handled all. -/
def rank (frames : List (Byte × List Byte)) (p : Process) : ℕ :=
  5 * ((stream frames).length - p.received.length) +
    match p.setup with
    | .readHead got => 4 * got.length
    | .readBody _ got => 18 + 4 * got.length
    | .write w => w.rest.length + 1
    | .done => 0

theorem Fed.sends {bytes headBuf : List Byte} {e : ProcessEvent} (h : p.Fed parse bytes e) :
    p.Sends bytes headBuf e := by
  cases e with
  | pull more => exact h
  | readEof garbage parses => exact h.elim
  | _ => trivial

theorem Follows.init (frames : List (Byte × List Byte)) : Follows frames .init :=
  ⟨.start [], ⟨rfl, rfl⟩, by simp [Process.init], by simp [Process.init]⟩

/-- What was handled are the first frames. -/
theorem isPrefix_frames (hs : Sendable parse frames) {bytes rest : List Byte}
    {fs : List (List Byte × List Byte)} (hc : Cut bytes fs rest) (hp : bytes <+: stream frames) :
    ∃ handled, handled <+: frames ∧ fs = handled.map rawFrame := by
  have hpre : fs <+: frames.map rawFrame := by
    refine isPrefix_of_flatten hc.whole (fun g hg => ?_) ((hc.eq ▸ List.prefix_append _ _).trans hp)
    obtain ⟨f, hf, rfl⟩ := List.mem_map.1 hg
    exact rawFrame_whole (hs.short f hf)
  exact ⟨frames.take fs.length, List.take_prefix _ _, by
    rw [List.map_take]; exact (List.prefix_iff_eq_take.1 hpre)⟩

/-- A four tuple that is read is one that was sent. -/
theorem parses_of_frame (hs : Sendable parse frames) {bytes head body : List Byte}
    {fs : List (List Byte × List Byte)} (hc : Cut bytes (fs ++ [(head, body)]) [])
    (hp : bytes <+: stream frames) (ht : DataType.ofCode (head.getD 0 0) = some .fourTuple) :
    (handleInit parse body).isSome = true := by
  obtain ⟨handled, hpre, heq⟩ := isPrefix_frames hs hc hp
  have hm : (head, body) ∈ handled.map rawFrame := heq ▸ by simp
  obtain ⟨f, hf, hfe⟩ := List.mem_map.1 hm
  simp only [rawFrame, Prod.mk.injEq] at hfe
  obtain ⟨rfl, rfl⟩ := hfe
  exact hs.tuple f (hpre.subset hf) (DataType.ofCode_eq_some.1 ht)

/-- The `switch` on a frame, whose four tuple parses: the next head, or a write. -/
theorem handle_going {x : Process} {head : List Byte} {parses : Bool} (he : x.eof = false)
    (hq : DataType.ofCode (head.getD 0 0) = some .fourTuple → parses = true) :
    (x.handle head parses).hasClosed = x.hasClosed ∧
      ((x.handle head parses).setup = .readHead [] ∨
        ∃ h, (x.handle head parses).setup = .write (.start h)) := by
  have hloop : ∀ {y : Process}, y.eof = false → y.hasClosed = x.hasClosed →
      y.setupLoop.hasClosed = x.hasClosed ∧ (y.setupLoop.setup = .readHead [] ∨
        ∃ h, y.setupLoop.setup = .write (.start h)) := fun hy hc => by
    rw [setupLoop, if_neg (by simp [hy])]
    exact ⟨hc, .inl rfl⟩
  unfold Process.handle
  dsimp only
  split
  · exact ⟨rfl, .inr ⟨_, rfl⟩⟩
  · split
    · exact hloop he rfl
    · exact ⟨rfl, .inr ⟨_, rfl⟩⟩
  · rename_i ht
    rw [if_pos (hq ht)]
    exact hloop he rfl
  · exact hloop he rfl

/-- After a frame, `setup` goes on. -/
theorem Follows.handle {x : Process} {head : List Byte} {parses : Bool}
    (hd : (x.handle head parses).Decoded (stream frames) [])
    (ho : x.eof = false ∧ x.hasClosed = false)
    (hq : DataType.ofCode (head.getD 0 0) = some .fourTuple → parses = true) :
    Follows frames (x.handle head parses) ∧ (x.handle head parses).rank frames ≤
      5 * ((stream frames).length - x.received.length) + 17 := by
  obtain ⟨hc, hset⟩ := handle_going ho.1 hq
  have hh := handle_handled x head parses
  refine ⟨⟨hd, ⟨hh.eof.trans ho.1, hc.trans ho.2⟩, fun hn => ?_, fun w hw => ?_⟩, ?_⟩
  · rcases hset with hset | ⟨h, hset⟩ <;> rw [hset] at hn <;> cases hn
  · rcases hset with hset | ⟨h, hset⟩ <;> rw [hset] at hw <;> cases hw
    simp [HeadWrite.start]
  · rw [rank, hh.received]
    rcases hset with hset | ⟨h, hset⟩ <;> rw [hset] <;> simp [HeadWrite.start, responseHeadLen]

/-- A step of `heartbeat` leaves `setup` alone. -/
theorem Follows.beat (h : Follows frames p) (hd : p'.Decoded (stream frames) [])
    (hs : p'.setup = p.setup) (hr : p'.received = p.received) (he : p'.eof = p.eof)
    (hc : p'.hasClosed = p.hasClosed) :
    Follows frames p' ∧ p'.rank frames ≤ p.rank frames :=
  ⟨⟨hd, ⟨he.trans h.opened.1, hc.trans h.opened.2⟩, by rw [hs]; exact h.going,
    by rw [hs]; exact h.short⟩, by rw [rank, rank, hs, hr]⟩

/-- **A step** goes on, and one of `setup` leaves less to do. -/
theorem Follows.step {e : ProcessEvent} (h : Follows frames p) (hs : Sendable parse frames)
    (hF : p.Fed parse (stream frames) e) (hst : p.step e = some p') :
    Follows frames p' ∧ p'.rank frames + (if ofSetup e = true then 1 else 0) ≤ p.rank frames := by
  have hd := h.decoded.step hF.sends hst
  obtain ⟨fs, rest, hcut, ha⟩ := h.decoded.phase
  cases e with
  | pull more =>
    simp only [Process.step] at hst
    split at hst
    case h_2 => cases hst
    case h_1 got want hq =>
      split at hst <;> cases hst
      rename_i hp
      have hlen := List.length_pos_iff.2 hp.2.1
      have hle := List.IsPrefix.length_le hF
      rw [List.length_append] at hle
      cases hpc : p.setup with
      | readHead got' | readBody head got' =>
        rw [hpc] at hq
        cases hq
        rw [hpc] at hd
        refine ⟨⟨hd, h.opened, by simp [SetupPc.setGot], by simp [SetupPc.setGot]⟩, ?_⟩
        simp only [rank, hpc, SetupPc.setGot, List.length_append, ofSetup, if_true]
        omega
      | write w | done =>
        rw [hpc] at hq
        cases hq
  | readDone parses =>
    simp only [Process.step] at hst
    split at hst
    case h_1 got hpc =>
      split at hst <;> cases hst
      rename_i hl
      simp only [At, hpc] at ha
      have hrank : p.rank frames = 5 * ((stream frames).length - p.received.length) + 20 := by
        simp [rank, hpc, hl, frameHeadLen]
      rw [hrank]
      unfold Process.setupHead at hd ⊢
      dsimp only at hd ⊢
      split at hd
      · rename_i hne
        rw [if_pos hne]
        exact ⟨⟨hd, h.opened, by simp, by simp⟩, by simp [rank, growBuf, ofSetup]⟩
      · rename_i h0
        rw [if_neg h0]
        have hfol := Follows.handle (x := p.growBuf _) hd h.opened fun ht => by
          have hc : Cut p.received (fs ++ [(got, [])]) [] :=
            Cut.snoc (by rw [List.append_nil, ← ha.2.1]; exact hcut) hl (by rw [not_not.1 h0]; rfl)
          have hF' : parses = _ := hF
          rw [hF', hpc]
          exact parses_of_frame hs hc h.decoded.received ht
        refine ⟨hfol.1, ?_⟩
        have := hfol.2
        simp only [growBuf, ofSetup, if_true] at this ⊢
        omega
    case h_2 head got hpc =>
      split at hst <;> cases hst
      rename_i hl
      simp only [At, hpc] at ha
      obtain ⟨h1, h2, h3, -, h5, h6, -⟩ := ha
      have hfol := Follows.handle (x := p.setBuf got) hd h.opened fun ht => by
        have hc : Cut p.received (fs ++ [(head, got)]) [] :=
          Cut.snoc (h6 h.opened.1 ▸ hcut) h1 hl
        have hF' : parses = _ := hF
        rw [hF', hpc]
        exact parses_of_frame hs hc h.decoded.received ht
      refine ⟨hfol.1, ?_⟩
      have := hfol.2
      simp only [rank, hpc, setBuf, ofSetup, if_true] at this ⊢
      omega
    case h_3 => cases hst
  | readEof garbage parses | readError | writeFailed t => exact hF.elim
  | tick =>
    simp only [Process.step] at hst
    split at hst <;> cases hst
    exact h.beat hd rfl rfl rfl rfl
  | cancelled =>
    simp only [Process.step] at hst
    split at hst
    case h_2 => cases hst
    case h_1 =>
      split at hst <;> cases hst
      rename_i hc
      simp [h.opened.2] at hc
  | push t k =>
    simp only [Process.step] at hst
    split at hst
    case h_2 => cases hst
    case h_1 w hw =>
      split at hst <;> cases hst
      rename_i hp
      cases t with
      | heartbeat => exact h.beat hd rfl rfl rfl rfl
      | setup =>
        have hpc := Decoded.headWrite_setup hw
        have hlen := h.short w hpc
        refine ⟨⟨hd, h.opened, by simp [setHeadWrite], fun v hv => ?_⟩, ?_⟩
        · cases hv
          rw [List.length_drop]
          omega
        · simp only [rank, hpc, setHeadWrite, send, List.length_drop, ofSetup, if_true]
          omega
  | wrote t =>
    simp only [Process.step] at hst
    split at hst
    case h_2 => cases hst
    case h_1 w hw =>
      split at hst
      case isFalse => cases hst
      case isTrue =>
        cases t with
        | heartbeat => cases hst; exact h.beat hd rfl rfl rfl rfl
        | setup =>
          cases hst
          have hpc := Decoded.headWrite_setup hw
          rw [setupLoop, if_neg (by simp [h.opened.1])] at hd ⊢
          refine ⟨⟨hd, h.opened, by simp, by simp⟩, ?_⟩
          simp only [rank, hpc, ofSetup, if_true, List.length_nil]
          omega

/-- Behind whole frames there is nothing when all is received. -/
theorem rest_nil (hs : Sendable parse frames) {rest : List Byte}
    {fs : List (List Byte × List Byte)} (hc : Cut (stream frames) fs rest) (hr : Partial rest) :
    rest = [] ∧ fs = frames.map rawFrame := by
  have hall : Cut (stream frames) (frames.map rawFrame) [] := by
    refine ⟨(List.append_nil _).symm, fun g hg => ?_⟩
    obtain ⟨f, hf, rfl⟩ := List.mem_map.1 hg
    exact rawFrame_whole (hs.short f hf)
  obtain ⟨h1, h2⟩ := hc.complete hr
  obtain ⟨h3, h4⟩ := hall.complete partial_nil
  exact ⟨h2.symm.trans h4, h1.symm.trans h3⟩

/-- While it has not handled all, `setup` can go on. -/
theorem Follows.goesOn (h : Follows frames p) (hs : Sendable parse frames) :
    (p.received = stream frames ∧ p.setup = .readHead [] ∧ p.handled = dispatches frames) ∨
      ∃ e p', ofSetup e = true ∧ p.Fed parse (stream frames) e ∧ p.step e = some p' := by
  obtain ⟨fs, rest, hcut, ha⟩ := h.decoded.phase
  -- one byte arrives
  have hpull : ∀ {got want}, p.setup.reading = some (got, want) → got.length < want →
      p.received ≠ stream frames →
      ∃ e p', ofSetup e = true ∧ p.Fed parse (stream frames) e ∧ p.step e = some p' := by
    intro got want hq hlt hne
    obtain ⟨b, hb⟩ := exists_next h.decoded.received hne
    exact ⟨.pull [b], _, rfl, hb, by
      simp only [Process.step, hq]; exact if_pos ⟨h.opened.2, by simp, hlt⟩⟩
  cases hpc : p.setup with
  | readHead got =>
    simp only [At, hpc] at ha
    obtain ⟨-, rfl, hle, hh⟩ := ha
    by_cases hl : rest.length = frameHeadLen
    · exact .inr ⟨.readDone _, _, rfl, rfl, by simp only [Process.step, hpc]; exact if_pos hl⟩
    by_cases hall : p.received = stream frames
    · obtain ⟨rfl, rfl⟩ := rest_nil hs (hall ▸ hcut) (by rw [Partial]; omega)
      exact .inl ⟨hall, rfl, hh.trans (calls_rawFrame frames)⟩
    · exact .inr (hpull (by rw [hpc]; rfl) (by omega) hall)
  | readBody head got =>
    simp only [At, hpc] at ha
    obtain ⟨h1, -, -, h4, -, h6, -⟩ := ha
    by_cases hl : got.length = (bodyLen head).toNat
    · exact .inr ⟨.readDone _, _, rfl, rfl, by simp only [Process.step, hpc]; exact if_pos hl⟩
    refine .inr (hpull (by rw [hpc]; rfl) (by omega) fun hall => ?_)
    have hpart : Partial (head ++ got) := by
      simp only [Partial, bodyLen_append h1, List.length_append]
      omega
    have hrest := (rest_nil hs (hall ▸ (h6 h.opened.1 ▸ hcut)) hpart).1
    rw [(List.append_eq_nil_iff.1 hrest).1, frameHeadLen] at h1
    cases h1
  | write w =>
    have hw : p.headWrite .setup = some w := by simp [headWrite, hpc]
    by_cases hr : w.rest = []
    · exact .inr ⟨.wrote .setup, _, rfl, trivial, by simp only [Process.step, hw]; exact if_pos hr⟩
    · refine .inr ⟨.push .setup 1, (p.send w 1).setHeadWrite { w with rest := w.rest.drop 1 } .setup,
        rfl, trivial, ?_⟩
      simp only [Process.step, hw]
      exact if_pos ⟨h.opened.2, Nat.one_pos, List.length_pos_iff.2 hr⟩
  | done => exact absurd hpc h.going

@[simp] theorem setupLoop_buf (p : Process) : p.setupLoop.buf = p.buf := by
  unfold setupLoop
  split <;> rfl

@[simp] theorem handle_buf (p : Process) (head : List Byte) (parses : Bool) :
    (p.handle head parses).buf = p.buf := by
  unfold Process.handle
  dsimp only
  split
  · rfl
  · split
    · exact setupLoop_buf _
    · rfl
  · split
    · exact setupLoop_buf _
    · rfl
  · exact setupLoop_buf _

theorem le_length_growBuf (p : Process) (n : ℕ) : p.buf.length ≤ (p.growBuf n).buf.length := by
  simp [growBuf]

theorem le_length_setBuf (p : Process) (got : List Byte) :
    p.buf.length ≤ (p.setBuf got).buf.length := by
  rw [setBuf, List.length_append, List.length_drop]
  omega

/-- A body that is read needs a buffer that is as long. -/
theorem le_length_setupHead (p : Process) (head : List Byte) (parses : Bool) :
    p.buf.length ≤ (p.setupHead head parses).buf.length := by
  unfold Process.setupHead
  dsimp only
  split
  · exact p.le_length_growBuf _
  · rw [handle_buf]
    exact p.le_length_growBuf _

/-- The buffer only ever grows. -/
theorem buf_mono {e : ProcessEvent} (hst : p.step e = some p') : p.buf.length ≤ p'.buf.length := by
  cases e with
  | readDone parses =>
    simp only [Process.step] at hst
    split at hst
    case h_1 got hpc =>
      split at hst <;> cases hst
      exact p.le_length_setupHead got parses
    case h_2 head got hpc =>
      split at hst <;> cases hst
      rw [handle_buf]
      exact p.le_length_setBuf got
    case h_3 => cases hst
  | readEof garbage parses =>
    simp only [Process.step] at hst
    split at hst
    case h_1 got hpc =>
      split at hst <;> cases hst
      exact le_length_setupHead { p with eof := true } _ parses
    case h_2 head got hpc =>
      split at hst <;> cases hst
      rw [handle_buf]
      exact le_length_setBuf { p with eof := true } got
    case h_3 => cases hst
  | wrote t | writeFailed t | push t k =>
    simp only [Process.step] at hst
    split at hst
    case h_2 => cases hst
    case h_1 w hw =>
      split at hst
      case isFalse => cases hst
      case isTrue => cases t <;> cases hst <;> first | exact le_rfl | rw [setupLoop_buf]
  | pull bytes | readError | tick | cancelled =>
    simp only [Process.step] at hst
    split at hst
    case h_2 => cases hst
    case h_1 => first | (split at hst <;> cases hst <;> exact le_rfl) | (cases hst; exact le_rfl)

theorem follows (hs : Sendable parse frames)
    (h : Reach Process.step (Process.Fed parse (stream frames)) .init p) : Follows frames p :=
  h.inv (.init frames) fun _ _ _ hp hF hst => (hp.step hs hF hst).1

theorem Follows.meets (h : Follows frames p) (hs : Sendable parse frames) :
    RoundTrips parse frames p where
  inStep := by
    obtain ⟨fs, rest, hcut, ha⟩ := h.decoded.phase
    obtain ⟨handled, hpre, rfl⟩ := isPrefix_frames hs hcut h.decoded.received
    refine ⟨handled, rest, hpre, hcut.eq, ?_, fun got hpc => ?_⟩
    · rw [← calls_rawFrame]
      unfold Process.At at ha
      split at ha
      · exact ha.2.2.2
      · exact ha.2.2.2.2.1
      · exact (ha.1 h.opened.1).2
      · exact (ha.1 (.inl h.opened.1)).2
    · simp only [At, hpc] at ha
      exact ha.2.1
  bufGrows _ _ hst := buf_mono hst
  settles := settles_of_rank (I := Follows frames) (rank frames) h
    (fun _ _ _ hp hF hst => hp.step hs hF hst) fun _ hp => hp.goesOn hs

end Process

theorem ReadLoop.Follows.meets {rs : List Response} {l : ReadLoop} (h : l.Follows rs) :
    l.RoundTrips rs where
  inOrder := by
    obtain ⟨done, todo, rfl, hd, -⟩ := h.phase
    rw [hd, List.map_append]
    exact List.prefix_append _ _
  ownData head hpc := by
    obtain ⟨done, todo, rfl, hd, ha⟩ := h.phase
    simp only [ReadLoop.At, hpc] at ha
    obtain ⟨-, r, done', rfl, rfl, hbuf⟩ := ha
    exact ⟨done'.map Response.pair, by simp [hd, Response.pair, hbuf]⟩
  bufGrows _ _ hst := ReadLoop.buf_mono hst
  settles := h.settles

/-! ## Both directions -/

/-- **The wire format round-trips**: on a connection that lasts, the process dispatches
    exactly the frames that were sent, and the proxy exactly the responses, each with
    its own data. -/
theorem roundTrips {parse : List Byte → Option Json} {dump : Json → List Byte}
    {frames : List (Byte × List Byte)} {rs : List Response} {p : Process} {l : ReadLoop}
    (hshort : ∀ f ∈ frames, f.2.length < 2 ^ 32)
    (hjson : ∀ f ∈ frames, f.1 = DataType.fourTuple.code → ∃ t : FourTuple, f.2 = dump t.json)
    (hparse : ∀ t : FourTuple, (DataType.fourTuple.code, dump t.json) ∈ frames →
      parse (dump t.json) = some t.json)
    (hp : Reach Process.step (Process.Fed parse (stream frames)) .init p)
    (hl : Reach ReadLoop.step (ReadLoop.Fed (wire rs)) {} l) :
    p.RoundTrips parse frames ∧ l.RoundTrips rs := by
  have hs : Process.Sendable parse frames := by
    refine ⟨hshort, fun f hf ht => ?_⟩
    obtain ⟨t, hdump⟩ := hjson f hf ht
    have hread := hparse t (by rw [← ht, ← hdump]; exact hf)
    rw [hdump, handleInit_json hread]
    rfl
  exact ⟨(Process.follows hs hp).meets hs, (ReadLoop.follows hl).meets⟩

/-- The four tuple whose text is `localText`. -/
def localTuple : FourTuple := ⟨"10.0.0.1", 80, "127.0.0.1", 5000⟩

/-- The four tuple, a frame of unknown type, and a shorter request. -/
def mixedFrames : List (Byte × List Byte) := [(2, localText), (9, [1, 2, 3]), (0, [7, 8])]

/-- New data for the server, a response of unknown type, and less data for the client. -/
def mixedResponses : List Response :=
  [⟨⟨0, 0, 0, 0, 3, 5⟩, [1, 2, 3], rfl⟩, ⟨⟨9, 0, 0, 0, 2, 0⟩, [4, 5], rfl⟩,
    ⟨⟨1, 0, 0, 0, 1, 7⟩, [6], rfl⟩]

/-- The frames and the responses are dispatched, but for what is unknown. -/
theorem roundTrips_unknown : ∃ (p : Process) (l : ReadLoop),
    p.handled = [(.fourTuple, localText), (.fromClientToServer, [7, 8])] ∧
    l.dispatched.map Prod.snd = [[1, 2, 3], [4, 5], [6]] ∧
    p.RoundTrips (fun data => if data = localText then some localTuple.json else none)
      mixedFrames ∧
    l.RoundTrips mixedResponses := by
  obtain ⟨p, hp, hph⟩ := exists_runIf Process.step (Process.Fed
    (fun data => if data = localText then some localTuple.json else none) (stream mixedFrames)) .init
    [.pull ((stream [(2, localText)]).take 5), .readDone false, .pull localText, .readDone true,
      .pull [9, 3, 0], .pull [0, 0], .readDone false, .pull [1, 2, 3], .readDone false,
      .pull [0, 2, 0, 0, 0], .readDone false, .pull [7, 8], .readDone false]
    (fun p => p.handled == [(.fourTuple, localText), (.fromClientToServer, [7, 8])])
    (by decide +kernel)
  obtain ⟨l, hl, hld⟩ := exists_runIf ReadLoop.step (ReadLoop.Fed (wire mixedResponses)) {}
    [.pull (ResponseHead.bytes ⟨0, 0, 0, 0, 3, 5⟩), .readDone, .pull [1, 2], .pull [3], .readDone,
      .handled, .pull (ResponseHead.bytes ⟨9, 0, 0, 0, 2, 0⟩), .readDone, .pull [4, 5], .readDone,
      .pull (ResponseHead.bytes ⟨1, 0, 0, 0, 1, 7⟩), .readDone, .pull [6], .readDone]
    (fun l => l.dispatched.map Prod.snd == [[1, 2, 3], [4, 5], [6]]) (by decide +kernel)
  have hdump : ∀ t : FourTuple,
      (if handleInit (fun _ => some t.json) [] = some localTuple then localText else []) =
        if t = localTuple then localText else [] := by
    intro t
    rw [handleInit_json rfl]
    simp
  have hrt := @roundTrips _
    (fun j => if handleInit (fun _ => some j) [] = some localTuple then localText else []) _ _ _ _
    (by decide +kernel) (fun f hf ht => ⟨localTuple, ?_⟩) (fun t ht => ?_) hp hl
  · exact ⟨p, l, beq_iff_eq.1 hph, beq_iff_eq.1 hld, hrt⟩
  · rw [hdump, if_pos rfl]
    rcases List.mem_cons.1 hf with rfl | hf
    · rfl
    · rcases List.mem_cons.1 hf with rfl | hf
      · cases ht
      · rw [List.mem_singleton.1 hf] at ht
        cases ht
  · rw [hdump] at ht ⊢
    by_cases h : t = localTuple
    · rw [if_pos h, if_pos rfl, h]
    · rw [if_neg h] at ht
      exact absurd ht (by decide +kernel)

end CppProxy
