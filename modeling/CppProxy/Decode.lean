/-
  cpp_proxy — the frames the process handles (process.cpp).

  `setup` reads a head and a body and calls `handle_init`, `handle_request` or
  `handle_response`.  At the end of the stream it only sets `eof_`: it goes on
  with the type and the length that are in `head_buf` and with what is in `buf_`,
  so it handles a part of a frame, or an old head, as a frame.

  * `completeFrames`, `leftover`: the complete frames of a byte string, and the
    part of a frame behind them;
  * `Process.Sends`: the proxy sends these bytes and closes;
  * `Process.Handles`: the calls are those of the complete frames, and the
    counters the sums of their payload lengths;
  * `handles_iff`: this holds exactly when all complete frames were read and, if the
    read of a body behind the end of the stream is not aborted, the type that `setup`
    finds in `head_buf` there calls nothing.
-/
import Mathlib.Algebra.GroupWithZero.Nat
import CppProxy.Lib.Runs
import CppProxy.Process

namespace CppProxy

open Runs

/-! ## Frames of a byte string -/

/-- The complete frames at the start of a byte string, each with its head and its
    body, and what is left behind them. -/
def cutFrames : ℕ → List Byte → List (List Byte × List Byte) × List Byte
  | 0, bytes => ([], bytes)
  | n + 1, bytes =>
    if frameHeadLen + (bodyLen bytes).toNat ≤ bytes.length then
      let body := bytes.drop frameHeadLen
      let r := cutFrames n (body.drop (bodyLen bytes).toNat)
      ((bytes.take frameHeadLen, body.take (bodyLen bytes).toNat) :: r.1, r.2)
    else ([], bytes)

/-- The head and the payload of every complete frame of a byte string. -/
def completeFrames (bytes : List Byte) : List (List Byte × List Byte) :=
  (cutFrames bytes.length bytes).1

/-- The bytes after the last complete frame. -/
def leftover (bytes : List Byte) : List Byte := (cutFrames bytes.length bytes).2

/-- The call for a frame with this type, if there is one. -/
def callOf (type : Byte) (data : List Byte) : Option (DataType × List Byte) :=
  ((DataType.ofCode type).filter (· ≠ .heartbeat)).map fun t => (t, data)

/-- The calls for a sequence of frames. -/
def calls (frames : List (List Byte × List Byte)) : List (DataType × List Byte) :=
  frames.filterMap fun f => callOf (f.1.getD 0 0) f.2

/-- The payload lengths of the calls for one type, added up. -/
def totalLen (type : DataType) (calls : List (DataType × List Byte)) : ℕ :=
  ((calls.filter fun c => c.1 = type).map fun c => c.2.length).sum

/-- `bytes` are the frames `frames` and then `rest`. -/
structure Cut (bytes : List Byte) (frames : List (List Byte × List Byte)) (rest : List Byte) :
    Prop where
  eq : bytes = (frames.map fun f => f.1 ++ f.2).flatten ++ rest
  whole : ∀ f ∈ frames, f.1.length = frameHeadLen ∧ f.2.length = (bodyLen f.1).toNat

/-- No frame is complete. -/
def Partial (rest : List Byte) : Prop := rest.length < frameHeadLen + (bodyLen rest).toNat

theorem bodyLen_append {head : List Byte} (h : head.length = frameHeadLen) (body : List Byte) :
    bodyLen (head ++ body) = bodyLen head := by
  simp only [frameHeadLen] at h
  simp only [bodyLen]
  rw [List.drop_append_of_le_length (by omega),
    List.take_append_of_le_length (by rw [List.length_drop]; omega)]

theorem Cut.nil (rest : List Byte) : Cut rest [] rest := ⟨rfl, by simp⟩

theorem Cut.append {bytes rest : List Byte} {frames : List (List Byte × List Byte)}
    (h : Cut bytes frames rest) (more : List Byte) : Cut (bytes ++ more) frames (rest ++ more) :=
  ⟨by rw [h.eq, List.append_assoc], h.whole⟩

/-- What is left is a complete frame. -/
theorem Cut.snoc {bytes head body : List Byte} {frames : List (List Byte × List Byte)}
    (h : Cut bytes frames (head ++ body)) (hh : head.length = frameHeadLen)
    (hb : body.length = (bodyLen head).toNat) : Cut bytes (frames ++ [(head, body)]) [] := by
  refine ⟨by simp [h.eq], fun f hf => ?_⟩
  rcases List.mem_append.1 hf with hf | hf
  · exact h.whole f hf
  · rw [List.mem_singleton.1 hf]
    exact ⟨hh, hb⟩

theorem Cut.cutFrames {rest : List Byte} (hr : Partial rest) :
    ∀ {frames : List (List Byte × List Byte)} {bytes : List Byte} {n : ℕ},
      Cut bytes frames rest → frames.length ≤ n → cutFrames n bytes = (frames, rest)
  | [], bytes, n, h, _ => by
    obtain rfl : bytes = rest := by simpa using h.eq
    cases n with
    | zero => rfl
    | succ n =>
      simp only [CppProxy.cutFrames]
      rw [if_neg (Nat.not_le.2 hr)]
  | (head, body) :: frames, bytes, n + 1, h, hn => by
    obtain ⟨hh, hb⟩ := h.whole (head, body) (by simp)
    have hbytes : bytes = head ++ (body ++ ((frames.map fun f => f.1 ++ f.2).flatten ++ rest)) := by
      simpa using h.eq
    have hlen : (bodyLen bytes).toNat = body.length := by rw [hbytes, bodyLen_append hh, hb]
    have hih : CppProxy.cutFrames n ((frames.map fun f => f.1 ++ f.2).flatten ++ rest) =
        (frames, rest) :=
      Cut.cutFrames hr ⟨rfl, fun f hf => h.whole f (by simp [hf])⟩ (by simpa using hn)
    simp only [CppProxy.cutFrames, hlen]
    rw [if_pos (by simp [hbytes, hh])]
    rw [hbytes, ← hh, List.drop_left, List.take_left, List.drop_left, List.take_left, hih]

theorem Cut.length_le {bytes rest : List Byte} {frames : List (List Byte × List Byte)}
    (h : Cut bytes frames rest) : frames.length ≤ bytes.length := by
  obtain ⟨rfl, hw⟩ := h
  induction frames with
  | nil => simp
  | cons f frames ih =>
    have := ih fun g hg => hw g (by simp [hg])
    have := (hw f (by simp)).1
    simp only [frameHeadLen, List.map_cons, List.flatten_cons, List.length_append,
      List.length_cons] at *
    omega

/-- **The complete frames** are the frames before a part that holds none. -/
theorem Cut.complete {bytes rest : List Byte} {frames : List (List Byte × List Byte)}
    (h : Cut bytes frames rest) (hr : Partial rest) :
    completeFrames bytes = frames ∧ leftover bytes = rest := by
  simp [completeFrames, leftover, h.cutFrames hr h.length_le]

theorem calls_snoc (frames : List (List Byte × List Byte)) (head body : List Byte) :
    calls (frames ++ [(head, body)]) =
      calls frames ++ (callOf (head.getD 0 0) body).toList := by
  rw [calls, List.filterMap_append]
  rfl

theorem totalLen_append (type : DataType) (cs cs' : List (DataType × List Byte)) :
    totalLen type (cs ++ cs') = totalLen type cs + totalLen type cs' := by
  simp [totalLen]

/-! ## The calls of `setup` -/

/-- The counters are the sums over the calls. -/
def Process.Sums (p : Process) : Prop :=
  p.reqHandledTotalPkgLen = UInt64.ofNat (totalLen .fromClientToServer p.handled) ∧
    p.resHandledTotalPkgLen = UInt64.ofNat (totalLen .fromServerToClient p.handled)

/-- What the `switch` does: one call or none, and then a write, the next head, or
    the end of the coroutine. -/
structure Handled (p p' : Process) (head : List Byte) : Prop where
  handled : p'.handled = p.handled ++
    (callOf (head.getD 0 0) (p.buf.take (bodyLen head).toNat)).toList
  eof : p'.eof = p.eof
  received : p'.received = p.received
  readFailed : p'.readFailed = p.readFailed
  setup : p'.setup = .done ∨ (∃ w, p'.setup = .write w) ∨ p'.setup = .readHead [] ∧ p.eof = false
  sums : (bodyLen head).toNat ≤ p.buf.length → p.Sums → p'.Sums

theorem Process.setupLoop_setup (p : Process) :
    p.setupLoop.setup = .done ∨ (∃ w, p.setupLoop.setup = .write w) ∨
      p.setupLoop.setup = .readHead [] ∧ p.eof = false := by
  unfold setupLoop
  split
  · exact .inl rfl
  · rename_i h
    exact .inr (.inr ⟨rfl, by simpa using h⟩)

theorem Process.setupLoop_rest (p : Process) : p.setupLoop.handled = p.handled ∧
    p.setupLoop.eof = p.eof ∧ p.setupLoop.received = p.received ∧
    p.setupLoop.readFailed = p.readFailed ∧ (p.Sums → p.setupLoop.Sums) := by
  unfold setupLoop
  split <;> exact ⟨rfl, rfl, rfl, rfl, id⟩

theorem totalLen_singleton (type t : DataType) (data : List Byte) :
    totalLen type [(t, data)] = if t = type then data.length else 0 := by
  by_cases h : t = type <;> simp [totalLen, h]

/-- A call adds the length of its data to the counter of its type. -/
theorem Process.Sums.call {p p' : Process} (h : p.Sums) {type : DataType} {data : List Byte}
    (hh : p'.handled = p.handled ++ [(type, data)])
    (hreq : p'.reqHandledTotalPkgLen = p.reqHandledTotalPkgLen +
      UInt64.ofNat (if type = .fromClientToServer then data.length else 0))
    (hres : p'.resHandledTotalPkgLen = p.resHandledTotalPkgLen +
      UInt64.ofNat (if type = .fromServerToClient then data.length else 0)) : p'.Sums := by
  constructor
  · rw [hreq, h.1, hh, totalLen_append, totalLen_singleton, UInt64.ofNat_add]
  · rw [hres, h.2, hh, totalLen_append, totalLen_singleton, UInt64.ofNat_add]

/-- `setup` goes on after a call without a write. -/
theorem Handled.loop {p q : Process} {head : List Byte} (hh : q.handled = p.handled ++
      (callOf (head.getD 0 0) (p.buf.take (bodyLen head).toNat)).toList)
    (he : q.eof = p.eof) (hr : q.received = p.received) (hf : q.readFailed = p.readFailed)
    (hs : (bodyLen head).toNat ≤ p.buf.length → p.Sums → q.Sums) :
    Handled p q.setupLoop head := by
  obtain ⟨hlh, hle, hlr, hlf, hls⟩ := q.setupLoop_rest
  exact ⟨hlh.trans hh, hle.trans he, hlr.trans hr, hlf.trans hf, he ▸ q.setupLoop_setup,
    fun hl h => hls (hs hl h)⟩

/-- **One call or none.** -/
theorem handle_handled (p : Process) (head : List Byte) (parses : Bool) :
    Handled p (p.handle head parses) head := by
  unfold Process.handle
  generalize hd : p.buf.take (bodyLen head).toNat = data
  have hadd : (bodyLen head).toNat ≤ p.buf.length → ∀ n : UInt64,
      n + (bodyLen head).toUInt64 = n + UInt64.ofNat data.length := by
    intro h n
    rw [← hd, List.length_take, min_eq_left h]
    exact congrArg (n + ·) (UInt64.toNat_inj.1 (by simp))
  have hcall : ∀ {type : DataType}, DataType.ofCode (head.getD 0 0) = some type →
      type ≠ .heartbeat → p.handled ++ [(type, data)] = p.handled ++
        (callOf (head.getD 0 0) (p.buf.take (bodyLen head).toNat)).toList := by
    intro type ht hne
    rw [callOf, ht, hd, Option.filter_some_pos (by simpa using hne)]
    rfl
  have hnone : DataType.ofCode (head.getD 0 0) = none ∨
      DataType.ofCode (head.getD 0 0) = some .heartbeat → p.handled = p.handled ++
        (callOf (head.getD 0 0) (p.buf.take (bodyLen head).toNat)).toList := by
    rintro (ht | ht) <;> rw [callOf, ht] <;> exact (List.append_nil _).symm
  cases ht : DataType.ofCode (head.getD 0 0) with
  | none => exact .loop (hnone (.inl ht)) rfl rfl rfl fun _ => id
  | some type =>
    cases type with
    | fromClientToServer =>
      exact ⟨hcall ht (by decide), rfl, rfl, rfl, .inr (.inl ⟨_, rfl⟩), fun hle hs =>
        hs.call rfl (hadd hle _) (UInt64.add_zero _).symm⟩
    | fromServerToClient =>
      dsimp only
      split
      · exact .loop (hcall ht (by decide)) rfl rfl rfl fun hle hs =>
          hs.call rfl (UInt64.add_zero _).symm (hadd hle _)
      · exact ⟨hcall ht (by decide), rfl, rfl, rfl, .inr (.inl ⟨_, rfl⟩), fun hle hs =>
          hs.call rfl (UInt64.add_zero _).symm (hadd hle _)⟩
    | fourTuple =>
      dsimp only
      split
      · exact .loop (hcall ht (by decide)) rfl rfl rfl fun _ hs =>
          hs.call rfl (UInt64.add_zero _).symm (UInt64.add_zero _).symm
      · exact ⟨hcall ht (by decide), rfl, rfl, rfl, .inl rfl, fun _ hs =>
          hs.call rfl (UInt64.add_zero _).symm (UInt64.add_zero _).symm⟩
    | heartbeat => exact .loop (hnone (.inr ht)) rfl rfl rfl fun _ => id

/-! ## A connection that ends -/

/-- What a read of a head leaves of the old bytes in `head_buf`. -/
def SetupPc.stale (headBuf : List Byte) : SetupPc → Option (List Byte)
  | readHead got => some (headBuf.drop got.length)
  | _ => none

/-- The proxy sends `bytes` and closes; `headBuf` is what is in `head_buf` before
    the read that meets the end of the stream.  A read behind the end meets the
    end again, or is aborted when the socket is closed. -/
def Process.Sends (bytes headBuf : List Byte) (p : Process) : ProcessEvent → Prop
  | .pull more => p.received ++ more <+: bytes
  | .readEof garbage _ => p.received = bytes ∧
      (p.setup.stale headBuf = none ∨ p.setup.stale headBuf = some garbage)
  | _ => True

instance (bytes headBuf : List Byte) (p : Process) : ∀ e, Decidable (p.Sends bytes headBuf e)
  | .pull _ => inferInstanceAs (Decidable (_ <+: _))
  | .readEof _ _ => inferInstanceAs (Decidable (_ ∧ _))
  | .readDone _ | .readError | .tick | .cancelled | .push _ _ | .wrote _ | .writeFailed _ =>
    inferInstanceAs (Decidable True)

/-- The end of the stream was met behind `rest`, and `setup` went on with the type
    in `head_buf`. -/
def Process.Ended (headBuf : List Byte) (p : Process) (frames : List (List Byte × List Byte))
    (rest : List Byte) : Prop :=
  Partial rest ∧
    ∃ data, p.handled = calls frames ++ (callOf ((rest ++ headBuf).getD 0 0) data).toList

/-- Where `setup` is when it has handled `frames`, with `rest` behind them. -/
def Process.At (headBuf : List Byte) (p : Process) (frames : List (List Byte × List Byte))
    (rest : List Byte) : Prop :=
  match p.setup with
  | .readHead got => p.eof = false ∧ rest = got ∧ got.length ≤ frameHeadLen ∧
      p.handled = calls frames
  | .readBody head got => head.length = frameHeadLen ∧ bodyLen head ≠ 0 ∧
      (bodyLen head).toNat ≤ p.buf.length ∧ got.length ≤ (bodyLen head).toNat ∧
      p.handled = calls frames ∧ (p.eof = false → rest = head ++ got) ∧
      (p.eof = true → got = [] ∧ Partial rest ∧ head.getD 0 0 = (rest ++ headBuf).getD 0 0)
  | .write _ => (p.eof = false → rest = [] ∧ p.handled = calls frames) ∧
      (p.eof = true → p.Ended headBuf frames rest)
  | .done => (p.eof = false ∨ p.readFailed = true → Partial rest ∧ p.handled = calls frames) ∧
      (p.eof = true → p.readFailed = false → p.Ended headBuf frames rest)

/-- What is received is handled frame by frame. -/
structure Process.Decoded (bytes headBuf : List Byte) (p : Process) : Prop where
  received : p.received <+: bytes
  atEnd : p.eof = true → p.received = bytes
  sums : p.Sums
  failed : p.readFailed = true → p.setup = .done
  phase : ∃ frames rest, Cut p.received frames rest ∧ p.At headBuf frames rest

theorem partial_nil : Partial [] := by
  simp only [Partial, frameHeadLen, List.length_nil]
  omega

section Decoded

variable {bytes headBuf : List Byte} {p p' : Process}

namespace Process.Decoded

theorem start (buf : List Byte) : Decoded bytes headBuf { buf } where
  received := List.nil_prefix
  atEnd := by simp
  sums := ⟨rfl, rfl⟩
  failed := by simp
  phase := ⟨[], [], Cut.nil [], rfl, rfl, Nat.zero_le _, rfl⟩

/-- The heartbeat, and a write of `setup` that goes on. -/
theorem congr (h : Decoded bytes headBuf p)
    (hs : p'.setup = p.setup ∨ ∃ w w', p.setup = .write w ∧ p'.setup = .write w')
    (hr : p'.received = p.received) (he : p'.eof = p.eof) (hf : p'.readFailed = p.readFailed)
    (hb : p'.buf = p.buf)
    (hh : p'.handled = p.handled) (hreq : p'.reqHandledTotalPkgLen = p.reqHandledTotalPkgLen)
    (hres : p'.resHandledTotalPkgLen = p.resHandledTotalPkgLen) :
    Decoded bytes headBuf p' := by
  refine ⟨hr ▸ h.received, fun h' => hr ▸ h.atEnd (he ▸ h'), ?_, fun hp => ?_, ?_⟩
  · rw [Sums, hreq, hres, hh]
    exact h.sums
  · have hd := h.failed (hf ▸ hp)
    rcases hs with hs | ⟨w, w', hs, -⟩
    · exact hs.trans hd
    · rw [hd] at hs; cases hs
  · obtain ⟨frames, rest, hc, ha⟩ := h.phase
    refine ⟨frames, rest, hr ▸ hc, ?_⟩
    rcases hs with hs | ⟨w, w', hs, hs'⟩
    · simpa only [At, Ended, hs, he, hf, hb, hh] using ha
    · simp only [At, hs] at ha
      simpa only [At, Ended, hs', he, hh] using ha

/-- No read of `setup` has failed while it has not returned. -/
theorem not_failed (h : Decoded bytes headBuf p) (hs : p.setup ≠ .done) : p.readFailed = false := by
  by_contra hf
  exact hs (h.failed (by simpa using hf))

/-- A complete frame is handled. -/
theorem handleFrame {frames : List (List Byte × List Byte)} {head b : List Byte}
    (hr : p.received <+: bytes) (he : p.eof = false) (hf : p.readFailed = false) (hs : p.Sums)
    (hh : p.handled = calls frames) (hc : Cut p.received (frames ++ [(head, b)]) [])
    (hb : (bodyLen head).toNat ≤ p.buf.length) (hbody : p.buf.take (bodyLen head).toNat = b) (parses : Bool) :
    Decoded bytes headBuf (p.handle head parses) := by
  have hd := handle_handled p head parses
  have hcalls : (p.handle head parses).handled = calls (frames ++ [(head, b)]) := by
    rw [hd.handled, hbody, hh, calls_snoc]
  have hef := hd.eof.trans he
  refine ⟨hd.received ▸ hr, fun h => absurd (hef.symm.trans h) (by simp), hd.sums hb hs,
    fun h => absurd ((hd.readFailed.trans hf).symm.trans h) (by simp), _, [], hd.received ▸ hc, ?_⟩
  rcases hd.setup with hp | ⟨w, hp⟩ | ⟨hp, -⟩
  · simp only [At, hp]
    exact ⟨fun _ => ⟨partial_nil, hcalls⟩, fun h => absurd (hef.symm.trans h) (by simp)⟩
  · simp only [At, hp]
    exact ⟨fun _ => ⟨trivial, hcalls⟩, fun h => absurd (hef.symm.trans h) (by simp)⟩
  · simp only [At, hp]
    exact ⟨hef, trivial, Nat.zero_le _, hcalls⟩

/-- At the end of the stream `setup` goes on with what it finds. -/
theorem handleLast {frames : List (List Byte × List Byte)} {head rest : List Byte}
    (hr : p.received = bytes) (he : p.eof = true) (hf : p.readFailed = false) (hs : p.Sums)
    (hh : p.handled = calls frames) (hc : Cut p.received frames rest) (hp : Partial rest)
    (hb : (bodyLen head).toNat ≤ p.buf.length)
    (htype : head.getD 0 0 = (rest ++ headBuf).getD 0 0) (parses : Bool) :
    Decoded bytes headBuf (p.handle head parses) := by
  have hd := handle_handled p head parses
  have hend : (p.handle head parses).Ended headBuf frames rest :=
    ⟨hp, _, by rw [hd.handled, hh, htype]⟩
  have het := hd.eof.trans he
  have hft := hd.readFailed.trans hf
  refine ⟨(hd.received.trans hr) ▸ List.prefix_rfl, fun _ => hd.received.trans hr, hd.sums hb hs,
    fun h => absurd (hft.symm.trans h) (by simp), frames, rest, hd.received ▸ hc, ?_⟩
  rcases hd.setup with hp' | ⟨w, hp'⟩ | ⟨-, hef⟩
  · simp only [At, hp', het, hft]
    exact ⟨by simp, fun _ _ => hend⟩
  · simp only [At, hp']
    exact ⟨fun h => absurd (het.symm.trans h) (by simp), fun _ => hend⟩
  · exact absurd (he.symm.trans hef) (by simp)

/-- `setup` has a head: a whole one, or at the end of the stream what is in
    `head_buf`. -/
theorem setupHead {frames : List (List Byte × List Byte)} {head rest : List Byte}
    (hr : p.received <+: bytes) (he : p.eof = true → p.received = bytes)
    (hn : p.readFailed = false) (hs : p.Sums) (hh : p.handled = calls frames)
    (hc : Cut p.received frames rest)
    (hl : head.length = frameHeadLen) (hf : p.eof = false → rest = head)
    (ht : p.eof = true → Partial rest ∧ head.getD 0 0 = (rest ++ headBuf).getD 0 0)
    (parses : Bool) : Decoded bytes headBuf (p.setupHead head parses) := by
  have hgrow : (bodyLen head).toNat ≤ (p.growBuf (bodyLen head).toNat).buf.length := by
    simp only [growBuf, List.length_append, List.length_replicate]
    omega
  unfold Process.setupHead
  dsimp only
  split
  · rename_i hne
    refine ⟨hr, he, hs, fun h => absurd (hn.symm.trans h) (by simp), frames, rest, hc, ?_⟩
    exact ⟨hl, hne, hgrow, Nat.zero_le _, hh, fun h => by rw [hf h, List.append_nil],
      fun h => ⟨rfl, ht h⟩⟩
  · rename_i hzero
    have hz : bodyLen head = 0 := not_not.1 hzero
    cases heof : p.eof with
    | true =>
      exact handleLast (p := p.growBuf _) (he heof) heof hn hs hh hc (ht heof).1 hgrow
        (ht heof).2 parses
    | false =>
      obtain rfl := hf heof
      refine handleFrame (p := p.growBuf _) (b := []) hr heof hn hs hh ?_ hgrow
        (by rw [hz]; rfl) parses
      exact Cut.snoc (by rwa [List.append_nil]) hl (by rw [hz]; rfl)

theorem headWrite_setup {w : HeadWrite} (h : p.headWrite .setup = some w) : p.setup = .write w := by
  simp only [headWrite] at h
  split at h
  · rename_i hpc
    rw [hpc, Option.some.inj h]
  · cases h

/-- The head is written: the next frame, or the end. -/
theorem loop (h : Decoded bytes headBuf p) {w : HeadWrite} (hpc : p.setup = .write w) :
    Decoded bytes headBuf p.setupLoop := by
  obtain ⟨frames, rest, hc, ha⟩ := h.phase
  have hn := h.not_failed (by simp [hpc])
  simp only [At, hpc] at ha
  cases he : p.eof with
  | true =>
    rw [Process.setupLoop, if_pos he]
    refine ⟨h.received, h.atEnd, h.sums, fun _ => rfl, frames, rest, hc, ?_⟩
    exact ⟨by simp [graceClose, he, hn], fun hef _ => ha.2 hef⟩
  | false =>
    rw [Process.setupLoop, if_neg (by simp [he])]
    obtain ⟨rfl, hh⟩ := ha.1 he
    exact ⟨h.received, h.atEnd, h.sums, fun hf => absurd (hn.symm.trans hf) (by simp), frames, [],
      hc, he, rfl, Nat.zero_le _, hh⟩

theorem step (h : Decoded bytes headBuf p) {e : ProcessEvent} (hS : p.Sends bytes headBuf e)
    (hst : p.step e = some p') : Decoded bytes headBuf p' := by
  obtain ⟨frames, rest, hc, ha⟩ := h.phase
  cases e with
  | pull more =>
    simp only [Process.step] at hst
    split at hst
    case h_2 => cases hst
    case h_1 got want hq =>
      split at hst
      case isFalse => cases hst
      case isTrue hp =>
        obtain rfl := Option.some.inj hst
        have hef : p.eof = false := by
          -- behind the end there is nothing to pull
          by_contra ht
          have hb := h.atEnd (by simpa using ht)
          have := hS.length_le
          rw [hb, List.length_append] at this
          exact hp.2.1 (List.eq_nil_of_length_eq_zero (by omega))
        have hn := h.not_failed fun hd => by rw [hd] at hq; cases hq
        refine ⟨hS, fun h' => absurd (hef.symm.trans h') (by simp), h.sums,
          fun hf => absurd (hn.symm.trans hf) (by simp), frames, rest ++ more, hc.append more, ?_⟩
        cases hpc : p.setup with
        | readHead got' =>
          rw [hpc] at hq; cases hq
          simp only [At, hpc] at ha
          simp only [At, SetupPc.setGot]
          exact ⟨ha.1, by rw [ha.2.1], by rw [List.length_append]; exact hp.2.2, ha.2.2.2⟩
        | readBody head got' =>
          rw [hpc] at hq; cases hq
          simp only [At, hpc] at ha
          obtain ⟨h1, h2, h3, h4, h5, h6, -⟩ := ha
          simp only [At, SetupPc.setGot]
          exact ⟨h1, h2, h3, by rw [List.length_append]; exact hp.2.2, h5,
            fun h' => by rw [h6 h', List.append_assoc],
            fun h' => absurd (hef.symm.trans h') (by simp)⟩
        | _ => rw [hpc] at hq; cases hq
  | readDone parses =>
    simp only [Process.step] at hst
    split at hst
    case h_1 got hpc =>
      split at hst <;> cases hst
      rename_i hl
      simp only [At, hpc] at ha
      exact setupHead h.received h.atEnd (h.not_failed (by simp [hpc])) h.sums ha.2.2.2 hc hl
        (fun _ => ha.2.1)
        (fun h' => absurd (ha.1.symm.trans h') (by simp)) parses
    case h_2 head got hpc =>
      split at hst <;> cases hst
      rename_i hl
      simp only [At, hpc] at ha
      obtain ⟨h1, h2, h3, -, h5, h6, h7⟩ := ha
      have hef : p.eof = false := by
        by_contra ht
        obtain ⟨rfl, -⟩ := h7 (by simpa using ht)
        exact h2 (UInt32.toNat_inj.1 hl.symm)
      refine handleFrame (p := p.setBuf got) (b := got) h.received hef
        (h.not_failed (by simp [hpc])) h.sums h5 ?_ ?_ ?_ parses
      · exact Cut.snoc (h6 hef ▸ hc) h1 hl
      · simp only [setBuf, List.length_append]
        omega
      · simp only [setBuf]
        rw [← hl, List.take_left]
    case h_3 => cases hst
  | readEof garbage parses =>
    obtain ⟨hall, hstale⟩ := hS
    simp only [Process.step] at hst
    split at hst
    case h_1 got hpc =>
      split at hst
      case isFalse => cases hst
      case isTrue hl =>
        obtain rfl := Option.some.inj hst
        simp only [At, hpc] at ha
        obtain ⟨-, rfl, -, h5⟩ := ha
        have hg : garbage = headBuf.drop rest.length := by
          rcases hstale with hn | hn <;> rw [hpc] at hn <;> cases hn
          rfl
        refine setupHead (p := { p with eof := true }) h.received (fun _ => hall)
          (h.not_failed (by simp [hpc])) h.sums h5 hc (by rw [List.length_append]; exact hl.1) (by simp) (fun _ => ⟨?_, ?_⟩) parses
        · have : garbage.length ≠ 0 := fun h0 => hl.2 (List.eq_nil_of_length_eq_zero h0)
          simp only [Partial]
          omega
        · subst hg
          cases rest <;> simp
    case h_2 head got hpc =>
      split at hst
      case isFalse => cases hst
      case isTrue hl =>
        obtain rfl := Option.some.inj hst
        simp only [At, hpc] at ha
        obtain ⟨h1, h2, h3, -, h5, h6, h7⟩ := ha
        have hpart : Partial rest ∧ head.getD 0 0 = (rest ++ headBuf).getD 0 0 := by
          cases heof : p.eof with
          | true => exact (h7 heof).2
          | false =>
            rw [h6 heof]
            constructor
            · simp only [Partial, bodyLen_append h1, List.length_append]
              omega
            · cases head with
              | nil => simp [frameHeadLen] at h1
              | cons b head => simp
        refine handleLast (p := { p with eof := true }.setBuf got) hall rfl
          (h.not_failed (by simp [hpc])) h.sums h5 hc hpart.1 ?_ hpart.2 parses
        simp only [setBuf, List.length_append, List.length_drop]
        omega
    case h_3 => cases hst
  | readError =>
    simp only [Process.step] at hst
    split at hst
    case h_2 => cases hst
    case h_1 got want hq =>
      split at hst
      case isFalse => cases hst
      case isTrue hl =>
        obtain rfl := Option.some.inj hst
        refine ⟨h.received, h.atEnd, h.sums, fun _ => rfl, frames, rest, hc, fun _ => ?_,
          fun _ hf => by cases hf⟩
        cases hpc : p.setup with
        | readHead got' =>
          rw [hpc] at hq; cases hq
          simp only [At, hpc] at ha
          refine ⟨?_, ha.2.2.2⟩
          rw [ha.2.1, Partial]
          omega
        | readBody head got' =>
          rw [hpc] at hq; cases hq
          simp only [At, hpc] at ha
          obtain ⟨h1, h2, h3, h4, h5, h6, h7⟩ := ha
          refine ⟨?_, h5⟩
          cases hef : p.eof with
          | true => exact (h7 hef).2.1
          | false =>
            rw [h6 hef]
            simp only [Partial, bodyLen_append h1, List.length_append]
            omega
        | _ => rw [hpc] at hq; cases hq
  | tick =>
    simp only [Process.step] at hst
    split at hst <;> cases hst
    exact h.congr (.inl rfl) rfl rfl rfl rfl rfl rfl rfl
  | cancelled =>
    simp only [Process.step] at hst
    split at hst
    case h_2 => cases hst
    case h_1 =>
      split at hst <;> cases hst
      exact h.congr (.inl rfl) rfl rfl rfl rfl rfl rfl rfl
  | push t k =>
    simp only [Process.step] at hst
    split at hst
    case h_2 => cases hst
    case h_1 w hw =>
      split at hst <;> cases hst
      cases t with
      | heartbeat => exact h.congr (.inl rfl) rfl rfl rfl rfl rfl rfl rfl
      | setup =>
        exact h.congr (.inr ⟨w, _, headWrite_setup hw, rfl⟩) rfl rfl rfl rfl rfl rfl rfl
  | wrote t =>
    simp only [Process.step] at hst
    split at hst
    case h_2 => cases hst
    case h_1 w hw =>
      split at hst
      case isFalse => cases hst
      case isTrue =>
        cases t with
        | heartbeat =>
          cases hst
          exact h.congr (.inl rfl) rfl rfl rfl rfl rfl rfl rfl
        | setup =>
          cases hst
          exact h.loop (headWrite_setup hw)
  | writeFailed t =>
    simp only [Process.step] at hst
    split at hst
    case h_2 => cases hst
    case h_1 w hw =>
      split at hst
      case isFalse => cases hst
      case isTrue =>
        cases t with
        | heartbeat =>
          cases hst
          exact h.congr (.inl rfl) rfl rfl rfl rfl rfl rfl rfl
        | setup =>
          cases hst
          have hpc := headWrite_setup hw
          have hn := h.not_failed (by simp [hpc])
          simp only [At, hpc] at ha
          refine ⟨h.received, h.atEnd, h.sums, fun _ => rfl, frames, rest, hc, fun hef => ?_,
            fun hef _ => ha.2 hef⟩
          obtain ⟨rfl, hh⟩ := ha.1 (hef.resolve_right (by simp [graceClose, hn]))
          exact ⟨partial_nil, hh⟩

end Process.Decoded

end Decoded

/-! ## What is handled -/

/-- The calls are those of the complete frames of `bytes`, and the counters are
    the sums of their payload lengths. -/
def Process.Handles (p : Process) (bytes : List Byte) : Prop :=
  p.handled = calls (completeFrames bytes) ∧
    p.reqHandledTotalPkgLen.toNat =
      totalLen .fromClientToServer (calls (completeFrames bytes)) ∧
    p.resHandledTotalPkgLen.toNat =
      totalLen .fromServerToClient (calls (completeFrames bytes))

/-- The sums of the payload lengths fit the counters. -/
def SumsFit (bytes : List Byte) : Prop :=
  totalLen .fromClientToServer (calls (completeFrames bytes)) < 2 ^ 64 ∧
    totalLen .fromServerToClient (calls (completeFrames bytes)) < 2 ^ 64

instance (bytes : List Byte) : Decidable (SumsFit bytes) := inferInstanceAs (Decidable (_ ∧ _))

/-- The type that `setup` finds in `head_buf` at the end of the stream, the first
    byte of the leftover or an old one, calls nothing. -/
def SilentEnd (bytes headBuf : List Byte) : Prop :=
  DataType.ofCode ((leftover bytes ++ headBuf).getD 0 0) = none ∨
    DataType.ofCode ((leftover bytes ++ headBuf).getD 0 0) = some .heartbeat

theorem callOf_eq_none {type : Byte} {l : List Byte} : callOf type l = none ↔
    DataType.ofCode type = none ∨ DataType.ofCode type = some .heartbeat := by
  cases h : DataType.ofCode type with
  | none => simp [callOf, h]
  | some t => cases t <;> simp [callOf, h]

theorem Process.Sums.toNat_iff {p : Process} (h : p.Sums) {bytes : List Byte}
    (hh : p.handled = calls (completeFrames bytes)) :
    p.Handles bytes ↔ SumsFit bytes := by
  rw [Handles, SumsFit, h.1, h.2, hh]
  simp only [UInt64.toNat_ofNat', true_and]
  omega

/-- **The process handles the complete frames** exactly when all of them were read
    before the coroutine ended, and, if the end of the stream was met and the read of a
    body behind it was not aborted, the type in `head_buf` calls nothing. -/
theorem handles_iff {buf bytes headBuf : List Byte} {p : Process}
    (h : Reach Process.step (Process.Sends bytes headBuf) { buf } p) (hd : p.setup = .done) :
    p.Handles bytes ↔
      calls (completeFrames p.received) = calls (completeFrames bytes) ∧
        (p.eof = true → p.readFailed = false → SilentEnd bytes headBuf) ∧ SumsFit bytes := by
  have hi : p.Decoded bytes headBuf := h.inv (Process.Decoded.start buf) fun _ _ _ hp hS he =>
    hp.step hS he
  obtain ⟨frames, rest, hc, ha⟩ := hi.phase
  simp only [Process.At, hd] at ha
  by_cases hs : p.eof = false ∨ p.readFailed = true
  · -- the coroutine ended before a frame was dispatched behind the end
    obtain ⟨hp, hh⟩ := ha.1 hs
    have hsilent : p.eof = true → p.readFailed = false → SilentEnd bytes headBuf := by
      intro he hf
      rcases hs with hs | hs
      · exact absurd (he.symm.trans hs) (by simp)
      · exact absurd (hf.symm.trans hs) (by simp)
    rw [(hc.complete hp).1, ← hh]
    constructor
    · intro hx
      exact ⟨hx.1, hsilent, (hi.sums.toNat_iff hx.1).1 hx⟩
    · rintro ⟨hx, -, hs⟩
      exact (hi.sums.toNat_iff hx).2 hs
  · simp only [not_or, Bool.not_eq_false, Bool.not_eq_true] at hs
    obtain ⟨he, hf⟩ := hs
    obtain ⟨hp, data, hh⟩ := ha.2 he hf
    have hb := hi.atEnd he
    obtain ⟨hcf, hlo⟩ := hc.complete hp
    rw [hb] at hcf hlo
    have hcalls : p.handled = calls (completeFrames bytes) ↔ SilentEnd bytes headBuf := by
      rw [hh, hcf, SilentEnd, hlo, ← callOf_eq_none (l := data), List.append_right_eq_self,
        Option.toList_eq_nil_iff]
    constructor
    · intro hx
      exact ⟨by rw [hb], fun _ _ => hcalls.1 hx.1, (hi.sums.toNat_iff hx.1).1 hx⟩
    · rintro ⟨-, hx, hs⟩
      exact (hi.sums.toNat_iff (hcalls.2 (hx he hf))).2 hs

/-- A request frame, and then an end with that head still in `head_buf`; the heartbeat
    closes the socket, and the read of another body is aborted. -/
theorem handles_aborted : ∃ p : Process, p.eof = true ∧
    p.handled = [(.fromClientToServer, [9])] ∧ p.Handles [0, 1, 0, 0, 0, 9] := by
  obtain ⟨p, hp, hq⟩ := exists_runIf Process.step
    (Process.Sends [0, 1, 0, 0, 0, 9] [0, 1, 0, 0, 0]) ({ buf := [7, 7] })
    ([.pull [0, 1, 0, 0, 0], .readDone true, .pull [9], .readDone true, .push .setup 16,
      .wrote .setup, .readEof [0, 1, 0, 0, 0] true, .tick, .writeFailed .heartbeat, .readError])
    (fun p => p.setup == .done && p.eof && p.readFailed &&
      p.handled == [(.fromClientToServer, [9])] && p.received == [0, 1, 0, 0, 0, 9])
    (by decide +kernel)
  simp only [Bool.and_eq_true, beq_iff_eq] at hq
  obtain ⟨⟨⟨⟨hd, he⟩, hf⟩, hh⟩, hr⟩ := hq
  exact ⟨p, he, hh, (handles_iff hp hd).2
    ⟨by rw [hr], fun _ hn => absurd (hf.symm.trans hn) (by simp), by decide⟩⟩

/-- The proxy closes behind a notice without data, whose head is still in `head_buf`: the
    notice is handled again. -/
theorem not_handles : ¬ ∀ (buf bytes headBuf : List Byte) (p : Process),
    Reach Process.step (Process.Sends bytes headBuf) { buf } p → p.setup = .done →
      p.Handles bytes := by
  intro h
  obtain ⟨p, hp, hq⟩ := exists_runIf Process.step
    (Process.Sends [1, 0, 0, 0, 0] [1, 0, 0, 0, 0]) ({ buf := [] })
    ([.pull [1, 0, 0, 0, 0], .readDone true, .readEof [1, 0, 0, 0, 0] true])
    (fun p => p.setup == .done &&
      p.handled == [(.fromServerToClient, []), (.fromServerToClient, [])])
    (by decide +kernel)
  simp only [Bool.and_eq_true, beq_iff_eq] at hq
  have := (h _ _ _ p hp hq.1).1
  rw [hq.2] at this
  exact absurd this (by decide)

end CppProxy
